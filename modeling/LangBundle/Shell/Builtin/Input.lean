import LangBundle.Process.Capture
import LangBundle.Shell.Builtin.Variables

/-!
# Reading lines into variables

`read` takes one line of its input and not a byte more.  A backslash keeps the character behind it
from dividing, and joins two lines in front of a line end.
-/

namespace LangBundle.Shell.Builtin

open Process

/-- The bytes up to the first line end, this included. -/
def throughNewline (data : Bytes) : Bytes :=
  data.take ((data.takeWhile (· != newline)).length + 1)

/-- Reads up to a line end that no backslash stands in front of; gives the bytes, the newest piece
first, and whether the line ended. -/
def readPiece (raw : Bool) (e : Env) : (fuel : Nat) → List Bytes →
    (k : List Bytes → Bool → Behaviour) → Behaviour
  | 0, pieces, k => k pieces false
  | fuel + 1, pieces, k =>
    readStream (e.setting.stream? 0) (fun w => !(w.pending e.setting.process).isEmpty)
      throughNewline fun
      | .ok [] | .error _ => k pieces false
      | .ok data =>
        let pieces := data :: pieces
        let escapes := match pieces.flatMap (·.reverse) with
          | b :: before => b = newline && !raw && (before.takeWhile (· == 0x5C)).length % 2 = 1
          | [] => false
        if data.getLast? = some newline && !escapes then k pieces true
        else readPiece raw e fuel pieces k

/-- The glyphs of a line; what a backslash stands in front of does not divide. -/
def lineGlyphs (raw : Bool) : List Char → List Glyph
  | [] => []
  | '\x5c' :: rest =>
    if raw then .char '\x5c' false true :: lineGlyphs raw rest
    else match rest with
      | '\n' :: rest => .edge :: lineGlyphs raw rest
      | c :: rest => .char c true false :: .edge :: lineGlyphs raw rest
      | [] => []
  | c :: rest => .char c false true :: lineGlyphs raw rest

/-- The last field of a line, which takes in what is left: without the blanks behind it, and without
a separator if that is all that is left.  `cut` is the field up to where it may end. -/
def lastField (separators : List Char) : (cut : Option (List Glyph)) → (blank : Bool) →
    (field : List Glyph) → List Glyph → List Glyph
  | cut, _, field, [] => (cut.getD field).reverse
  | cut, blank, field, g :: rest =>
    let (cut, blank) : Option (List Glyph) × Bool := match g, Expansion.roleOf separators g with
      | .char _ _ true, .blank => (some (cut.getD field), blank)
      | .char _ _ true, .separator => if blank then (cut, false) else (none, false)
      | .char _ _ true, _ => (none, false)
      | .edge, _ => (cut, false)
      | _, _ => (cut, blank)
    lastField separators cut blank (g :: field) rest

/-- The fields of a line, at most `count`; the last one takes in what is left. -/
def lineFields (separators : List Char) : (count : Nat) → (field : List Glyph) →
    (skips : Bool) → List Glyph → List (List Glyph)
  | 0, _, _, _ => []
  | _, field, _, [] => if field.isEmpty then [] else [field.reverse]
  | count + 1, field, skips, g :: rest =>
    let finish (blank : Bool) : List (List Glyph) :=
      if count = 0 then [lastField separators (some field) blank (g :: field) rest]
      else field.reverse :: lineFields separators count [] blank rest
    match Expansion.roleOf separators g with
    | .blank =>
      if skips then lineFields separators (count + 1) field true rest
      else if field.isEmpty then lineFields separators (count + 1) [] false rest
      else finish true
    | .separator =>
      if skips then lineFields separators (count + 1) field false rest
      else finish false
    | _ =>
      lineFields separators (count + 1) (if g = .edge then field else g :: field) false rest

/-- Gives variables the fields of a line; the ones left over become empty. -/
def assignFields (c : Call) : (names : List String) → List (List Glyph) → Env → Rest → Behaviour
  | [], _, e, k => k e
  | name :: rest, fields, e, k =>
    change c e name (fun v => some (withValue e (Glyph.text (fields.headD [])) v)) fun e =>
      assignFields c rest fields.tail e k

/-- Reads a line into variables. -/
def reading : Builtin := fun c e k => c.withOptions e ['r'] ['p'] fun options names =>
  let raw := options.any (·.1 == 'r')
  if names.isEmpty then c.fail e "arg count"
  else readPiece raw e 0x1000000000000 [] fun pieces ended =>
    let data := pieces.reverse.flatten.filter (· != 0)
    let data := if ended then data.dropLast else data
    let gs := lineGlyphs raw (Octets.ofBytes data).toList
    assignFields c names (lineFields e.separators names.length [] false gs) e fun e =>
      k (e.after (if ended then 0 else 1))

end LangBundle.Shell.Builtin
