import LangBundle.Text.Classes

/-!
# Patterns of the shell

Expanding a word gives glyphs: characters that know where they come from.  A pattern is a row of
characters in which `*`, `?` and `[` stand for other characters and a backslash takes this meaning
away; the pattern of glyphs has a backslash in front of each quoted one.
-/

namespace LangBundle.Shell

/-- What the expansion of a word consists of. -/
inductive Glyph where
  /-- A character: whether it was quoted, and whether it may divide fields. -/
  | char (c : Char) (quoted divides : Bool)
  /-- There is a field here even if it is empty. -/
  | mark
  /-- The end of a field; `hard` if also of an empty one. -/
  | cut (hard : Bool)
  /-- Another value begins here: blanks on both sides of it do not belong together. -/
  | edge
  deriving Repr, DecidableEq

namespace Glyph

/-- The characters of glyphs. -/
def text (gs : List Glyph) : String :=
  String.ofList (gs.filterMap fun
    | .char c _ _ => some c
    | _ => none)

/-- The pattern of glyphs. -/
def pattern (gs : List Glyph) : List Char :=
  gs.flatMap fun
    | .char c quoted _ => if quoted then ['\x5c', c] else [c]
    | _ => []

end Glyph

namespace Pattern

/-- Whether a character belongs to a class that has a name. -/
def inClass? (name : String) (c : Char) : Option Bool :=
  let n := c.toNat
  let lower := 'a' ≤ c && c ≤ 'z'
  let upper := 'A' ≤ c && c ≤ 'Z'
  let digit := '0' ≤ c && c ≤ '9'
  let printed := 0x20 ≤ n && n ≤ 0x7E
  match name with
  | "alnum" => some (lower || upper || digit)
  | "alpha" => some (lower || upper)
  | "blank" => some (c = ' ' || c = '\t')
  | "cntrl" => some (n < 0x20 || n = 0x7F)
  | "digit" => some digit
  | "graph" => some (printed && c != ' ')
  | "lower" => some lower
  | "print" => some printed
  | "punct" => some (printed && c != ' ' && !(lower || upper || digit))
  | "space" => some (c = ' ' || (0x09 ≤ n && n ≤ 0x0D))
  | "upper" => some upper
  | "xdigit" => some (digit || ('a' ≤ c && c ≤ 'f') || ('A' ≤ c && c ≤ 'F'))
  | _ => none

/-- A class behind its opening bracket and colon: whether it has a character, and the rest. -/
def named? (c : Char) (pattern : List Char) : Option (Bool × List Char) :=
  match pattern with
  | ':' :: rest =>
    let name := rest.takeWhile (· != ':')
    match rest.drop name.length with
    | ':' :: ']' :: rest => (inClass? (String.ofList name) c).map (·, rest)
    | _ => none
  | _ => none

/-- The characters and ranges of a bracket up to its end: whether they have a character, and the
rest of the pattern. -/
def bracket? (c : Char) : (fuel : Nat) → (found first : Bool) → List Char →
    Option (Bool × List Char)
  | 0, _, _, _ | _ + 1, _, _, [] => none
  | fuel + 1, found, first, g :: rest =>
    if g = ']' && !first then some (found, rest)
    else match (if g = '[' then named? c rest else none) with
      | some (has, rest) => bracket? c fuel (found || has) false rest
      | none =>
        let (low, rest) := match g, rest with
          | '\x5c', low :: rest => (low, rest)
          | _, _ => (g, rest)
        match rest with
        | '-' :: high :: after =>
          if high = ']' then bracket? c fuel (found || low = c) false rest
          else
            let (high, after) := match high, after with
              | '\x5c', high :: after => (high, after)
              | _, _ => (high, after)
            bracket? c fuel (found || (low ≤ c && c ≤ high)) false after
        | _ => bracket? c fuel (found || low = c) false rest

/-- Whether a pattern describes a whole text. -/
def accepts : (fuel : Nat) → List Char → List Char → Bool
  | 0, _, _ => false
  | _ + 1, [], s => s.isEmpty
  | fuel + 1, '*' :: rest, s =>
    accepts fuel rest s ||
      match s with
      | [] => false
      | _ :: s => accepts fuel ('*' :: rest) s
  | _ + 1, _ :: _, [] => false
  | fuel + 1, '?' :: rest, _ :: s => accepts fuel rest s
  | fuel + 1, '[' :: rest, c :: s =>
    let (negated, body) := match rest with
      | '!' :: body => (true, body)
      | _ => (false, rest)
    match bracket? c (body.length + 1) false true body with
    | some (found, rest) => found != negated && accepts fuel rest s
    | none => c = '[' && accepts fuel rest s
  | fuel + 1, '\x5c' :: g :: rest, c :: s => g = c && accepts fuel rest s
  | fuel + 1, g :: rest, c :: s => g = c && accepts fuel rest s

end Pattern

/-- Whether a pattern describes a whole text. -/
def describes (pattern s : List Char) : Bool :=
  Pattern.accepts (pattern.length + s.length + 1) pattern s

/-- Whether a pattern stands for more than one text: it has a star or a question mark, or a bracket
that is closed. -/
def isPattern : List Char → Bool
  | '\x5c' :: _ :: rest => isPattern rest
  | '*' :: _ | '?' :: _ => true
  | '[' :: '!' :: rest => (rest.drop 1).contains ']' || isPattern rest
  | '[' :: rest => (rest.drop 1).contains ']' || isPattern rest
  | _ :: rest => isPattern rest
  | [] => false

/-- A pattern of one text, without its backslashes. -/
def unescaped : List Char → List Char
  | '\x5c' :: c :: rest => c :: unescaped rest
  | c :: rest => c :: unescaped rest
  | [] => []

/-- A text without the shortest or longest ending that a pattern describes. -/
def withoutEnd (longest : Bool) (pattern s : List Char) : List Char :=
  let cuts := List.range (s.length + 1)
  match (if longest then cuts else cuts.reverse).find? fun n => describes pattern (s.drop n) with
  | some n => s.take n
  | none => s

/-- A text without the shortest or longest beginning that a pattern describes. -/
def withoutStart (longest : Bool) (pattern s : List Char) : List Char :=
  let cuts := List.range (s.length + 1)
  match (if longest then cuts.reverse else cuts).find? fun n => describes pattern (s.take n) with
  | some n => s.drop n
  | none => s

end LangBundle.Shell
