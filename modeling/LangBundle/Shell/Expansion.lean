import LangBundle.Shell.Arithmetic
import LangBundle.Shell.Pattern

/-!
# Expansion of words

A word becomes a row of glyphs: parameters are replaced by their values, commands by their outputs
and expressions by theirs.  Where a word may become several fields, the glyphs are then divided at
those that may divide, and a field that is a pattern is replaced by the paths that it describes.
-/

namespace LangBundle.Shell

open Files (Tree Place)
open Process

namespace Expansion

/-! ## Parameters -/

/-- The glyphs of a text. -/
def glyphs (quoted divides : Bool) (text : String) : List Glyph :=
  text.toList.map (.char · quoted divides)

/-- The glyphs of all arguments: fields of their own where a word becomes fields, and otherwise
joined by the first separator. -/
def allParams (e : Env) (fields quoted apart : Bool) : List Glyph :=
  let texts := e.params.map (glyphs quoted (!quoted))
  let join (between : List Glyph) (rows : List (List Glyph)) : List Glyph :=
    (rows.intersperse between).flatten
  if fields && !quoted then join [.cut false] texts
  else if fields && apart then join [.cut true] (texts.map (· ++ [.mark]))
  else match e.value? "IFS" with
    | none => join [.char ' ' quoted false] texts
    | some ifs => join (ifs.toList.take 1 |>.map (.char · quoted false)) texts

/-- The value of a parameter, if it has one. -/
def param? (e : Env) (fields quoted : Bool) (name : String) : Option (List Glyph) :=
  let text (s : String) : Option (List Glyph) := some (glyphs quoted (!quoted) s)
  match name with
  | "@" => some (allParams e fields quoted true)
  | "*" => some (allParams e fields quoted false)
  | "#" => text (toString e.params.length)
  | "?" => text (toString e.status)
  | "$" => text (toString e.number)
  | "!" => e.background.bind fun n => text (toString n)
  | "-" => text (String.ofList (['u', 'b', 'a', 'C', 'E', 'V', 'v', 'x', 's', 'n', 'm', 'i', 'I',
      'f', 'e'].filter e.has))
  | "0" => text e.name
  | _ => match Text.decimal? name.toList with
    | some n => (e.params[n - 1]?).bind text
    | none => (e.value? name).bind text

/-- How many characters a value has, ends of fields included. -/
def lengthOf (gs : List Glyph) : Nat :=
  gs.countP fun g => g != .mark && g != .edge

/-- Whether a value is missing, or also empty. -/
def isMissing (colon : Bool) : Option (List Glyph) → Bool
  | none => true
  | some gs => colon && lengthOf gs = 0

/-- Changes the text of glyphs. -/
def reshape (quoted : Bool) (f : List Char → List Char) (gs : List Glyph) : List Glyph :=
  let cs := gs.filterMap fun
    | .char c _ _ => some c
    | .cut _ => some '\x00'
    | .mark | .edge => none
  (f cs).map fun c => if c = '\x00' then .cut false else .char c quoted (!quoted)

/-! ## Home directories -/

/-- The home directory that a name behind a tilde means. -/
def home? (e : Env) (name : List Char) : Option String :=
  if name.isEmpty then e.value? "HOME"
  else if name = "root".toList then some "/root"
  else none

/-- Replaces a tilde and a name at the beginning of a text by a home directory.  The name ends at a
slash, in a list of paths also at a colon; `isEnd` says that nothing stands behind the text. -/
def homeAt (e : Env) (isList isEnd : Bool) (cs : List Char) : Option (List Char × List Char) :=
  match cs with
  | '~' :: rest =>
    let name := rest.takeWhile fun c => c != '/' && !(isList && c == ':')
    let behind := rest.drop name.length
    if behind.isEmpty && !isEnd then none
    else (home? e name).map fun home => (home.toList, behind)
  | _ => none

/-- The parts of a text of an assignment: behind the equals sign and behind colons a tilde may
stand. -/
def homesIn (e : Env) (isEnd : Bool) : (fuel : Nat) → (begins : Bool) → List Char → Word
  | 0, _, cs => [.text cs false]
  | fuel + 1, begins, cs =>
    match (if begins then homeAt e true isEnd cs else none) with
    | some (home, behind) => .text home true :: homesIn e isEnd fuel false behind
    | none =>
      let (before, behind) := (cs.takeWhile (· != ':'), cs.dropWhile (· != ':'))
      match behind with
      | [] => [.text before false]
      | colon :: rest => .text (before ++ [colon]) false :: homesIn e isEnd fuel true rest

/-- The word with home directories in place of tildes. -/
def withHome (e : Env) (isAssignment : Bool) : Word → Word
  | .text cs false :: rest =>
    if isAssignment then
      let name := cs.takeWhile (· != '=')
      let value := cs.drop (name.length + 1)
      if value.length + name.length < cs.length then
        .text (name ++ ['=']) false ::
          homesIn e rest.isEmpty (value.length + 1) true value ++ rest
      else .text cs false :: rest
    else match homeAt e false rest.isEmpty cs with
      | some (home, behind) => .text home true :: .text behind false :: rest
      | none => .text cs false :: rest
  | w => w

/-! ## Parts of words -/

/-- What the expansion of a word needs. -/
structure Context where
  /-- Takes the output of a command. -/
  output : Command → Env → (String → Rest) → Behaviour
  exits : Exits
  /-- Whether the word becomes fields. -/
  fields : Bool := false
  /-- Whether also what stands in the word itself may divide it. -/
  divides : Bool := false

/-- Leaves the commands unfinished because of a parameter. -/
def unset (c : Context) (e : Env) (name text : String) : Behaviour :=
  e.fault (name ++ ": " ++ text) c.exits

/-- The value of a parameter that has to be there if the shell says so. -/
def required (c : Context) (quoted : Bool) (name : String) (e : Env)
    (k : Option (List Glyph) → Behaviour) : Behaviour :=
  match param? e c.fields quoted name with
  | some gs => k (some gs)
  | none => if e.has 'u' then unset c e name "parameter not set" else k none

/-- The tilde of a pattern or another word is replaced while it is expanded. -/
def startsHome (e : Env) (quoted : Bool) (w : Word) : Option (List Char × Part × List Part) :=
  match quoted, w with
  | false, .text cs false :: rest =>
    (homeAt e false rest.isEmpty cs).map fun (home, behind) => (home, .text behind false, rest)
  | _, _ => none

/-- Goes on with a value of its own. -/
def edged (quoted : Bool) (k : List Glyph → Rest) (gs : List Glyph) : Rest :=
  k (if quoted then gs else .edge :: gs)

mutual

/-- The glyphs of a part of a word. -/
def part (c : Context) : Part → Env → (List Glyph → Rest) → Behaviour
  | .text cs quoted, e, k => k (cs.map (.char · quoted (c.divides && !quoted))) e
  | .mark, e, k => k [.mark] e
  | .param name how quoted, e, k => use c name quoted how e (edged quoted k)
  | .arithmetic expression quoted, e, k =>
    parts { c with fields := false, divides := false } expression e fun gs e =>
      match e.calculate (Glyph.text gs) with
      | .ok (n, e) => edged quoted k (glyphs quoted (!quoted) (toString n)) e
      | .error text => e.fault text c.exits
  | .output command quoted, e, k =>
    c.output command e fun text => edged quoted k (glyphs quoted (!quoted) text)

/-- The glyphs of the parts of a word. -/
def parts (c : Context) : List Part → Env → (List Glyph → Rest) → Behaviour
  | [], e, k => k [] e
  | p :: rest, e, k =>
    part c p e fun gs e => parts c rest e fun more => k (gs ++ more)

/-- The glyphs of a parameter's use. -/
def use (c : Context) (name : String) (quoted : Bool) : Use → Env → (List Glyph → Rest) → Behaviour
  | .value, e, k => required c quoted name e fun value => k (value.getD []) e
  | .length, e, k =>
    required c quoted name e fun value =>
      k (glyphs quoted (!quoted) (toString (lengthOf (value.getD [])))) e
  | .orElse colon word, e, k =>
    match param? e c.fields quoted name with
    | some gs =>
      if isMissing colon (some gs) then other c quoted word e k else k gs e
    | none => other c quoted word e k
  | .orAssign colon word, e, k =>
    let value := param? e c.fields quoted name
    if isMissing colon value then
      other { c with fields := false } quoted word e fun gs e =>
        if Reader.isName name.toList then
          e.assignOr c.exits name (Glyph.text gs) fun e =>
            k ((param? e c.fields quoted name).getD []) e
        else unset c e name "bad variable name"
    else k (value.getD []) e
  | .alternative colon word, e, k =>
    if isMissing colon (param? e c.fields quoted name) then k [] e else other c quoted word e k
  | .required colon word, e, k =>
    let value := param? e c.fields quoted name
    if isMissing colon value then
      match word with
      | [] =>
        unset c e name ("parameter not set" ++ if colon then " or null" else "")
      | word => other { c with fields := false } quoted word e fun gs e =>
        unset c e name (Glyph.text gs)
    else k (value.getD []) e
  | .dropEnd longest pattern, e, k =>
    required c quoted name e fun value => match value with
      | some gs => other { c with fields := false, divides := false } false pattern e fun p =>
        k (reshape quoted (withoutEnd longest (Glyph.pattern p)) gs)
      | none => k [] e
  | .dropStart longest pattern, e, k =>
    required c quoted name e fun value => match value with
      | some gs => other { c with fields := false, divides := false } false pattern e fun p =>
        k (reshape quoted (withoutStart longest (Glyph.pattern p)) gs)
      | none => k [] e
  | .unknown, e, _ => e.fault "Bad substitution" c.exits

/-- The glyphs of a word within a parameter's use. -/
def other (c : Context) (quoted : Bool) : List Part → Env → (List Glyph → Rest) → Behaviour
  | [], e, k => k [] e
  | p :: rest, e, k =>
    let c := { c with divides := c.fields && !quoted }
    match startsHome e quoted (p :: rest) with
    | some (home, behind, _) =>
      let gs : List Glyph := home.map (.char · true false) ++ match behind with
        | .text cs _ => cs.map (.char · false c.divides)
        | _ => []
      parts c rest e fun more => k (gs ++ more)
    | none => part c p e fun gs e => parts c rest e fun more => k (gs ++ more)

end

/-! ## Fields -/

/-- How a glyph divides fields. -/
inductive Role where
  | inside
  /-- Several in a row, and those around a separator, count once. -/
  | blank
  | separator
  /-- The end of a field, also of an empty one. -/
  | ending
  deriving Repr, DecidableEq

/-- How a glyph divides fields. -/
def roleOf (separators : List Char) : Glyph → Role
  | .char c _ true =>
    if !separators.contains c then .inside
    else if c = ' ' || c = '\t' || c = '\n' then .blank
    else .separator
  | .cut true => .ending
  | .cut false => .blank
  | _ => .inside

/-- The fields of glyphs.  `field` is the field so far, its newest glyph first, and `skips` says that
blanks ended the field before. -/
def divide (separators : List Char) : (field : List Glyph) → (skips : Bool) → List Glyph →
    List (List Glyph)
  | field, _, [] => if field.isEmpty then [] else [field.reverse]
  | field, skips, g :: rest =>
    match roleOf separators g with
    | .inside => divide separators (if g = .edge then field else g :: field) false rest
    | .blank =>
      if skips then divide separators field true rest
      else if field.isEmpty then divide separators [] false rest
      else field.reverse :: divide separators [] true rest
    | .separator =>
      if skips then divide separators field false rest
      else field.reverse :: divide separators [] false rest
    | .ending => field.reverse :: divide separators [] false rest

/-! ## Paths -/

/-- The paths that a row of patterns between slashes describes, behind the path `base`. -/
def paths (t : Tree) (cwd : Place) (base : String) : List (List Char) → List String
  | [] => []
  | [[]] => if (t.lstat cwd (Octets.toText base)).isOk then [base] else []
  | pattern :: rest =>
    let more (path : String) : List String :=
      if rest.isEmpty then [path] else paths t cwd (path ++ "/") rest
    let there (path : String) : Bool := (t.lstat cwd (Octets.toText path)).isOk
    if isPattern pattern then
      let directory := if base.isEmpty then "." else Octets.toText base
      let hidden := (unescaped pattern).head? = some '.'
      let names := (t.list cwd directory).toOption.getD []
      let names := (if hidden then [".", ".."] else []) ++ names.map Octets.ofText
      let found := names.filter fun name =>
        (hidden || name.toList.head? != some '.') && describes pattern name.toList
      found.flatMap fun name => more (base ++ name)
    else
      let path := base ++ String.ofList (unescaped pattern)
      if rest.isEmpty then if there path then [path] else []
      else if path.isEmpty then more path
      else if there path then more path else []

/-- The texts that a field stands for: the paths that it describes, or itself. -/
def pathsOf (t : Tree) (cwd : Place) (field : List Glyph) : List String :=
  let pattern := Glyph.pattern field
  match paths t cwd "" (Text.piecesAt (· == '/') pattern) with
  | [] => [Glyph.text field]
  | found => found.mergeSort fun a b => !(b < a)

end Expansion

open Expansion (Context)

/-- The glyphs of a word. -/
def Word.glyphs (w : Word) (c : Context) (isAssignment : Bool) (e : Env)
    (k : List Glyph → Rest) : Behaviour :=
  Expansion.parts c (Expansion.withHome e isAssignment w) e k

/-- The text of a word that is one field. -/
def Word.expandText (w : Word) (c : Context) (e : Env) (k : String → Rest) : Behaviour :=
  w.glyphs { c with fields := false } false e fun gs => k (Glyph.text gs)

/-- The text of a word that assigns. -/
def Word.expandAssignment (w : Word) (c : Context) (e : Env) (k : String → Rest) : Behaviour :=
  w.glyphs { c with fields := false } true e fun gs => k (Glyph.text gs)

/-- The pattern of a word. -/
def Word.expandPattern (w : Word) (c : Context) (e : Env) (k : List Char → Rest) : Behaviour :=
  w.glyphs { c with fields := false } false e fun gs => k (Glyph.pattern gs)

/-- The fields of a word. -/
def Word.expandFields (w : Word) (c : Context) (e : Env) (k : List String → Rest) : Behaviour :=
  w.glyphs { c with fields := true } false e fun gs e =>
    let fields := Expansion.divide e.separators [] false gs
    if e.has 'f' || fields.all fun f => !isPattern (Glyph.pattern f) then
      k (fields.map Glyph.text) e
    else .look fun w =>
      k (fields.flatMap fun f =>
        if isPattern (Glyph.pattern f) then Expansion.pathsOf w.tree e.setting.cwd f
        else [Glyph.text f]) e

/-- Whether the value of a variable may stand in the word: it begins like an assignment. -/
def Word.isAssignment (w : Word) : Bool :=
  Reader.isAssignment w

end LangBundle.Shell
