import LangBundle.Shell.Pattern
import LangBundle.Utility.Permissions
import LangBundle.Utility.Version

/-!
# Listing directories

`ls` shows the files that its operands name, and then the directories, each with the names in it.
-/

namespace LangBundle.Utility

open Files (Fault Tree Place Node)
open Process

/-- How names stand on lines. -/
inductive Layout where
  | single
  | commas
  | columns
  | rows
  | long
  deriving Repr, DecidableEq

/-- By what names are ordered. -/
inductive Ordering where
  | name
  | size
  /-- By what stands behind the last point. -/
  | ending
  | version
  /-- By how long names are. -/
  | length
  deriving Repr, DecidableEq

/-- Which nodes have a sign behind their names. -/
inductive Marking where
  | none
  | directories
  /-- All but programs. -/
  | kinds
  | all
  deriving Repr, DecidableEq

/-- How directories are listed. -/
structure ListingStyle where
  layout : Layout := .single
  names : NameStyle := .literal
  /-- Whether names with a dot in front are shown, and the directory itself and the one above. -/
  hidden : Bool := false
  itself : Bool := false
  /-- Patterns of names that are not shown. -/
  ignored : List String := []
  /-- Whether directories are shown like files. -/
  flat : Bool := false
  recursive : Bool := false
  reversed : Bool := false
  order : Ordering := .name
  directoriesFirst : Bool := false
  marking : Marking := .none
  /-- Whether the size of each file stands in front of its name. -/
  sized : Bool := false
  follows : Bool := false
  /-- How long lines may be; nothing if they have no end. -/
  width : Option Nat := some 80

/-- An entry of a listing. -/
structure Entry where
  name : String
  node : Node

namespace ListingStyle

/-- The sign behind a name. -/
def mark (s : ListingStyle) (n : Node) : String :=
  let marksKinds := s.marking = .kinds || s.marking = .all
  match n with
  | .directory _ => if s.marking != .none then "/" else ""
  | .link _ => if marksKinds && s.layout != .long then "@" else ""
  | .pipe .. => if marksKinds then "|" else ""
  | n => if s.marking = .all && n.isExecutable then "*" else ""

/-- The blocks of 1024 bytes that a file takes. -/
def blocks : Node → Nat
  | .file _ _ data => (data.length + 4095) / 4096 * 4
  | .directory _ => 4
  | _ => 0

/-- A name as it is shown, behind a column for its size. -/
def shownName (s : ListingStyle) (column : Nat) (e : Entry) : String :=
  (if s.sized then Utility.column (if s.layout = .commas then 0 else column) (blocks e.node) ++ " "
    else "") ++ s.names.text e.name ++ s.mark e.node

/-! ## Lines -/

/-- Whether a position is still within a line. -/
def isWithin (s : ListingStyle) (position : Nat) : Bool :=
  s.width.all (position < ·)

/-- Names with commas between them. -/
def commas (s : ListingStyle) (names : List String) : String :=
  (names.foldl (fun (state : String × Nat) name =>
    let (text, position) := state
    if text.isEmpty then (name, name.length)
    else if s.isWithin (position + name.length + 2) then
      (text ++ ", " ++ name, position + name.length + 2)
    else (text ++ ",\n" ++ name, name.length)) ("", 0)).1 ++ "\n"

/-- Blanks and tabs from one position to another. -/
def gap : (fuel : Nat) → (first last : Nat) → List Char
  | 0, _, _ => []
  | fuel + 1, first, last =>
    if last ≤ first then []
    else if (first + 1) / 8 < last / 8 then '\t' :: gap fuel (first + 8 - first % 8) last
    else ' ' :: gap fuel (first + 1) last

/-- The column in which a name stands. -/
def columnOf (down : Bool) (count columns i : Nat) : Nat :=
  if down then i / ((count + columns - 1) / columns) else i % columns

/-- The widths of a number of columns; the last one needs no gap behind it. -/
def widths (down : Bool) (names : List String) (columns : Nat) : List Nat :=
  (List.range columns).map fun c =>
    (names.zipIdx.filterMap fun (name, i) =>
      if columnOf down names.length columns i = c then
        some (name.length + if c + 1 = columns then 0 else 2)
      else none).foldl max 3

/-- Names in columns, one below the other or one beside the other. -/
def inColumns (s : ListingStyle) (down : Bool) (names : List String) : String :=
  let most := min names.length ((s.width.map fun width => max 1 (width / 3)).getD names.length)
  let fits (columns : Nat) : Bool := s.isWithin ((widths down names columns).foldl (· + ·) 0)
  let columns := ((List.range most).reverse.map (· + 1)).find? fits |>.getD 1
  let widths := widths down names columns
  let rows := (names.length + columns - 1) / columns
  let line (row : Nat) : String :=
    let cells := (List.range columns).filterMap fun c =>
      names[if down then c * rows + row else row * columns + c]?.map fun name => (name, c)
    let (text, _) := cells.foldl (fun (state : String × Nat) (name, c) =>
      let (text, position) := state
      let start := (widths.take c).foldl (· + ·) 0
      let between := if s.width.isNone then List.replicate (start - position) ' '
        else gap start position start
      (text ++ String.ofList between ++ name, start + name.length)) ("", 0)
    text ++ "\n"
  String.join ((List.range rows).map line)

/-- The letter for the kind of a node. -/
def kindLetter : Node → String
  | .directory _ => "d"
  | .link _ => "l"
  | .pipe .. => "p"
  | .device _ => "c"
  | _ => "-"

/-- The size of a node. -/
def size : Node → Nat
  | .file _ _ data => data.length
  | .directory _ => 4096
  | .link target => target.utf8ByteSize
  | _ => 0

/-- Entries with everything about them. -/
def longLines (s : ListingStyle) (column : Nat) (entries : List Entry) : String :=
  let width := (entries.map fun e => (toString (size e.node)).length).foldl max 1
  String.join (entries.map fun e =>
    (if s.sized then Utility.column column (blocks e.node) ++ " " else "") ++
      kindLetter e.node ++ modeLetters e.node.mode ++ " 1 root root " ++
      Utility.column width (size e.node) ++ " Jan  1  1980 " ++
      ({ s with sized := false } : ListingStyle).shownName 0 e ++ (match e.node with
        | .link target => " -> " ++ Octets.ofText target
        | _ => "") ++ "\n")

/-- Whether more of each entry has to be known than its name and kind. -/
def looks (s : ListingStyle) : Bool :=
  s.layout = .long || s.marking = .all || s.sized || s.order = .size

/-- Entries on lines. -/
def lines (s : ListingStyle) (entries : List Entry) : String :=
  let column := (entries.map fun e => (toString (blocks e.node)).length).foldl max 1
  let names := entries.map (s.shownName column)
  if entries.isEmpty then ""
  else match s.layout with
    | .single => String.join (names.map (· ++ "\n"))
    | .commas => s.commas names
    | .columns => s.inColumns true names
    | .rows => s.inColumns false names
    | .long => s.longLines column entries

/-- What stands from the last point of a name on. -/
def endingOf (name : String) : String :=
  match name.toList.reverse.span (· != '.') with
  | (_, []) => ""
  | (ending, _ :: _) => String.ofList ('.' :: ending.reverse)

/-- Entries in order. -/
def ordered (s : ListingStyle) (entries : List Entry) : List Entry :=
  let sort (le : Entry → Entry → Bool) (entries : List Entry) : List Entry := entries.mergeSort le
  let entries := sort (fun a b => !(b.name < a.name)) entries
  let entries := match s.order with
    | .name => entries
    | .size => sort (fun a b => size b.node ≤ size a.node) entries
    | .ending => sort (fun a b => !(endingOf b.name < endingOf a.name)) entries
    | .version => sort (fun a b => Version.compare (bytes a.name) (bytes b.name) ≤ 0) entries
    | .length => sort (fun a b => (s.names.text a.name).length ≤ (s.names.text b.name).length) entries
  let entries := if s.reversed then entries.reverse else entries
  if s.directoriesFirst then
    entries.filter (·.node.isDirectory) ++ entries.filter (!·.node.isDirectory)
  else entries

/-- Whether a pattern describes a name.  A point in front stands only for itself. -/
def isDescribed (name pattern : String) : Bool :=
  let pattern := pattern.toList.map fun c => if c = '^' then '!' else c
  (!name.startsWith "." || pattern.head? = some '.') && Shell.describes pattern name.toList

/-- Whether a name is shown. -/
def isShown (s : ListingStyle) (name : String) : Bool :=
  (s.hidden || !name.startsWith ".") && !s.ignored.any (isDescribed name)

/-- The entries of a directory. -/
def entriesOf (s : ListingStyle) (t : Tree) (p : Place) : List Entry :=
  let entry (name : String) (p : Place) : Option Entry :=
    (t.get? p).map fun node => { name := Octets.ofText name, node }
  let found := (t.children p).filterMap fun name => entry name (p ++ [name])
  let dots := if s.itself then
      (entry "." p).toList ++ (entry ".." p.dropLast).toList
    else []
  s.ordered ((dots ++ found).filter fun e => s.isShown e.name)

end ListingStyle

/-! ## Directories -/

/-- Shows what is in a directory, and in those below it. -/
def listDirectory (p : Printer) (s : ListingStyle) (titled : Bool) : (fuel : Nat) →
    (isOperand : Bool) → (path : String) → (first : Bool) → Account →
    (Bool → Account → Behaviour) → Behaviour
  | 0, _, _, first, a, k => k first a
  | fuel + 1, isOperand, path, first, a, k =>
    .look fun w =>
      let t := w.tree
      let cwd := p.setting.cwd
      let text := Octets.toText path
      match t.list cwd text, t.directoryAt cwd text with
      | .error fault, _ | _, .error fault =>
        p.fail ("cannot open directory " ++ quoted path ++ ": " ++ fault.description)
          (if isOperand then 2 else 1) a (k first)
      | .ok _, .ok place =>
        let entries := s.entriesOf t place
        let hidden := if s.looks && !(t.get? place).any (·.allows .execute) then entries else []
        let total := if s.layout = .long || s.sized then
            "total " ++ toString ((entries.map fun e => ListingStyle.blocks e.node).foldl (· + ·) 0) ++ "\n"
          else ""
        let title := (if first then "" else "\n") ++ if titled then s.names.text path ++ ":\n" else ""
        forEach (fun (e : Entry) a k =>
            p.fail ("cannot access " ++ quoted (pathIn path e.name) ++ ": " ++
              Fault.permissionDenied.description) 1 a k) hidden a fun a =>
        p.tell (title ++ total ++ s.lines (if hidden.isEmpty then entries else
            entries.map fun e => { e with node := .device .null })) a fun a =>
          let inner := if s.recursive then entries.filter fun e =>
              e.node.isDirectory && e.name != "." && e.name != ".."
            else []
          forEach (fun (e : Entry) a k =>
            listDirectory p s titled fuel false (pathIn path e.name) false a fun _ a => k a)
            inner a (k false)

/-- The options of `ls`. -/
def lsChoices : List Choice :=
  [⟨'a', "all", .no⟩, ⟨'A', "almost-all", .no⟩, ⟨'1', "", .no⟩, ⟨'d', "directory", .no⟩,
    ⟨'R', "recursive", .no⟩, ⟨'r', "reverse", .no⟩, ⟨'F', "classify", .maybe⟩, ⟨'p', "", .no⟩,
    ⟨'m', "", .no⟩, ⟨'C', "", .no⟩, ⟨'x', "", .no⟩, ⟨'l', "", .no⟩,
    ⟨'n', "numeric-uid-gid", .no⟩, ⟨'g', "", .no⟩, ⟨'o', "", .no⟩, ⟨'S', "", .no⟩, ⟨'t', "", .no⟩,
    ⟨'U', "", .no⟩, ⟨'X', "", .no⟩, ⟨'v', "", .no⟩, ⟨'f', "", .no⟩, ⟨'h', "human-readable", .no⟩,
    ⟨'i', "inode", .no⟩, ⟨'s', "size", .no⟩, ⟨'k', "kibibytes", .no⟩,
    ⟨'q', "hide-control-chars", .no⟩, ⟨'\x0b', "show-control-chars", .no⟩, ⟨'N', "literal", .no⟩,
    ⟨'b', "escape", .no⟩, ⟨'Q', "quote-name", .no⟩, ⟨'\x02', "quoting-style", .yes⟩,
    ⟨'L', "dereference", .no⟩, ⟨'H', "dereference-command-line", .no⟩,
    ⟨'B', "ignore-backups", .no⟩, ⟨'G', "no-group", .no⟩, ⟨'c', "", .no⟩, ⟨'u', "", .no⟩,
    ⟨'w', "width", .yes⟩, ⟨'I', "ignore", .yes⟩, ⟨'\x03', "hide", .yes⟩, ⟨'T', "tabsize", .yes⟩,
    ⟨'D', "dired", .no⟩, ⟨'Z', "context", .no⟩, ⟨'\x00', "color", .maybe⟩,
    ⟨'\x01', "group-directories-first", .no⟩, ⟨'\x04', "sort", .yes⟩, ⟨'\x05', "format", .yes⟩,
    ⟨'\x06', "indicator-style", .yes⟩, ⟨'\x07', "file-type", .no⟩, ⟨'\x08', "full-time", .no⟩]

/-- The words for layouts, and their letters. -/
def layoutWords : List (Wording Char) :=
  [⟨["verbose", "long"], 'l'⟩, ⟨["commas"], 'm'⟩, ⟨["horizontal", "across"], 'x'⟩,
    ⟨["vertical"], 'C'⟩, ⟨["single-column"], '1'⟩]

/-- The words for orders, and their letters. -/
def orderWords : List (Wording Char) :=
  [⟨["none"], 'U'⟩, ⟨["time"], 't'⟩, ⟨["size"], 'S'⟩, ⟨["extension"], 'X'⟩, ⟨["version"], 'v'⟩,
    ⟨["width"], '\x09'⟩]

/-- The words for signs behind names, and their letters. -/
def markWords : List (Wording Char) :=
  [⟨["none"], '\x0a'⟩, ⟨["slash"], 'p'⟩, ⟨["file-type"], '\x07'⟩, ⟨["classify"], 'F'⟩]

/-- The words for when something is done that a terminal needs. -/
def whenWords : List (Wording Bool) :=
  [⟨["always", "yes", "force"], true⟩, ⟨["never", "no", "none"], false⟩,
    ⟨["auto", "tty", "if-tty"], false⟩]

/-- The words for how names stand. -/
def nameWords : List (Wording NameStyle) :=
  [⟨["literal"], .literal⟩, ⟨["shell"], .shell false false⟩, ⟨["shell-always"], .shell false true⟩,
    ⟨["shell-escape"], .shell true false⟩, ⟨["shell-escape-always"], .shell true true⟩,
    ⟨["c"], .double true⟩, ⟨["c-maybe"], .double false⟩, ⟨["escape"], .escape⟩,
    ⟨["locale"], .single⟩, ⟨["clocale"], .double true⟩]

/-- Options with the letter of each word, where there is one. -/
def letteredOptions (a : Arguments) : Except String Arguments := do
  let options ← a.options.mapM fun (letter, text) => do
    match letter with
    | '\x04' => return (← worded orderWords "--sort" text, "")
    | '\x05' => return (← worded layoutWords "--format" text, "")
    | '\x06' => return (← worded markWords "--indicator-style" text, "")
    | 'F' =>
      if text.isEmpty then return ('F', "")
      else return (if ← worded whenWords "--classify" text then 'F' else '\x0a', "")
    | '\x00' =>
      if !text.isEmpty then let _ ← worded whenWords "--color" text
      return (letter, text)
    | _ => return (letter, text)
  return { a with options }

/-- How names stand as options ask for it. -/
def nameStyleOf (a : Arguments) : Except String NameStyle := do
  let style ← a.options.foldlM (fun style (letter, text) => match letter with
    | 'N' => .ok .literal
    | 'Q' => .ok (.double true)
    | 'b' => .ok .escape
    | '\x02' => worded nameWords "--quoting-style" text
    | _ => .ok style) NameStyle.literal
  return if style = .literal && a.last? ['q', '\x0b'] = some 'q' then .masked else style

/-- The style that options ask for. -/
def styleOf (a : Arguments) : Except String ListingStyle := do
  let names ← nameStyleOf a
  let a ← letteredOptions a
  let ignored := a.values 'I' ++ (if a.has 'B' then ["*~", ".*~"] else []) ++
    if ['a', 'A'].any a.has then [] else a.values '\x03'
  return {
    names, ignored
    layout := match a.last? ['1', 'm', 'C', 'x', 'l', 'n', 'g', 'o', '\x08'] with
      | some 'm' => .commas
      | some 'C' => .columns
      | some 'x' => .rows
      | some '1' => if ['l', 'n', 'g', 'o', '\x08'].any a.has then .long else .single
      | some _ => .long
      | none => .single
    hidden := ['a', 'A', 'f'].any a.has, itself := (a.last? ['a', 'A', 'f']).any (· != 'A')
    flat := a.has 'd', recursive := a.has 'R' && !a.has 'd', reversed := a.has 'r'
    order := match a.last? ['S', 't', 'U', 'X', 'v', 'f', '\x09'] with
      | some 'S' => .size
      | some 'X' => .ending
      | some 'v' => .version
      | some '\x09' => .length
      | _ => .name
    directoriesFirst := a.has '\x01', sized := a.has 's', follows := a.has 'L'
    marking := match a.last? ['F', 'p', '\x07', '\x0a'] with
      | some 'F' => .all
      | some 'p' => .directories
      | some '\x07' => .kinds
      | _ => .none }

/-- How long lines may be, as options say; nothing if they have no end. -/
def widthOf (a : Arguments) : Except String (Option Nat) :=
  (a.values 'w').foldlM (fun _ text => match Text.decimal? text.toList with
    | some 0 => .ok none
    | some n => .ok (some n)
    | none => .error ("invalid line width: " ++ quoted text)) (some 80)

/-- Shows files and directories. -/
def ls : Program := fun s name args =>
  withArguments s name 2 lsChoices args fun a => match styleOf a, widthOf a with
  | .error text, _ => misused s name text 1
  | _, .error text => complain s name text (exit 2)
  | .ok style, .ok width =>
    let p : Printer := { setting := s, name, failed := 2 }
    let style := { style with width }
    let operands := if a.operands.isEmpty && style.flat then ["."] else a.operands
    let follows := style.follows ||
      !(style.layout = .long || style.marking = .all || style.flat) || a.has 'H'
    let look (operand : String) (state : List Entry × Account)
        (k : List Entry × Account → Behaviour) : Behaviour :=
      .look fun w =>
        let path := Octets.toText operand
        let node : Except Fault Node := match w.tree.stat s.cwd path with
          | .ok n =>
            if style.follows || a.has 'H' || path.endsWith "/" || follows && n.isDirectory then .ok n
            else w.tree.lstat s.cwd path
          | .error _ => w.tree.lstat s.cwd path
        match node with
        | .ok node => k ({ name := operand, node } :: state.1, state.2)
        | .error fault =>
          p.fail ("cannot access " ++ quoted operand ++ ": " ++ fault.description) 2 state.2
            fun acc => k (state.1, acc)
    let here : List Entry := if operands.isEmpty then [{ name := ".", node := .directory 0 }] else []
    forEach look operands (here, {}) fun (found, acc) =>
      let isListed (e : Entry) : Bool := e.node.isDirectory && !style.flat
      let found := style.ordered found.reverse
      let files := found.filter fun e => !isListed e
      let directories := found.filter isListed
      let titled := style.recursive || 1 < operands.length
      p.tell (style.lines files) acc fun acc =>
        forEach (fun (e : Entry) (state : Bool × Account) k =>
            listDirectory p style titled deepest true e.name state.1 state.2 fun first acc =>
              k (first, acc))
          directories (files.isEmpty, acc) fun (_, acc) => p.finish acc.told acc.code

end LangBundle.Utility
