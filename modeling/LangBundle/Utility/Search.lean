import LangBundle.Utility.PatternReading
import LangBundle.Utility.Stream

/-!
# Searching lines

`grep` reads its inputs line by line and prints those in which a pattern is found, with lines around
them if these are wanted.  It reads no more than it needs: where one line is enough, it stops there.
-/

namespace LangBundle.Utility

open Files (Fault)
open Process Text

/-- What is printed of the lines that are found. -/
inductive Report where
  | lines
  | count
  | names
  /-- The names of files in which nothing is found. -/
  | otherNames
  | nothing
  deriving Repr, DecidableEq

/-- How inputs are searched. -/
structure Search where
  pattern : LinePattern
  folds : Bool := false
  inverted : Bool := false
  words : Bool := false
  whole : Bool := false
  report : Report := .lines
  /-- Whether only what is found of a line is printed. -/
  onlyParts : Bool := false
  numbered : Bool := false
  offsets : Bool := false
  /-- How many lines are found at most in one input. -/
  most : Option Nat := none
  /-- How many lines around those that are found are printed. -/
  context : Option (Nat × Nat) := none
  separator : Option String := some "--"
  /-- Whether zero bytes are nothing special. -/
  asText : Bool := false
  ending : UInt8 := newline
  /-- Whether nothing is said about inputs that cannot be read. -/
  silent : Bool := false
  nulAfterNames : Bool := false

namespace Search

/-- Whether a match between two positions is one that is wanted. -/
def isWanted (s : Search) (line : Searched) (first last : Nat) : Bool :=
  (!s.words || !line.isWordBefore first && !line.isWordAt last) &&
    (!s.whole || first == 0 && last == line.line.size)

/-- Whether a pattern is found in a line. -/
def isIn (s : Search) (line : Searched) : Bool :=
  if s.whole then s.pattern.isWhole line
  else if s.words then
    (s.pattern.first? line (s.isWanted line) (line.line.size + 1) 0).isSome
  else s.pattern.isFound line

/-- The parts of a line where a pattern is found from a position on, none of them empty. -/
def parts (s : Search) (line : Searched) : (fuel : Nat) → (position : Nat) → List (Nat × Nat)
  | 0, _ => []
  | fuel + 1, position =>
    match s.pattern.first? line (s.isWanted line) (line.line.size + 1) position with
    | none => []
    | some (first, last) =>
      if first = last then parts s line fuel (last + 1)
      else (first, last) :: parts s line fuel last

end Search

/-! ## One input -/

/-- Where the search of one input is. -/
structure Found where
  lines : Nat := 0
  offset : Nat := 0
  /-- How many lines were found. -/
  count : Nat := 0
  /-- The lines before this one that were not printed, the newest first, each with its number and
  its offset. -/
  before : List (Nat × Nat × Bytes) := []
  /-- How many more lines are printed because of one that was found. -/
  after : Nat := 0
  lastPrinted : Nat := 0
  /-- Whether anything was printed, also of inputs before this one. -/
  printed : Bool := false
  /-- Whether a zero byte was read. -/
  binary : Bool := false
  /-- How many bytes were read. -/
  read : Nat := 0
  /-- The offset behind the last line that was found. -/
  lastEnd : Nat := 0

namespace Found

/-- What stands in front of a line. -/
def label (s : Search) (name : Option String) (sign : String) (number offset : Nat) : Bytes :=
  bytes ((match name with
    | some name => name ++ if s.nulAfterNames then "\x00" else sign
    | none => "") ++ (if s.numbered then toString number ++ sign else "") ++
      if s.offsets then toString offset ++ sign else "")

/-- Prints one line. -/
def printLine (s : Search) (name : Option String) (sign : String) (f : Found)
    (line : Nat × Nat × Bytes) : Found × Bytes :=
  let (number, offset, data) := line
  let gap := s.context.isSome && f.printed && number != f.lastPrinted + 1
  ({ f with lastPrinted := number, printed := true },
    (match s.separator with
      | some text => if gap then bytes (text ++ "\n") else []
      | none => []) ++ label s name sign number offset ++ data ++ [s.ending])

/-- Prints several lines. -/
def printLines (s : Search) (name : Option String) (sign : String) (f : Found)
    (lines : List (Nat × Nat × Bytes)) : Found × Bytes :=
  lines.foldl (fun (f, output) line =>
    let (f, piece) := f.printLine s name sign line
    (f, output ++ piece)) (f, [])

/-- Prints a line that was found, or the parts of it that were. -/
def printFound (s : Search) (name : Option String) (f : Found) (text : Searched)
    (line : Nat × Nat × Bytes) : Found × Bytes :=
  if s.onlyParts then
    let (number, offset, data) := line
    if s.inverted then (f, [])
    else
      let pieces := (s.parts text (data.length + 2) 0).map fun (first, last) =>
        label s name ":" number (offset + first) ++ (data.drop first).take (last - first) ++
          [s.ending]
      (f, pieces.flatten)
  else f.printLine s name ":" line

/-- Whether nothing more is read. -/
def isDone (s : Search) (f : Found) : Bool :=
  match s.report with
  | .nothing | .names | .otherNames => 0 < f.count
  | _ => (match s.most with
      | some n => n ≤ f.count && f.after = 0
      | none => false) || (f.binary && 0 < f.count && s.report = .lines)

/-- Takes one line. -/
def take (s : Search) (name : Option String) (f : Found) (data : Bytes) : Found × Bytes :=
  if f.isDone s then (f, [])
  else
    let number := f.lines + 1
    let line := (number, f.offset, data)
    let text : Searched := ⟨(data.map fun b => Char.ofNat b.toNat).toArray, s.folds⟩
    let behind := f.offset + data.length + 1
    let f := { f with lines := number, offset := behind }
    let prints := s.report = .lines && !f.binary
    let full := match s.most with
      | some n => n ≤ f.count
      | none => false
    if !full && s.isIn text != s.inverted then
      let f := { f with count := f.count + 1, lastEnd := behind }
      if !prints then (f, [])
      else
        let (before, after) := s.context.getD (0, 0)
        let (f, first) := if s.onlyParts then (f, [])
          else f.printLines s name "-" (f.before.take before).reverse
        let (f, second) := f.printFound s name text line
        ({ f with before := [], after }, first ++ second)
    else if !prints then (f, [])
    else if 0 < f.after then
      let f := { f with after := f.after - 1 }
      if s.onlyParts then (f, []) else f.printLine s name "-" line
    else ({ f with before := (line :: f.before).take ((s.context.getD (0, 0)).1) }, [])

end Found

/-- What is made of a piece of an input. -/
def searchStep (s : Search) (name : Option String) (state : Found × Bytes) (data : Bytes) :
    Step (Found × Bytes) :=
  let (f, kept) := state
  let f := { f with
    binary := f.binary || !s.asText && s.ending != 0 && data.contains 0
    read := f.read + data.length }
  let (lines, rest) := takeLines (kept ++ data) s.ending
  let (f, pieces) := lines.foldl (fun (f, pieces) line =>
    let (f, piece) := f.take s name line.dropLast
    (f, piece :: pieces)) (f, ([] : List Bytes))
  { state := (f, rest), output := pieces.reverse.flatten, stops := f.isDone s }

/-- What the whole search has found out. -/
structure Outcome where
  found : Bool := false
  failed : Bool := false
  /-- Whether anything was printed. -/
  printed : Bool := false

/-- The code that says how a search ended. -/
def Outcome.code (o : Outcome) (quiet : Bool) : Nat :=
  if o.found && quiet then 0 else if o.failed then 2 else if o.found then 0 else 1

/-- Searches one stream. -/
def searchStream (p : Printer) (s : Search) (title : String) (name : Option String)
    (stream : Option Stream) (o : Outcome) (b : Buffer) (k : Outcome → Buffer → Behaviour) :
    Behaviour :=
  let finish (result : Except Fault Unit) (state : Found × Bytes) (b : Buffer) : Behaviour :=
    let (f, rest) := state
    let (f, output) := if rest.isEmpty then (f, []) else f.take s name rest
    let label := match name with
      | some name => name ++ if s.nulAfterNames then "\x00" else ":"
      | none => ""
    let behind := title ++ if s.nulAfterNames then "\x00" else "\n"
    let summary := match s.report with
      | .count => bytes (label ++ toString f.count ++ "\n")
      | .names => if 0 < f.count then bytes behind else []
      | .otherNames => if f.count = 0 then bytes behind else []
      | .lines | .nothing => []
    let o : Outcome :=
      { o with found := o.found || 0 < f.count, printed := o.printed || f.printed }
    let next (b : Buffer) : Behaviour :=
      if f.binary && 0 < f.count && s.report = .lines then
        p.complain b (shown title ++ ": binary file matches") (k o)
      else k o b
    let isFull : Bool := match s.most with
      | some n => n ≤ f.count
      | none => false
    let last (b : Buffer) : Behaviour := p.print (output ++ summary) b fun b =>
      -- What is behind the last line that was wanted is left for others.
      match stream with
      | some (.file number) =>
        if isFull then .act (·.rewind number (f.read - f.lastEnd)) fun _ => next b else next b
      | _ => next b
    match result with
    | .ok () => last b
    | .error fault =>
      if s.silent then k { o with failed := true } b
      else p.complain b (shown title ++ ": " ++ fault.description)
        fun b => k { o with failed := true } b
  if s.most = some 0 then k o b
  else pump p stream (searchStep s name) finish endlessPieces ({ printed := o.printed }, []) b

/-! ## Many inputs -/

/-- The files below a directory, each under its path, and the directories that cannot be read. -/
def filesBelow (t : Files.Tree) (cwd : Files.Place) : (fuel : Nat) → (path : String) →
    List (String × Option Fault)
  | 0, _ => []
  | fuel + 1, path =>
    match t.list cwd path with
    | .error fault => [(path, some fault)]
    | .ok names => names.flatMap fun name =>
      let below := if path.endsWith "/" then path ++ name else path ++ "/" ++ name
      match t.lstat cwd below with
      | .ok (.directory _) => filesBelow t cwd fuel below
      | .ok (.file ..) => [(below, none)]
      | _ => []

/-- The inputs that an operand names: their paths, and whether they show their names. -/
def inputsOf (s : Setting) (w : World) (recursive : Bool) (operand : String) :
    List (String × Bool × Option Fault) :=
  let path := Octets.toText operand
  if recursive && operand != "-" && w.tree.isDirectory s.cwd path then
    (filesBelow w.tree s.cwd 64 path).map fun (below, fault) => (Octets.ofText below, true, fault)
  else [(operand, false, none)]

/-- The options of `grep`. -/
def grepChoices : List Choice :=
  [⟨'E', "extended-regexp", .no⟩, ⟨'F', "fixed-strings", .no⟩, ⟨'G', "basic-regexp", .no⟩,
    ⟨'P', "perl-regexp", .no⟩, ⟨'e', "regexp", .yes⟩, ⟨'f', "file", .yes⟩,
    ⟨'i', "ignore-case", .no⟩, ⟨'y', "", .no⟩, ⟨'\x01', "no-ignore-case", .no⟩,
    ⟨'w', "word-regexp", .no⟩, ⟨'x', "line-regexp", .no⟩, ⟨'z', "null-data", .no⟩,
    ⟨'s', "no-messages", .no⟩, ⟨'v', "invert-match", .no⟩, ⟨'m', "max-count", .yes⟩,
    ⟨'b', "byte-offset", .no⟩, ⟨'n', "line-number", .no⟩, ⟨'\x02', "line-buffered", .no⟩,
    ⟨'H', "with-filename", .no⟩, ⟨'h', "no-filename", .no⟩, ⟨'\x03', "label", .yes⟩,
    ⟨'o', "only-matching", .no⟩, ⟨'q', "quiet", .no⟩, ⟨'q', "silent", .no⟩,
    ⟨'a', "text", .no⟩, ⟨'I', "", .no⟩, ⟨'\x04', "binary-files", .yes⟩,
    ⟨'d', "directories", .yes⟩, ⟨'D', "devices", .yes⟩, ⟨'r', "recursive", .no⟩,
    ⟨'R', "dereference-recursive", .no⟩, ⟨'L', "files-without-match", .no⟩,
    ⟨'l', "files-with-matches", .no⟩, ⟨'c', "count", .no⟩, ⟨'T', "initial-tab", .no⟩,
    ⟨'Z', "null", .no⟩, ⟨'A', "after-context", .yes⟩, ⟨'B', "before-context", .yes⟩,
    ⟨'C', "context", .yes⟩, ⟨'\x05', "color", .maybe⟩, ⟨'\x05', "colour", .maybe⟩,
    ⟨'U', "binary", .no⟩, ⟨'\x06', "no-group-separator", .no⟩,
    ⟨'\x07', "group-separator", .yes⟩] ++
    ['0', '1', '2', '3', '4', '5', '6', '7', '8', '9'].map fun c => ⟨c, "", .no⟩

/-- How many lines around those that are found options ask for. -/
def contextOf (a : Arguments) : Except String (Option (Nat × Nat)) := do
  let number (letter : Char) : Except String (Option Nat) :=
    (a.values letter).foldlM (fun _ text => match decimal? text.toList with
      | some n => .ok (some n)
      | none => .error (text ++ ": invalid context length argument")) none
  let digits := (a.options.map (·.1)).filter fun c => (digit? c).isSome
  let both ← number 'C'
  let both := (decimal? digits).or both
  let before := (← number 'B').or both
  let after := (← number 'A').or both
  return if before.isSome || after.isSome then some (before.getD 0, after.getD 0) else none

/-- The pattern that texts ask for, and what is said about it. -/
def patternOf (a : Arguments) (texts : List String) :
    Except String (LinePattern × List String) := do
  let lines := texts.flatMap (split '\n')
  let read (text : String) : Except String (LinePattern × List String) :=
    if a.has 'F' then .ok (.ofLiteral text.toList, [])
    else LinePattern.ofText (a.has 'E' || a.has 'P') text
  let found ← lines.mapM read
  return (found.foldr (fun (p, _) q => if q = .nothing then p else .either p q) .nothing,
    found.flatMap (·.2))

/-- The search that options ask for. -/
def searchOf (a : Arguments) (texts : List String) : Except String (Search × List String) := do
  if 1 < (['E', 'F', 'G', 'P'].filter a.has).length && (a.has 'P' || a.has 'F') then
    throw "conflicting matchers specified"
  let context ← contextOf a
  let most ← (a.values 'm').foldlM (fun _ text => match decimal? text.toList with
    | some n => .ok (some n)
    | none => .error "invalid max count") none
  let (pattern, warnings) ← patternOf a texts
  let report : Report :=
    if a.has 'q' then .nothing
    else match a.last? ['l', 'L'] with
      | some 'l' => .names
      | some _ => .otherNames
      | none => if a.has 'c' then .count else .lines
  return ({
    pattern, report, most, context
    folds := a.has 'i' || a.has 'y', inverted := a.has 'v', words := a.has 'w'
    whole := a.has 'x', onlyParts := a.has 'o', numbered := a.has 'n', offsets := a.has 'b'
    separator := if a.has '\x06' then none else some ((a.value? '\x07').getD "--")
    asText := a.has 'a', ending := if a.has 'z' then 0 else newline, silent := a.has 's'
    nulAfterNames := a.has 'Z' }, warnings)

/-- Searches inputs one after the other. -/
def searchAll (p : Printer) (s : Search) (label : String) (named : Bool) :
    List (String × Bool × Option Fault) → Outcome → Buffer → (Outcome → Buffer → Behaviour) →
    Behaviour
  | [], o, b, k => k o b
  | (operand, below, fault) :: rest, o, b, k =>
    let title := if operand = "-" then label else operand
    let name := if named || below then some title else none
    let fail (fault : Fault) : Behaviour :=
      let o := { o with failed := true }
      if s.silent then searchAll p s label named rest o b k
      else p.complain b (shown title ++ ": " ++ fault.description)
        fun b => searchAll p s label named rest o b k
    match fault with
    | some fault => fail fault
    | none => openInput p.setting operand fun
      | .error fault => fail fault
      | .ok stream => .look fun w =>
        let isOutput := s.report = .lines && match stream, p.setting.stream? 1 with
          | some (.file m), some (.file n) => (w.file? m).map (·.serial) = (w.file? n).map (·.serial)
          | _, _ => false
        if isOutput && s.most != some 1 then
          p.complain b (shown title ++ ": input file is also the output")
            fun b => searchAll p s label named rest { o with failed := true } b k
        else searchStream p s title name stream o b fun o b =>
          if o.found && s.report = .nothing then k o b else searchAll p s label named rest o b k

/-- What is said about the usage of `grep`. -/
def grepUsage : String :=
  "Usage: grep [OPTION]... PATTERNS [FILE]...\nTry 'grep --help' for more information.\n"

/-- The texts of the patterns in files. -/
def patternFiles (s : Setting) (name : String) : List String → List String →
    (List String → Behaviour) → Behaviour
  | [], texts, k => k texts.reverse
  | path :: rest, texts, k =>
    let fail (fault : Fault) : Behaviour :=
      complain s name (shown path ++ ": " ++ fault.description) (exit 2)
    openInput s path fun
      | .error fault => fail fault
      | .ok stream => readAll stream fun
        | .error fault => fail fault
        | .ok data => patternFiles s name rest ((linesOf data).reverse.map Octets.ofBytes ++ texts) k

/-- Searches inputs for patterns; `letter` is the option that the name stands for. -/
def grepAs (letter : Option Char) : Program := fun s name args =>
  let name := ((name.splitOn "/").getLast?).getD name
  match takeArguments grepChoices (fun _ => false) (args.length + 1) args with
  | .error text => s.say (name ++ ": " ++ text ++ "\n" ++ grepUsage) (exit 2)
  | .ok a =>
    let a := match letter with
      | some c => { a with options := (c, "") :: a.options }
      | none => a
    patternFiles s name (a.values 'f') [] fun fromFiles =>
      let given := a.values 'e'
      let texts := if a.has 'e' || a.has 'f' then some (given ++ fromFiles, a.operands)
        else match a.operands with
          | text :: files => some ([text], files)
          | [] => none
      match texts with
      | none => s.say grepUsage (exit 2)
      | some (texts, files) =>
        match searchOf a texts with
        | .error text => complain s name text (exit 2)
        | .ok (search, warnings) =>
          let recursive := a.has 'r' || a.has 'R' || a.value? 'd' = some "recurse"
          let bare := files.isEmpty
          let files := if bare then [if recursive then "." else "-"] else files
          let search := if s.stream? 1 = some (.device .null) && search.report != .nothing then
              { search with report := if search.report = .otherNames then .otherNames else .names }
            else search
          let p : Printer := { setting := s, name, failed := 2 }
          .look fun w =>
            let named := match a.last? ['H', 'h'] with
              | some c => c = 'H'
              | none => 1 < files.length
            let inputs := files.flatMap (inputsOf s w recursive)
            let inputs := if bare then
                inputs.map fun (path, below, fault) =>
                  (if path.startsWith "./" then (path.drop 2).toString else path, below, fault)
              else inputs
            let inputs := if a.last? ['H', 'h'] = some 'h' then
                inputs.map fun (path, _, fault) => (path, false, fault)
              else inputs
            let inputs := if a.value? 'd' = some "skip" then inputs.filter fun (path, _, _) =>
                !w.tree.isDirectory s.cwd (Octets.toText path)
              else inputs
            let label := (a.value? '\x03').getD "(standard input)"
            warnings.foldr (fun text next => complain s name text next)
              (searchAll p search label named inputs {} {} fun o b =>
                p.finish b (o.code (search.report = .nothing)))

/-- Searches inputs for patterns. -/
def grep : Program :=
  grepAs none

end LangBundle.Utility
