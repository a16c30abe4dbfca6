import LangBundle.Utility.Order

/-!
# Sorting and comparing lines

`sort` reads everything before it writes; `uniq` compares each line with the one before it.
-/

namespace LangBundle.Utility

open Files (Fault)
open Process Text

/-! ## Keys -/

/-- The letters that say how keys are compared. -/
def orderingLetters : List Char :=
  ['b', 'd', 'f', 'g', 'h', 'i', 'M', 'n', 'R', 'r', 'V']

/-- Reads a number of a key. -/
def keyCount (what : String) (cs : List Char) : Except String (Nat × List Char) :=
  match leadingNatural? false cs with
  | some found => .ok found
  | none => .error ("invalid number " ++ what ++ ": invalid count at start of " ++
      quoted (String.ofList cs))

/-- Reads a position of a key: a field and a byte. -/
def keyPosition (spec what : String) (cs : List Char) (zeroByte : Bool) :
    Except String (Nat × Nat × List Char) := do
  let (field, rest) ← keyCount what cs
  if field = 0 then
    throw ("field number is zero: invalid field specification " ++ quoted spec)
  match rest with
  | '.' :: rest => do
    let (byte, rest) ← keyCount "after '.'" rest
    if byte = 0 && !zeroByte then
      throw ("character offset is zero: invalid field specification " ++ quoted spec)
    return (field, byte, rest)
  | rest => return (field, if zeroByte then 0 else 1, rest)

/-- Reads a key. -/
def readKey (spec : String) : Except String SortKey := do
  let isOrdering (c : Char) : Bool := orderingLetters.contains c
  let (field, byte, rest) ← keyPosition spec "at field start" spec.toList false
  let firstLetters := rest.takeWhile isOrdering
  let rest := rest.drop firstLetters.length
  let (last, lastLetters, rest) ← match rest with
    | ',' :: rest => do
      let (field, byte, rest) ← keyPosition spec "after ','" rest true
      let letters := rest.takeWhile isOrdering
      pure (some (field - 1, byte), letters, rest.drop letters.length)
    | rest => pure (none, [], rest)
  if !rest.isEmpty then
    throw ("stray character in field spec: invalid field specification " ++ quoted spec)
  return {
    firstField := field - 1, firstByte := byte - 1, last
    skipsFirst := firstLetters.contains 'b', skipsLast := lastLetters.contains 'b'
    ordering := ⟨(firstLetters ++ lastLetters).filter (· != 'b')⟩ }

/-! ## Sorting -/

/-- The options of `sort`. -/
def sortChoices : List Choice :=
  [⟨'b', "ignore-leading-blanks", .no⟩, ⟨'d', "dictionary-order", .no⟩, ⟨'f', "ignore-case", .no⟩,
    ⟨'g', "general-numeric-sort", .no⟩, ⟨'h', "human-numeric-sort", .no⟩,
    ⟨'i', "ignore-nonprinting", .no⟩, ⟨'M', "month-sort", .no⟩, ⟨'n', "numeric-sort", .no⟩,
    ⟨'R', "random-sort", .no⟩, ⟨'r', "reverse", .no⟩, ⟨'V', "version-sort", .no⟩,
    ⟨'\x00', "sort", .yes⟩, ⟨'c', "", .no⟩, ⟨'C', "", .no⟩, ⟨'\x01', "check", .maybe⟩,
    ⟨'\x02', "parallel", .yes⟩, ⟨'k', "key", .yes⟩, ⟨'m', "merge", .no⟩,
    ⟨'o', "output", .yes⟩, ⟨'s', "stable", .no⟩, ⟨'S', "buffer-size", .yes⟩,
    ⟨'t', "field-separator", .yes⟩, ⟨'T', "temporary-directory", .yes⟩, ⟨'u', "unique", .no⟩,
    ⟨'z', "zero-terminated", .no⟩]

/-- The words for ways of comparing, and their letters. -/
def orderingWords : List (Wording Char) :=
  [⟨["general-numeric"], 'g'⟩, ⟨["human-numeric"], 'h'⟩, ⟨["month"], 'M'⟩, ⟨["numeric"], 'n'⟩,
    ⟨["random"], 'R'⟩, ⟨["version"], 'V'⟩]

/-- The words for what a check says, and their letters. -/
def checkWords : List (Wording Char) :=
  [⟨["quiet", "silent"], 'C'⟩, ⟨["diagnose-first"], 'c'⟩]

/-- Arguments with a letter for each option that has a word. -/
def lettered (a : Arguments) : Except String Arguments := do
  let options ← a.options.mapM fun (letter, text) => do
    if letter = '\x00' then return (← worded orderingWords "--sort" text, "")
    else if letter = '\x01' then
      return (← if text.isEmpty then pure 'c' else worded checkWords "--check" text, "")
    else return (letter, text)
  return { a with options }

/-- The byte between fields that an option asks for. -/
def tabOf (a : Arguments) : Except String (Option UInt8) :=
  (a.values 't').foldlM (fun tab text => match tab, text.toList with
    | _, [] => .error "empty tab"
    | old, ['\x5c', '0'] => if old.getD 0 = 0 then .ok (some 0) else .error "incompatible tabs"
    | old, [c] =>
      let b := c.toNat.toUInt8
      if old.getD b = b then .ok (some b) else .error "incompatible tabs"
    | _, _ => .error ("multi-character tab " ++ quoted text)) none

/-- The order that options ask for. -/
def orderOf (a : Arguments) : Except String LineOrder := do
  let base : KeyOrder := ⟨(a.options.map (·.1)).filter orderingLetters.contains⟩
  let tab ← tabOf a
  let keys ← (a.values 'k').mapM readKey
  let keys := keys.map fun k =>
    if k.ordering.isPlain && !k.skipsFirst && !k.skipsLast then
      { k with ordering := base, skipsFirst := base.has 'b', skipsLast := base.has 'b' }
    else k
  let keys := if keys.isEmpty && base.letters.any (· != 'r') then
      [{ ordering := base, skipsFirst := base.has 'b' }]
    else keys
  match (keys.map (·.ordering) ++ [base]).findSome? (·.conflict?) with
  | some letters => throw ("options '-" ++ letters ++ "' are incompatible")
  | none => return { keys, base, tab, unique := a.has 'u', stable := a.has 's' }

/-- What is said about an input that cannot be read. -/
def sortFault (operand : String) (cause : Fault) (opening : Bool) : String :=
  (if opening then "cannot read: " else "read failed: ") ++ shown operand ++ ": " ++
    cause.description

/-- The first input that cannot be read at all. -/
def unreadable? (s : Setting) (w : World) (operands : List String) : Option String :=
  operands.findSome? fun operand =>
    if operand = "-" || (s.ownDescriptor? operand).isSome then none
    else match w.tree.openRead s.cwd (Octets.toText operand) with
      | .ok _ => none
      | .error fault => some (sortFault operand fault true)

/-- Reads all inputs; a fault ends the program. -/
def sortInputs (s : Setting) (name : String) : List String → List Bytes →
    (List Bytes → Behaviour) → Behaviour
  | [], found, k => k found.reverse
  | operand :: rest, found, k =>
    let fail (opening : Bool) (fault : Fault) : Behaviour :=
      complain s name (sortFault operand fault opening) (exit 2)
    openInput s operand fun
      | .error fault => fail true fault
      | .ok none => complain s name ("stat failed: " ++ shown operand ++ ": " ++
          Fault.badDescriptor.description) (exit 2)
      | .ok stream => readAll stream fun
        | .error fault => fail false fault
        | .ok data => sortInputs s name rest (data :: found) k

/-- Writes lines in order. -/
def writeSorted (s : Setting) (name : String) (output : Option String) (text : Bytes) : Behaviour :=
  match output with
  | none => if text.isEmpty then exit 0 else s.write 1 text fun
    | .ok () => exit 0
    | .error fault => complain s name ("fflush failed: 'standard output': " ++ fault.description)
        (complain s name "write error" (exit 2))
  | some path => s.openFile .write path 0o666 fun
    | .error fault =>
      complain s name ("open failed: " ++ shown path ++ ": " ++ fault.description) (exit 2)
    | .ok stream =>
      let descriptor := (s.descriptors.map (·.1 + 1)).foldl max 3
      (s.set descriptor (some stream)).write descriptor text fun
        | .ok () => exit 0
        | .error fault => complain s name ("fflush failed: " ++ quoted path ++ ": " ++
            fault.description) (complain s name "write error" (exit 2))

/-- Puts lines into order, or checks that they are. -/
def sort : Program := fun s name args =>
  withArguments s name 2 sortChoices args fun a => match lettered a with
  | .error text => misused s name text 1
  | .ok a =>
    let checks := a.has 'c' || a.has 'C'
    let operands := orInput a.operands
    match orderOf a with
    | .error text => complain s name text (exit 2)
    | .ok order =>
      let ending : UInt8 := if a.has 'z' then 0 else newline
      if checks && 1 < operands.length then
        complain s name ("extra operand " ++ quoted (operands.getD 1 "") ++ " not allowed with -" ++
          (if a.has 'c' then "c" else "C")) (exit 2)
      else .look fun w => match unreadable? s w operands with
        | some text => complain s name text (exit 2)
        | none => sortInputs s name operands [] fun found =>
          let rows := found.map (linesOf · ending)
          if checks then
            match order.disorder? 1 rows.flatten with
            | none => exit 0
            | some (number, line) =>
              if a.has 'c' then s.say (name ++ ": " ++ operands.headD "" ++ ":" ++ toString number ++
                ": disorder: " ++ Octets.ofBytes line ++ "\n") (exit 1)
              else exit 1
          else
            let lines := if a.has 'm' then order.merged (rows.flatten.length + 1) rows
              else order.sorted rows.flatten
            let lines := if order.unique then order.withoutEqual lines else lines
            writeSorted s name (a.value? 'o') (unlines lines ending)

/-! ## Equal lines -/

/-- What of a line is compared with the one before it. -/
structure Likeness where
  fields : Nat := 0
  skipped : Nat := 0
  most : Option Nat := none
  foldsCase : Bool := false

/-- The bytes of a line that are compared. -/
def Likeness.part (l : Likeness) (line : Bytes) : Bytes :=
  let rest := (afterFields none l.fields line).drop l.skipped
  let rest := match l.most with
    | some n => rest.take n
    | none => rest
  if l.foldsCase then comparedBytes ⟨['f']⟩ rest else rest

/-- The rows of lines that follow each other and are alike. -/
def groups (l : Likeness) : List Bytes → List (List Bytes)
  | [] => []
  | line :: rest =>
    match groups l rest with
    | (next :: row) :: more =>
      if l.part next = l.part line then (line :: next :: row) :: more
      else [line] :: (next :: row) :: more
    | more => [line] :: more

/-- Where lines of their own stand between groups. -/
inductive Delimiting where
  | none
  | before
  | between
  | behind
  | around
  deriving Repr, DecidableEq

/-- The words for where lines stand between groups of repeated lines. -/
def repeatedWords : List (Wording Delimiting) :=
  [⟨["none"], .none⟩, ⟨["prepend"], .before⟩, ⟨["separate"], .between⟩]

/-- The words for where lines stand between all groups. -/
def groupWords : List (Wording Delimiting) :=
  [⟨["prepend"], .before⟩, ⟨["append"], .behind⟩, ⟨["separate"], .between⟩, ⟨["both"], .around⟩]

/-- Groups with empty lines between them. -/
def Delimiting.apart (d : Delimiting) (rows : List (List Bytes)) : List Bytes :=
  let gap (wanted : Bool) : List Bytes := if wanted && !rows.isEmpty then [[]] else []
  match d with
  | .none => rows.flatten
  | .before | .between | .behind | .around =>
    gap (d = .before || d = .around) ++ [[]].intercalate rows ++ gap (d = .behind || d = .around)

/-- The options of `uniq`. -/
def uniqChoices : List Choice :=
  [⟨'c', "count", .no⟩, ⟨'d', "repeated", .no⟩, ⟨'D', "", .no⟩, ⟨'\x00', "all-repeated", .maybe⟩,
    ⟨'\x01', "group", .maybe⟩, ⟨'i', "ignore-case", .no⟩, ⟨'u', "unique", .no⟩,
    ⟨'f', "skip-fields", .yes⟩, ⟨'s', "skip-chars", .yes⟩, ⟨'w', "check-chars", .yes⟩,
    ⟨'z', "zero-terminated", .no⟩]

/-- The last number that an option gives. -/
def optionNumber (a : Arguments) (letter : Char) (what : String) : Except String (Option Nat) :=
  (a.values letter).foldlM (fun _ text => match decimal? text.toList with
    | some n => .ok (some n)
    | none => .error (text ++ ": invalid number of " ++ what)) none

/-- What of each line is compared, as options say. -/
def likenessOf (a : Arguments) : Except String Likeness := do
  return {
    fields := ((← optionNumber a 'f' "fields to skip").getD 0)
    skipped := ((← optionNumber a 's' "bytes to skip").getD 0)
    most := (← optionNumber a 'w' "bytes to compare")
    foldsCase := a.has 'i' }

/-- What is printed of groups of lines. -/
structure Selection where
  /-- Whether all lines are printed, in groups. -/
  grouped : Option Delimiting := none
  /-- Whether all lines of groups of several lines are printed. -/
  duplicates : Option Delimiting := none
  /-- Whether only groups of several lines are printed. -/
  repeated : Bool := false
  /-- Whether only lines that stand alone are printed. -/
  single : Bool := false
  counted : Bool := false

/-- What is printed, as options say. -/
def selectionOf (a : Arguments) : Except String Selection := do
  let duplicates ← a.options.foldlM (fun found (letter, text) =>
    if letter = 'D' || letter = '\x00' && text.isEmpty then .ok (some .none)
    else if letter = '\x00' then (worded repeatedWords "--all-repeated" text).map some
    else .ok found) none
  let grouped ← (a.values '\x01').foldlM (fun _ text =>
    if text.isEmpty then .ok (some .between)
    else (worded groupWords "--group" text).map some) none
  if grouped.isSome && (duplicates.isSome || ['c', 'd', 'u'].any a.has) then
    throw "--group is mutually exclusive with -c/-d/-D/-u"
  if a.has 'c' && duplicates.isSome then
    throw "printing all duplicated lines and repeat counts is meaningless"
  return { grouped, duplicates, repeated := a.has 'd', single := a.has 'u', counted := a.has 'c' }

/-- The lines that are printed of groups of lines. -/
def Selection.lines (sel : Selection) (rows : List (List Bytes)) : List Bytes :=
  match sel.grouped, sel.duplicates with
  | some delimiting, _ => delimiting.apart rows
  | none, some delimiting =>
    delimiting.apart ((rows.filter (1 < ·.length)).map fun row =>
      if sel.single then row.dropLast else row)
  | none, none =>
    let kept := rows.filter fun row =>
      (!sel.repeated || 1 < row.length) && (!sel.single || row.length = 1)
    kept.flatMap fun row => (row.take 1).map fun line =>
      if sel.counted then bytes (column 7 row.length ++ " ") ++ line else line

/-- Prints one of equal lines that follow each other. -/
def uniq : Program := fun s name args =>
  withArguments s name 1 uniqChoices args fun a =>
    match likenessOf a, selectionOf a, a.operands with
    | .error text, _, _ => complain s name text (exit 1)
    | _, .error text, _ => misused s name text 1
    | _, _, _ :: _ :: extra :: _ => misused s name ("extra operand " ++ quoted extra) 1
    | .ok likeness, .ok selection, operands =>
      let ending : UInt8 := if a.has 'z' then 0 else newline
      let input := operands.headD "-"
      let fail (text : String) : Behaviour := complain s name text (exit 1)
      openInput s input fun
        | .error fault => fail (shown input ++ ": " ++ fault.description)
        | .ok stream =>
          let run (s : Setting) : Behaviour := readAll stream fun
            | .error fault =>
              fail ("error reading " ++ quoted input ++ ": " ++ fault.description)
            | .ok data =>
              let lines := selection.lines (groups likeness (linesOf data ending))
              finishWith s name (unlines lines ending) 0
          match operands with
          | [_, output] =>
            if output = "-" then run s
            else s.openFile .write output 0o666 fun
              | .error fault => fail (shown output ++ ": " ++ fault.description)
              | .ok stream => let s := s.set 1 (some stream); s.settle (run s)
          | _ => run s

end LangBundle.Utility
