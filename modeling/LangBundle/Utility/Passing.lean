import LangBundle.Utility.Stream

/-!
# Passing inputs on

`cat` writes what it reads as soon as it has read it, perhaps with marks that make visible what is
not seen otherwise; `tee` writes it to files as well, and `yes` needs no input.
-/

namespace LangBundle.Utility

open Files (Fault)
open Process

/-! ## Marks -/

/-- What `cat` makes visible. -/
structure Marks where
  numbers : Bool := false
  /-- Whether empty lines have no numbers. -/
  filled : Bool := false
  /-- Whether of several empty lines only one is shown. -/
  squeezed : Bool := false
  ends : Bool := false
  tabs : Bool := false
  hidden : Bool := false

namespace Marks

/-- Whether there is anything to make visible. -/
def isPlain (m : Marks) : Bool :=
  !(m.numbers || m.squeezed || m.ends || m.tabs || m.hidden)

/-- Where `cat` is in its output. -/
structure Progress where
  lines : Nat := 0
  /-- How many line ends came one after the other; nothing within a line. -/
  ended : Option Nat := some 0
  /-- Whether a carriage return is kept back. -/
  returned : Bool := false

/-- A byte made visible. -/
def visible (m : Marks) (b : UInt8) : Bytes :=
  let caret (b : UInt8) : Bytes := if b < 0x20 then [0x5E, b + 0x40]
    else if b = 0x7F then [0x5E, 0x3F] else [b]
  if b = 0x09 then if m.tabs then [0x5E, 0x49] else [b]
  else if !m.hidden then [b]
  else if b < 0x80 then caret b
  else [0x4D, 0x2D] ++ caret (b - 0x80)

/-- The number in front of a new line. -/
def numberOf (m : Marks) (p : Progress) (isEmpty : Bool) : Bytes × Progress :=
  if m.numbers && !(isEmpty && m.filled) then
    (bytes (column 6 (p.lines + 1) ++ "\t"), { p with lines := p.lines + 1 })
  else ([], p)

/-- What is shown of one byte. -/
def display (m : Marks) (p : Progress) (b : UInt8) : Progress × Bytes :=
  let waiting : Bytes := if p.returned then [0x0D] else []
  if b = newline then
    let finish : Bytes := if m.ends then [0x24, newline] else [newline]
    match p.ended with
    | some n =>
      if m.squeezed && 1 ≤ n then (p, [])
      else
        let (number, p) := m.numberOf p true
        ({ p with ended := some (n + 1) }, number ++ finish)
    | none =>
      ({ p with ended := some 0, returned := false },
        (if p.returned then [0x5E, 0x4D] else []) ++ finish)
  else
    let (number, p) := if p.ended.isSome then m.numberOf p false else ([], p)
    let p := { p with ended := none, returned := m.ends && !m.hidden && b == 0x0D }
    (p, waiting ++ number ++ if p.returned then [] else m.visible b)

/-- What is shown of several bytes. -/
def displayAll (m : Marks) (p : Progress) (data : Bytes) : Progress × Bytes :=
  if m.isPlain then (p, data)
  else
    let (p, pieces) := data.foldl (fun (p, pieces) b =>
      let (p, piece) := m.display p b
      (p, piece :: pieces)) (p, ([] : List Bytes))
    (p, pieces.reverse.flatten)

end Marks

/-- Writes what is read at once. -/
def relay (s : Setting) (name : String) (stream : Option Stream) (m : Marks)
    (k : Except Fault Unit → Marks.Progress → Behaviour) :
    (pieces : Nat) → Marks.Progress → Behaviour
  | 0, p => k (.ok ()) p
  | pieces + 1, p => readStream stream (fun _ => false) (List.take World.pipeSize) fun
    | .error fault => k (.error fault) p
    | .ok [] => k (.ok ()) p
    | .ok data =>
      let (p, output) := m.displayAll p data
      s.write 1 output fun
        | .ok () => relay s name stream m k pieces p
        | .error fault => complain s name ("write error: " ++ fault.description) (exit 1)

/-- Whether what is read next would be what is written. -/
def isCircular (w : World) (input output : Option Stream) : Bool :=
  match input, output with
  | some (.file m), some (.file n) =>
    match w.file? m, w.file? n with
    | some i, some o =>
      i.serial == o.serial &&
        decide (i.offset < if o.appends then (w.dataOf o).length else o.offset)
    | _, _ => false
  | _, _ => false

/-- The options of `cat`. -/
def catChoices : List Choice :=
  [⟨'b', "number-nonblank", .no⟩, ⟨'n', "number", .no⟩, ⟨'s', "squeeze-blank", .no⟩,
    ⟨'v', "show-nonprinting", .no⟩, ⟨'E', "show-ends", .no⟩, ⟨'T', "show-tabs", .no⟩,
    ⟨'A', "show-all", .no⟩, ⟨'e', "", .no⟩, ⟨'t', "", .no⟩, ⟨'u', "", .no⟩]

/-- Passes on one input after the other. -/
def cat : Program := fun s name args =>
  withArguments s name 1 catChoices args fun a =>
    let any (letters : List Char) : Bool := letters.any a.has
    let m : Marks :=
      { numbers := any ['n', 'b'], filled := a.has 'b', squeezed := a.has 's'
        ends := any ['A', 'e', 'E'], tabs := any ['A', 't', 'T'], hidden := any ['A', 'e', 't', 'v'] }
    let one (operand : String) (state : Nat × Marks.Progress)
        (k : Nat × Marks.Progress → Behaviour) : Behaviour :=
      openInput s operand fun
        | .error fault =>
          complain s name (shown operand ++ ": " ++ fault.description) (k (1, state.2))
        | .ok stream => .look fun w =>
          if isCircular w stream (s.stream? 1) then
            complain s name (shown operand ++ ": input file is output file") (k (1, state.2))
          else relay s name stream m
            (fun
              | .ok () => fun p => k (state.1, p)
              | .error fault => fun p =>
                complain s name (shown operand ++ ": " ++ fault.description) (k (1, p)))
            endlessPieces state.2
    match s.stream? 1 with
    | none => complain s name ("standard output: " ++ Fault.badDescriptor.description) (exit 1)
    | some _ =>
      let operands := orInput a.operands
      forEach one operands (0, {}) fun (code, p) =>
        if p.returned then finishWith s name [0x0D] code
        else if operands.contains "-" && (s.stream? 0).isNone then
          complain s name ("closing standard input: " ++ Fault.badDescriptor.description) (exit 1)
        else exit code

/-! ## Several outputs -/

/-- Writes to each of several outputs; those that fail are left out from then on. -/
def writeEach (s : Setting) (name : String) (data : Bytes) :
    List (Nat × String) → (code : Nat) → (k : List (Nat × String) → Nat → Behaviour) → Behaviour
  | [], code, k => k [] code
  | (descriptor, title) :: rest, code, k => s.write descriptor data fun
    | .ok () => writeEach s name data rest code fun left => k ((descriptor, title) :: left)
    | .error fault =>
      complain s name (title ++ ": " ++ fault.description) (writeEach s name data rest 1 k)

/-- Passes the input on to several outputs. -/
def teeFrom (s : Setting) (name : String) :
    (pieces : Nat) → List (Nat × String) → (code : Nat) → Behaviour
  | 0, _, code => exit code
  | pieces + 1, outputs, code =>
    if outputs.isEmpty then exit code
    else s.read 0 World.pipeSize fun
      | .error fault => complain s name ("read error: " ++ fault.description) (exit 1)
      | .ok [] => exit code
      | .ok data => writeEach s name data outputs code (teeFrom s name pieces)

/-- Opens the files that operands name, on descriptors from `next` on. -/
def openOutputs (s : Setting) (name : String) (append : Bool) :
    List String → (next : Nat) → (outputs : List (Nat × String)) → (code : Nat) →
    (k : Setting → List (Nat × String) → Nat → Behaviour) → Behaviour
  | [], _, outputs, code, k => k s outputs.reverse code
  | operand :: rest, next, outputs, code, k =>
    s.openFile (if append then .append else .write) operand 0o666 fun
      | .ok stream =>
        let s := s.set next (some stream)
        s.settle (openOutputs s name append rest (next + 1) ((next, shown operand) :: outputs) code k)
      | .error fault => complain s name (shown operand ++ ": " ++ fault.description)
          (openOutputs s name append rest next outputs 1 k)

/-- Passes the input on to the standard output and to files. -/
def tee : Program := fun s name args =>
  withArguments s name 1
    [⟨'a', "append", .no⟩, ⟨'i', "ignore-interrupts", .no⟩, ⟨'p', "", .no⟩] args fun a =>
      let first := (s.descriptors.map (·.1 + 1)).foldl max 3
      openOutputs s name (a.has 'a') a.operands first [(1, quoted "standard output")] 0
        fun s outputs code => teeFrom s name endlessPieces outputs code

/-- Writes the same for ever. -/
def writeForEver (s : Setting) (name : String) (data : Bytes) : (pieces : Nat) → Behaviour
  | 0 => exit 0
  | pieces + 1 => s.write 1 data fun
    | .ok () => writeForEver s name data pieces
    | .error fault => complain s name ("standard output: " ++ fault.description) (exit 1)

/-- Writes its arguments, or a word, for ever. -/
def yes : Program := fun s name args =>
  withArguments s name 1 [] args fun a =>
    let line := bytes (" ".intercalate (if a.operands.isEmpty then ["y"] else a.operands) ++ "\n")
    let times := 1024 / (line.length + 1) + 1
    writeForEver s name (List.replicate times line).flatten endlessPieces

end LangBundle.Utility
