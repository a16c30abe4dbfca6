import LangBundle.Utility.Stream

/-!
# Counting lines, words and bytes

The numbers stand in columns that are as wide as the sizes of all inputs together need; an input
whose size is not known beforehand makes them wide.
-/

namespace LangBundle.Utility

open Files (Fault)
open Process

/-- What is counted in an input. -/
structure Counts where
  lines : Nat := 0
  words : Nat := 0
  bytes : Nat := 0
  /-- The length of the longest line. -/
  longest : Nat := 0
  /-- The length of the line so far. -/
  length : Nat := 0
  /-- Whether a word has begun. -/
  inWord : Bool := false

namespace Counts

/-- Counts one more byte. -/
def add (c : Counts) (b : UInt8) : Counts :=
  let c := { c with bytes := c.bytes + 1 }
  let ended (c : Counts) : Counts :=
    { c with longest := max c.longest c.length, length := 0, inWord := false }
  if b = newline then { ended c with lines := c.lines + 1 }
  else if b = 0x0D || b = 0x0C then ended c
  else if b = 0x09 then { c with length := c.length + 8 - c.length % 8, inWord := false }
  else if b = 0x20 then { c with length := c.length + 1, inWord := false }
  else if b = 0x0B then { c with inWord := false }
  else if 0x20 < b && b < 0x7F then
    { c with
      length := c.length + 1, inWord := true, words := if c.inWord then c.words else c.words + 1 }
  else c

/-- Counts some more bytes. -/
def addAll (c : Counts) (data : Bytes) : Counts :=
  data.foldl add c

/-- The counts at the end of an input. -/
def finished (c : Counts) : Counts :=
  { c with longest := max c.longest c.length, length := 0 }

/-- The counts of two inputs together. -/
def plus (c d : Counts) : Counts :=
  { lines := c.lines + d.lines, words := c.words + d.words, bytes := c.bytes + d.bytes
    longest := max c.longest d.longest }

end Counts

/-- Counts the bytes of a stream. -/
def countStream (stream : Option Stream) (k : Except Fault Unit → Counts → Behaviour) :
    (pieces : Nat) → Counts → Behaviour
  | 0, c => k (.ok ()) c
  | pieces + 1, c => readStream stream (fun _ => false) (List.take World.pipeSize) fun
    | .error fault => k (.error fault) c
    | .ok [] => k (.ok ()) c
    | .ok data => countStream stream k pieces (c.addAll data)

/-- The size of an input; nothing if it is not known beforehand. -/
def sizeOf (s : Setting) (w : World) (operand : String) : Except Fault (Option Nat) :=
  match if operand = "-" then some 0 else s.ownDescriptor? (Octets.toText operand) with
  | some descriptor =>
    match s.stream? descriptor with
    | some (.file number) => .ok ((w.file? number).map fun file => (w.dataOf file).length)
    | some _ => .ok none
    | none => .error .badDescriptor
  | none => do
    match ← w.tree.stat s.cwd (Octets.toText operand) with
    | .file _ _ data => return some data.length
    | _ => return none

/-- How wide the columns are. -/
def countWidth (sizes : List (Except Fault (Option Nat))) : Nat :=
  let known := sizes.filterMap (·.toOption)
  let total := (known.filterMap id).foldl (· + ·) 0
  max (toString total).length (if known.contains none then 7 else 1)

/-- When the counts of all inputs together are printed. -/
inductive Total where
  /-- If there are several inputs. -/
  | auto
  | always
  /-- Always, and without the counts of each input. -/
  | only
  | never
  deriving Repr, DecidableEq

/-- The words for when the counts of all inputs together are printed. -/
def totalWords : List (Wording Total) :=
  [⟨["auto"], .auto⟩, ⟨["always"], .always⟩, ⟨["only"], .only⟩, ⟨["never"], .never⟩]

/-- When the counts of all inputs together are to be printed, as options say. -/
def totalOf (a : Arguments) : Except String Total :=
  (a.values '\x00').foldlM (fun _ text => worded totalWords "--total" text) .auto

/-- The options of `wc`. -/
def wcChoices : List Choice :=
  [⟨'c', "bytes", .no⟩, ⟨'m', "chars", .no⟩, ⟨'l', "lines", .no⟩, ⟨'w', "words", .no⟩,
    ⟨'L', "max-line-length", .no⟩, ⟨'\x00', "total", .yes⟩]

/-- Counts. -/
def wc : Program := fun s name args =>
  withArguments s name 1 wcChoices args fun a => match totalOf a with
  | .error text => misused s name text 1
  | .ok total =>
    let kinds : List (Char × (Counts → Nat)) :=
      [('l', (·.lines)), ('w', (·.words)), ('m', (·.bytes)), ('c', (·.bytes)), ('L', (·.longest))]
    let chosen := kinds.filter fun (c, _) => a.has c
    let chosen := if chosen.isEmpty then kinds.filter fun (c, _) => ['l', 'w', 'c'].contains c
      else chosen
    let operands := orInput a.operands
    let alone := chosen.length = 1 && operands.length = 1
    .look fun w =>
      let width := if alone || total = .only then 1 else countWidth (operands.map (sizeOf s w))
      let row (c : Counts) (label : String) (state : Nat × Counts)
          (k : Nat × Counts → Behaviour) : Behaviour :=
        let numbers := " ".intercalate (chosen.map fun (_, count) => column width (count c))
        s.write 1 (bytes (numbers ++ label ++ "\n")) fun
          | .ok () => k state
          | .error fault => complain s name
              ("write error" ++ if fault = .noSpace then "" else ": " ++ fault.description) (exit 1)
      let each (c : Counts) (label : String) (state : Nat × Counts)
          (k : Nat × Counts → Behaviour) : Behaviour :=
        if total = .only then k state else row c label state k
      let one (operand : String) (state : Nat × Counts)
          (k : Nat × Counts → Behaviour) : Behaviour :=
        let title := if operand = "-" then quoted "standard input" else shown operand
        let label := if a.operands.isEmpty then "" else " " ++ operand
        if operand.isEmpty then
          complain s name "invalid zero-length file name" (k (1, state.2))
        else openInput s operand fun
          | .error fault =>
            complain s name (title ++ ": " ++ fault.description) (k (1, state.2))
          | .ok stream => countStream stream (fun
              | .ok () => fun c =>
                each c.finished label (state.1, state.2.plus c.finished) k
              | .error fault => fun c =>
                complain s name (title ++ ": " ++ fault.description)
                  (each c.finished label (1, state.2.plus c.finished) k))
            endlessPieces {}
      forEach one operands (0, {}) fun (code, sum) =>
        let finish : Behaviour :=
          if operands.contains "-" && (s.stream? 0).isNone then
            complain s name ("-: " ++ Fault.badDescriptor.description) (exit 1)
          else exit code
        match total with
        | .only => row sum "" (code, sum) fun _ => finish
        | .always => row sum " total" (code, sum) fun _ => finish
        | .auto => if 1 < operands.length then row sum " total" (code, sum) fun _ => finish
          else finish
        | .never => finish

end LangBundle.Utility
