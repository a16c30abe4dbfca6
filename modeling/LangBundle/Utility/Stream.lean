import LangBundle.Process.Capture
import LangBundle.Utility.Options

/-!
# Reading inputs and writing a result

A program reads the files that its operands name, or its standard input.  What it prints is kept
back until there is much of it or the program ends, so that messages come before it.
-/

namespace LangBundle.Utility

open Files (Fault)
open Process

/-- Opens the file that an operand names; a dash is the standard input. -/
def openInput (s : Setting) (operand : String) (k : Except Fault (Option Stream) → Behaviour) :
    Behaviour :=
  if operand = "-" then k (.ok (s.stream? 0))
  else s.openFile .read operand 0 fun
    | .ok stream =>
      let s := { s with kept := stream :: s.kept }
      s.settle (k (.ok (some stream)))
    | .error fault => k (.error fault)

/-- The standard input if there are no operands. -/
def orInput (operands : List String) : List String :=
  if operands.isEmpty then ["-"] else operands

/-- How many bytes are kept back at most. -/
def bufferSize : Nat := 4096

/-- Bytes that are kept back; `count` is their number and the newest piece is first. -/
structure Buffer where
  pieces : List Bytes := []
  count : Nat := 0

namespace Buffer

/-- All bytes that are kept back. -/
def data (b : Buffer) : Bytes :=
  b.pieces.reverse.flatten

/-- Keeps more bytes back. -/
def add (b : Buffer) (data : Bytes) : Buffer :=
  ⟨data :: b.pieces, b.count + data.length⟩

end Buffer

/-- What a program that prints has to do with: its setting and name, and the code with which it ends
if it cannot print. -/
structure Printer where
  setting : Setting
  name : String
  failed : Nat := 1

namespace Printer

/-- Writes what is kept back. -/
def flush (p : Printer) (b : Buffer) (k : Behaviour) : Behaviour :=
  if b.count = 0 then k
  else p.setting.write 1 b.data fun
    | .ok () => k
    | .error fault =>
      complain p.setting p.name ("write error: " ++ fault.description) (exit p.failed)

/-- Says something, behind everything that was kept back. -/
def complain (p : Printer) (b : Buffer) (text : String) (k : Buffer → Behaviour) : Behaviour :=
  p.flush b (Utility.complain p.setting p.name text (k {}))

/-- Prints bytes, which may be kept back. -/
def print (p : Printer) (data : Bytes) (b : Buffer) (k : Buffer → Behaviour) : Behaviour :=
  let b := b.add data
  if b.count < bufferSize then k b else p.flush b (k {})

/-- Ends the program with a code. -/
def finish (p : Printer) (b : Buffer) (code : Nat) : Behaviour :=
  p.flush b (exit code)

end Printer

/-- What is made of a piece of input: what is printed, and how it goes on. -/
structure Step (σ : Type) where
  state : σ
  output : Bytes := []
  /-- Whether nothing more is read. -/
  stops : Bool := false

/-- More pieces than any input has. -/
def endlessPieces : Nat := 0x1000000000000

/-- Reads a stream piece by piece and prints what is made of each. -/
def pump {σ : Type} (p : Printer) (stream : Option Stream) (step : σ → Bytes → Step σ)
    (k : Except Fault Unit → σ → Buffer → Behaviour) :
    (pieces : Nat) → σ → Buffer → Behaviour
  | 0, state, b => k (.ok ()) state b
  | pieces + 1, state, b =>
    readStream stream (fun _ => false) (List.take World.pipeSize) fun
      | .error fault => k (.error fault) state b
      | .ok [] => k (.ok ()) state b
      | .ok data =>
        let result := step state data
        p.print result.output b fun b =>
          if result.stops then k (.ok ()) result.state b
          else pump p stream step k pieces result.state b

/-! ## Lines -/

/-- The complete lines of a text, each with the byte that ends it, and what is behind them. -/
def takeLines (data : Bytes) (ending : UInt8 := newline) : List Bytes × Bytes :=
  let pieces := Text.piecesAt (· == ending) data
  (pieces.dropLast.map (· ++ [ending]), pieces.getLast?.getD [])

/-- The lines of a text without the bytes that end them. -/
def linesOf (data : Bytes) (ending : UInt8 := newline) : List Bytes :=
  let (lines, rest) := takeLines data ending
  lines.map (·.dropLast) ++ if rest.isEmpty then [] else [rest]

/-- The lines of a text, each with the byte that ends it if it has one. -/
def endedLines (data : Bytes) (ending : UInt8 := newline) : List Bytes :=
  let (lines, rest) := takeLines data ending
  lines ++ if rest.isEmpty then [] else [rest]

/-- The bytes of lines. -/
def unlines (lines : List Bytes) (ending : UInt8 := newline) : Bytes :=
  lines.flatMap (· ++ [ending])

/-- A step that treats one line after the other, keeping back what is behind the last one. -/
def lineStep {σ : Type} (ending : UInt8) (one : σ → Bytes → σ × Bytes) (state : σ × Bytes)
    (data : Bytes) : Step (σ × Bytes) :=
  let (lines, rest) := takeLines (state.2 ++ data) ending
  let (next, pieces) := lines.foldl (fun (next, pieces) line =>
    let (next, piece) := one next line.dropLast
    (next, piece :: pieces)) (state.1, ([] : List Bytes))
  { state := (next, rest), output := pieces.reverse.flatten }

/-- Reads a stream line by line and prints what is made of each, also of a last one that has no end.
-/
def pumpLines {σ : Type} (p : Printer) (stream : Option Stream) (ending : UInt8)
    (one : σ → Bytes → σ × Bytes) (k : Except Fault Unit → σ → Buffer → Behaviour) (state : σ)
    (b : Buffer) : Behaviour :=
  pump p stream (lineStep ending one)
    (fun result (state, rest) b =>
      if rest.isEmpty then k result state b
      else
        let (state, output) := one state rest
        p.print output b (k result state))
    endlessPieces (state, []) b

/-- The order of rows of bytes. -/
def bytesLE : Bytes → Bytes → Bool
  | [], _ => true
  | _ :: _, [] => false
  | a :: x, b :: y => a < b || (a == b && bytesLE x y)

/-- A number on the right of a column. -/
def column (width n : Nat) : String :=
  let digits := toString n
  String.ofList (List.replicate (width - digits.length) ' ') ++ digits

/-- The bytes of a text of octets. -/
def bytes (text : String) : Bytes :=
  Octets.toBytes text

end LangBundle.Utility
