import LangBundle.Utility.Stream

/-!
# Parts of each line

`cut` prints the bytes or fields of each line whose positions stand in a list of ranges.
-/

namespace LangBundle.Utility

open Files (Fault)
open Process Text

/-- Positions from one to another; the last one may be missing. -/
structure Range where
  first : Nat
  last : Option Nat
  deriving Repr, DecidableEq

/-- Whether a position is in a range. -/
def Range.has (r : Range) (position : Nat) : Bool :=
  decide (r.first ≤ position) && match r.last with
    | some last => decide (position ≤ last)
    | none => true

/-- What is read of a range so far. -/
structure PartialRange where
  first : Nat := 1
  value : Nat := 0
  dashed : Bool := false
  low : Bool := false
  high : Bool := false
  /-- The digits that were read last. -/
  digits : List Char := []

/-- The range that ends here. -/
def PartialRange.finish (r : PartialRange) (unnumbered : String) : Except String Range :=
  if r.dashed then
    if !r.low && !r.high then .error "invalid range with no endpoint: -"
    else if !r.high then .ok ⟨r.first, none⟩
    else if r.value < r.first then .error "invalid decreasing range"
    else .ok ⟨r.first, some r.value⟩
  else if r.value = 0 then .error unnumbered
  else .ok ⟨r.value, some r.value⟩

/-- Reads a list of ranges. -/
def readRanges (ofFields : Bool) (r : PartialRange) : List Char → Except String (List Range)
  | [] => do return [← r.finish (unnumbered ofFields)]
  | c :: rest =>
    if c = '-' then
      if r.dashed then
        .error (if ofFields then "invalid field range" else "invalid byte or character range")
      else if r.low && r.value = 0 then .error (unnumbered ofFields)
      else readRanges ofFields
        { r with dashed := true, first := if r.low then r.value else 1, value := 0, digits := [] } rest
    else if c = ',' || c = ' ' || c = '\t' then do
      let range ← r.finish (unnumbered ofFields)
      return range :: (← readRanges ofFields {} rest)
    else match digit? c with
      | some d =>
        let value := r.value * 10 + d
        if 0xFFFFFFFFFFFFFFFF ≤ value then
          let all := r.digits.reverse ++ (c :: rest).takeWhile fun c => (digit? c).isSome
          .error ((if ofFields then "field number " else "byte/character offset ") ++
            quoted (String.ofList all) ++ " is too large")
        else readRanges ofFields
          { r with
            value, digits := c :: r.digits
            low := r.low || !r.dashed, high := r.high || r.dashed } rest
      | none =>
        .error ((if ofFields then "invalid field value " else "invalid byte/character position ") ++
          quoted (String.ofList (c :: rest)))
where
  /-- What is said about a position that is zero or missing. -/
  unnumbered (ofFields : Bool) : String :=
    if ofFields then "fields are numbered from 1"
    else "byte/character positions are numbered from 1"

/-- How a line is cut. -/
structure Cutting where
  ofFields : Bool
  ranges : List Range
  complement : Bool := false
  delimiter : UInt8 := 0x09
  /-- What stands between the parts that are printed. -/
  output : Option Bytes := none
  /-- Whether lines without a delimiter are left out. -/
  strict : Bool := false
  ending : UInt8 := newline

namespace Cutting

/-- Whether a position is selected. -/
def selects (c : Cutting) (position : Nat) : Bool :=
  c.ranges.any (·.has position) != c.complement

/-- Whether a position is selected and begins a range. -/
def begins (c : Cutting) (position : Nat) : Bool :=
  if c.complement then c.selects position && !(1 < position && c.selects (position - 1))
  else c.ranges.any fun r => r.first = position &&
    !c.ranges.any fun q => decide (q.first < position) && q.has position

/-- What is printed of the bytes from a position on. -/
def bytesFrom (c : Cutting) (separator : Bytes) (printed : Bool) (position : Nat) : Bytes → Bytes
  | [] => []
  | b :: rest =>
    if c.selects position then
      (if printed && c.begins position then separator else []) ++
        b :: bytesFrom c separator true (position + 1) rest
    else bytesFrom c separator printed (position + 1) rest

/-- What is printed of a line. -/
def line (c : Cutting) (line : Bytes) : Bytes :=
  if c.ofFields then
    match piecesAt (· == c.delimiter) line with
    | [_] => if c.strict then [] else line ++ [c.ending]
    | fields =>
      let chosen := (fields.zipIdx.filter fun (_, i) => c.selects (i + 1)).map (·.1)
      (chosen.intersperse (c.output.getD [c.delimiter])).flatten ++ [c.ending]
  else c.bytesFrom (c.output.getD []) false 1 line ++ [c.ending]

end Cutting

/-- The options of `cut`. -/
def cutChoices : List Choice :=
  [⟨'b', "bytes", .yes⟩, ⟨'c', "characters", .yes⟩, ⟨'f', "fields", .yes⟩,
    ⟨'d', "delimiter", .yes⟩, ⟨'s', "only-delimited", .no⟩, ⟨'n', "", .no⟩,
    ⟨'z', "zero-terminated", .no⟩, ⟨'\x00', "complement", .no⟩,
    ⟨'\x01', "output-delimiter", .yes⟩]

/-- The way of cutting that options ask for. -/
def cuttingOf (a : Arguments) : Except String Cutting := do
  let lists := a.options.filter fun (c, _) => ['b', 'c', 'f'].contains c
  if (a.values 'd').any fun d => 1 < d.length then
    throw "the delimiter must be a single character"
  match lists with
  | [] => throw "you must specify a list of bytes, characters, or fields"
  | [(letter, list)] =>
    let ofFields := letter = 'f'
    if !ofFields && a.has 'd' then
      throw "an input delimiter may be specified only when operating on fields"
    if !ofFields && a.has 's' then
      throw ("suppressing non-delimited lines makes sense\n" ++
        "\tonly when operating on fields")
    let delimiter := ((a.value? 'd').map fun d => (bytes d).headD 0).getD 0x09
    return {
      ofFields, delimiter
      ranges := (← readRanges ofFields {} list.toList)
      complement := a.has '\x00'
      output := (a.value? '\x01').map fun o => if o.isEmpty then [0] else bytes o
      strict := a.has 's'
      ending := if a.has 'z' then 0 else newline }
  | _ => throw "only one list may be specified"

/-- Prints parts of each line. -/
def cut : Program := fun s name args =>
  withArguments s name 1 cutChoices args fun a =>
    match cuttingOf a with
    | .error text => misused s name text 1
    | .ok c =>
      let p : Printer := { setting := s, name }
      let operands := orInput a.operands
      let one (operand : String) (state : Nat × Buffer) (k : Nat × Buffer → Behaviour) :
          Behaviour :=
        let fail (fault : Fault) (b : Buffer) : Behaviour :=
          p.complain b (shown operand ++ ": " ++ fault.description) fun b => k (1, b)
        openInput s operand fun
          | .error fault => fail fault state.2
          | .ok stream => pumpLines p stream c.ending (fun _ line => ((), c.line line))
            (fun
              | .ok () => fun _ b => k (state.1, b)
              | .error fault => fun _ b => fail fault b) () state.2
      forEach one operands (0, {}) fun (code, b) =>
        if operands.contains "-" && (s.stream? 0).isNone then
          p.complain b ("-: " ++ Fault.badDescriptor.description) fun b => p.finish b 1
        else p.finish b code

end LangBundle.Utility
