import LangBundle.Text.Integer
import LangBundle.Utility.Stream

/-!
# Exchanging bytes

`tr` replaces the bytes of one set by those of another one, leaves out the bytes of a set, or keeps
one of several equal ones that follow each other.  A set is a row of bytes, ranges, classes and
repetitions.
-/

namespace LangBundle.Utility

open Files (Fault)
open Process Text

/-- A sign of the text of a set; one that stood behind a backslash has no meaning of its own. -/
structure SetSign where
  byte : UInt8
  escaped : Bool := false
  deriving Repr, DecidableEq

/-- A part of a set. -/
inductive SetPart where
  | byte (b : UInt8)
  | range (first last : UInt8)
  | named (name : String)
  | equal (b : UInt8)
  /-- A byte several times, or as often as needed. -/
  | repeated (b : UInt8) (count : Option Nat)
  deriving Repr, DecidableEq

/-- The bytes of a class. -/
def classBytes? (name : String) : Option Bytes :=
  let all : Bytes := (List.range 256).map (·.toUInt8)
  let between (low high : UInt8) (b : UInt8) : Bool := low ≤ b && b ≤ high
  let lower := between 0x61 0x7A
  let upper := between 0x41 0x5A
  let digit := between 0x30 0x39
  let graph := between 0x21 0x7E
  let alnum (b : UInt8) : Bool := lower b || upper b || digit b
  let holds : Option (UInt8 → Bool) := match name with
    | "lower" => some lower
    | "upper" => some upper
    | "alpha" => some fun b => lower b || upper b
    | "digit" => some digit
    | "alnum" => some alnum
    | "xdigit" => some fun b => digit b || between 0x41 0x46 b || between 0x61 0x66 b
    | "space" => some fun b => b == 0x20 || between 0x09 0x0D b
    | "blank" => some fun b => b == 0x20 || b == 0x09
    | "punct" => some fun b => graph b && !alnum b
    | "graph" => some graph
    | "print" => some fun b => graph b || b == 0x20
    | "cntrl" => some fun b => b < 0x20 || b == 0x7F
    | _ => none
  holds.map all.filter

/-! ## Reading sets -/

/-- The signs of a text; whether a backslash stands alone at its end. -/
def setSigns : (fuel : Nat) → List Char → List SetSign × Bool
  | 0, _ | _ + 1, [] => ([], false)
  | _ + 1, ['\x5c'] => ([⟨0x5C, false⟩], true)
  | fuel + 1, '\x5c' :: c :: rest =>
    let octal := (c :: rest).take 3 |>.takeWhile fun c => (digitOf? 8 c).isSome
    let number (ds : List Char) : Nat := (digits 8 0 ds).1
    let ds := if 255 < number octal then octal.take 2 else octal
    let (b, rest) : Nat × List Char :=
      if !ds.isEmpty then (number ds, (c :: rest).drop ds.length)
      else (match c with
        | 'a' => 0x07
        | 'b' => 0x08
        | 'f' => 0x0C
        | 'n' => 0x0A
        | 'r' => 0x0D
        | 't' => 0x09
        | 'v' => 0x0B
        | c => c.toNat, rest)
    let (more, isOpen) := setSigns fuel rest
    (⟨b.toUInt8, true⟩ :: more, isOpen)
  | fuel + 1, c :: rest =>
    let (more, isOpen) := setSigns fuel rest
    (⟨c.toNat.toUInt8, false⟩ :: more, isOpen)

/-- Whether a sign is a character with its meaning. -/
def SetSign.is (s : SetSign) (c : Char) : Bool :=
  s.byte == c.toNat.toUInt8 && !s.escaped

/-- The text of signs. -/
def textOf (signs : List SetSign) : String :=
  Octets.ofBytes (signs.map (·.byte))

/-- What stands in front of a character and a closing bracket, and what stands behind. -/
def untilClosing? (c : Char) : List SetSign → Option (List SetSign × List SetSign)
  | a :: b :: rest =>
    if a.is c && b.is ']' then some ([], rest)
    else (untilClosing? c (b :: rest)).map fun (inner, rest) => (a :: inner, rest)
  | _ => none

/-- A repetition behind its opening bracket. -/
def repetition? (signs : List SetSign) : Except String (Option (SetPart × List SetSign)) :=
  match signs with
  | b :: star :: rest =>
    if !star.is '*' then .ok none
    else
      let count := rest.takeWhile fun s => !s.escaped && !s.is ']'
      match rest.drop count.length with
      | closing :: rest =>
        if !closing.is ']' then .ok none
        else
          let cs := (textOf count).toList
          let value := digits (if cs.head? = some '0' then 8 else 10) 0 cs
          if !value.2.isEmpty then
            .error ("invalid repeat count " ++ quoted (textOf count) ++ " in [c*n] construct")
          else .ok (some (.repeated b.byte (if value.1 = 0 then none else some value.1), rest))
      | [] => .ok none
  | _ => .ok none

/-- How a byte is shown in a message. -/
def shownByte (b : UInt8) : String :=
  let c := Char.ofNat b.toNat
  if isPrinted c then c.toString else "\\" ++ String.ofList (octalDigits b.toNat)

/-- The parts of a set. -/
def setParts : (fuel : Nat) → List SetSign → Except String (List SetPart)
  | 0, _ => .ok []
  | fuel + 1, signs =>
    let behind (part : SetPart) (rest : List SetSign) : Except String (List SetPart) := do
      return part :: (← setParts fuel rest)
    match signs with
    | [] => .ok []
    | a :: b :: c :: rest =>
      let plain : Except String (List SetPart) :=
        if b.is '-' then
          if c.byte < a.byte then
            .error ("range-endpoints of '" ++ shownByte a.byte ++ "-" ++ shownByte c.byte ++
              "' are in reverse collating sequence order")
          else behind (.range a.byte c.byte) rest
        else behind (.byte a.byte) (b :: c :: rest)
      if !a.is '[' then plain
      else
        let repeated : Except String (List SetPart) := do
          match ← repetition? (b :: c :: rest) with
          | some (part, rest) => behind part rest
          | none => plain
        let named (mark : Char) (part : List SetSign → Except String SetPart) :
            Except String (List SetPart) :=
          match untilClosing? mark (c :: rest) with
          | none => repeated
          | some (inner, left) => match part inner with
            | .ok part => behind part left
            | .error text => match repetition? (b :: c :: rest) with
              | .ok (some (part, rest)) => behind part rest
              | _ => .error text
        if b.is ':' then named ':' fun inner =>
          let name := textOf inner
          if inner.isEmpty then .error "missing character class name '[::]'"
          else if (classBytes? name).isSome then .ok (.named name)
          else .error ("invalid character class " ++ quoted name)
        else if b.is '=' then named '=' fun inner =>
          match inner with
          | [s] => .ok (.equal s.byte)
          | [] => .error "missing equivalence class character '[==]'"
          | _ => .error
            (textOf inner ++ ": equivalence class operand must be a single character")
        else repeated
    | a :: rest => behind (.byte a.byte) rest

/-- Reads a set; what is said about its end comes first. -/
def readSet (text : String) : Bool × Except String (List SetPart) :=
  let (signs, isOpen) := setSigns (text.length + 1) text.toList
  (isOpen, setParts (signs.length + 1) signs)

/-- The bytes of a part, one that is repeated as often as needed `missing` times. -/
def SetPart.bytes (missing : Nat) : SetPart → Bytes
  | .byte b | .equal b => [b]
  | .range first last =>
    (List.range (last.toNat + 1 - first.toNat)).map fun i => (first.toNat + i).toUInt8
  | .named name => (classBytes? name).getD []
  | .repeated b count => List.replicate (count.getD missing) b

/-- The bytes of a set. -/
def setBytes (missing : Nat) (parts : List SetPart) : Bytes :=
  parts.flatMap (·.bytes missing)

/-! ## What is done -/

/-- The bytes of the first set, or all others. -/
def firstSet (complement : Bool) (parts : List SetPart) : Bytes :=
  let set := setBytes 0 parts
  if complement then ((List.range 256).map (·.toUInt8)).filter fun b => !set.contains b else set

/-- Whether a part is a class. -/
def SetPart.isNamed : SetPart → Bool
  | .named _ => true
  | _ => false

/-- Whether a part is repeated as often as needed. -/
def SetPart.isEndless : SetPart → Bool
  | .repeated _ none => true
  | _ => false

/-- What replaces each byte of the first set, which is cut to the length of the second one if
`truncate` says so. -/
def replacement (complement truncate : Bool) (first second : List SetPart) :
    Except String (List (UInt8 × UInt8)) := do
  let set := firstSet complement first
  if (second.filter (·.isEndless)).length > 1 then
    throw "only one [c*] repeat construct may appear in string2"
  if second.any fun | .equal _ => true | _ => false then
    throw "[=c=] expressions may not appear in string2 when translating"
  if second.any fun
      | .named name => name != "upper" && name != "lower"
      | _ => false then
    throw ("when translating, the only character classes that may appear in\n" ++
      "string2 are 'upper' and 'lower'")
  if second.any fun
      | .named _ => complement || !first.any fun
          | .named name => name = "upper" || name = "lower"
          | _ => false
      | _ => false then
    throw "misaligned [:upper:] and/or [:lower:] construct"
  let target := setBytes (set.length - (setBytes 0 second).length) second
  if truncate then return set.zip target
  match target.getLast? with
  | none => if set.isEmpty then return [] else
      throw "when not truncating set1, string2 must be non-empty"
  | some last =>
    if target.length < set.length && (second.getLast?.map (·.isNamed)).getD false then
      throw ("when translating with string1 longer than string2,\nthe latter string must not end " ++
        "with a character class")
    if complement && first.any (·.isNamed) &&
        !(target.length = set.length && target.all (· == last) || target.all (· == last)) then
      throw ("when translating with complemented character classes,\nstring2 must map all " ++
        "characters in the domain to one")
    return set.zip (target ++ List.replicate (set.length - target.length) last)

/-- What is done to each byte: those of one set are left out, others replaced, and of several equal
ones of a third set only one is kept. -/
structure Exchange where
  omitted : Bytes := []
  replaced : List (UInt8 × UInt8) := []
  squeezed : Bytes := []

namespace Exchange

/-- The byte that replaces another one. -/
def byteFor (e : Exchange) (b : UInt8) : UInt8 :=
  (e.replaced.reverse.lookup b).getD b

/-- What is printed of some bytes behind the last one that was printed. -/
def run (e : Exchange) (last : Option UInt8) (data : Bytes) : Option UInt8 × Bytes :=
  let (last, output) := data.foldl (fun (last, output) b =>
    if e.omitted.contains b then (last, output)
    else
      let b := e.byteFor b
      if last = some b && e.squeezed.contains b then (last, output) else (some b, b :: output))
    (last, ([] : Bytes))
  (last, output.reverse)

end Exchange

/-- Prints the input with its bytes exchanged. -/
def exchange (p : Printer) (e : Exchange) : Behaviour :=
  pump p (p.setting.stream? 0)
    (fun last data =>
      let (last, output) := e.run last data
      { state := last, output })
    (fun
      | .ok () => fun _ b => p.finish b 0
      | .error fault => fun _ b =>
        p.complain b ("read error: " ++ fault.description) fun b => p.finish b 1)
    endlessPieces none {}

/-- Exchanges bytes. -/
def tr : Program := fun s name args =>
  let choices : List Choice :=
    [⟨'c', "complement", .no⟩, ⟨'C', "", .no⟩, ⟨'d', "delete", .no⟩,
      ⟨'s', "squeeze-repeats", .no⟩, ⟨'t', "truncate-set1", .no⟩]
  withArguments s name 1 choices args (fun a =>
    let complement := a.has 'c' || a.has 'C'
    let omits := a.has 'd'
    let squeezes := a.has 's'
    let least := if omits = squeezes then 2 else 1
    let most := if omits && !squeezes then 1 else 2
    let wrong (text more : String) : Behaviour :=
      misused s name (text ++ more) 1
    if a.operands.length < least then
      match a.operands.getLast? with
      | none => wrong "missing operand" ""
      | some last => wrong ("missing operand after " ++ quoted last)
          ("\nTwo strings must be given when " ++
            (if squeezes then "both deleting and squeezing repeats." else "translating."))
    else if most < a.operands.length then
      wrong ("extra operand " ++ quoted (a.operands.getD most "")) (if a.operands.length = 2 then
        "\nOnly one string may be given when deleting without squeezing repeats." else "")
    else
      let p : Printer := { setting := s, name }
      let sets := a.operands.map readSet
      let go (next : Behaviour) : Behaviour := sets.foldr (fun (isOpen, _) next =>
        if isOpen then
          complain s name "warning: an unescaped backslash at end of string is not portable" next
        else next) next
      let fail (text : String) : Behaviour := go (complain s name text (exit 1))
      match sets.mapM (·.2) with
      | .error text => fail text
      | .ok parts =>
        let first := parts.headD []
        let second := parts.tail.headD []
        if first.any (·.isEndless) then
          fail "the [c*] repeat construct may not appear in string1"
        else if parts.length = 2 && !omits then
          match replacement complement (a.has 't') first second with
          | .error text => fail text
          | .ok replaced =>
            let squeezed := if squeezes then setBytes 256 second else []
            go (exchange p { replaced, squeezed })
        else if second.any (·.isEndless) then
          fail "the [c*] construct may appear in string2 only when translating"
        else
          let set := firstSet complement first
          go (exchange p (
            if omits then { omitted := set, squeezed := setBytes 0 second }
            else { squeezed := set }))) isOperand

end LangBundle.Utility
