import LangBundle.Http.MediaType
import LangBundle.Text.Quoted

/-!
# Multipart bodies

A multipart body is a row of parts with a boundary between them; each part has headers and data.
`Multipart.read` gives the parts that are complete, in their order, and how the row ends: well, or
with a fault behind the last complete part.
-/

namespace LangBundle.Http

open Text

/-- What a part's headers say about it. -/
structure PartHead where
  name : Option String
  fileName : Option String
  deriving Repr, DecidableEq

/-- A part that is complete. -/
structure Part where
  head : PartHead
  data : Bytes
  deriving Repr, DecidableEq

namespace Multipart

/-- Why a row of parts ends before its closing boundary. -/
inductive Fault where
  | incompleteStream
  | unreadableHeaders
  /-- A header's name is longer than names may be. -/
  | unreadableName (name : Bytes)
  /-- The data of a part has no end. -/
  | incompletePart (head : PartHead)
  deriving Repr, DecidableEq

/-- What is said about a body that is cut off or malformed. -/
def Fault.message : Fault → String
  | .incompleteStream => "incomplete multipart stream"
  | .unreadableHeaders => "failed to read headers"
  | .unreadableName name =>
    "failed to decode field's raw header name: " ++ quoted (Utf8.decodeLossy name)
  | .incompletePart head => "field " ++ quoted (head.name.getD "<unknown>") ++
      " received with incomplete data"

/-- Carriage return and line feed. -/
def crlf : Bytes := [0x0D, 0x0A]

/-- Cuts bytes at the first place where `mark` stands: what is before it, with the bytes `before`
(newest first) in front, and what is behind it. -/
def cutAfter? (mark : Bytes) (before : Bytes) : Bytes → Option (Bytes × Bytes)
  | [] => if mark.isEmpty then some (before.reverse, []) else none
  | b :: rest =>
    if mark.isPrefixOf (b :: rest) then some (before.reverse, (b :: rest).drop mark.length)
    else cutAfter? mark (b :: before) rest

/-- Cuts bytes at the first place where `mark` stands. -/
def cut? (mark bytes : Bytes) : Option (Bytes × Bytes) :=
  cutAfter? mark [] bytes

/-- The bytes behind `mark`, if they begin with it. -/
def behind? (mark bytes : Bytes) : Option Bytes :=
  if mark.isPrefixOf bytes then some (bytes.drop mark.length) else none

/-- The most headers that a part may have. -/
def maxHeaders : Nat := 32

/-- The longest name that a header may have. -/
def maxNameLength : Nat := 65535

/-- A byte of a header's name. -/
def isNameByte (b : UInt8) : Bool :=
  b < 0x80 && isTokenChar (Char.ofNat b.toNat)

/-- A byte of a header's value. -/
def isValueByte (b : UInt8) : Bool :=
  b == 0x09 || (0x20 ≤ b && b != 0x7F)

/-- A blank within a line. -/
def isBlankByte (b : UInt8) : Bool :=
  b == 0x20 || b == 0x09

/-- Bytes without the blanks at their end. -/
def trimEnd (bytes : Bytes) : Bytes :=
  (bytes.reverse.dropWhile isBlankByte).reverse

/-- The bytes behind a line end, which a carriage return may begin. -/
def lineEnd? : Bytes → Option Bytes
  | 0x0D :: 0x0A :: rest => some rest
  | 0x0A :: rest => some rest
  | _ => none

/-- The headers of a block up to its first empty line, at most `most` of them. -/
def headers? : (most : Nat) → Bytes → Option (List (Bytes × Bytes))
  | most, bytes =>
    match lineEnd? bytes with
    | some _ => some []
    | none =>
      match most with
      | 0 => none
      | most + 1 =>
        match bytes.takeWhile isNameByte, bytes.dropWhile isNameByte with
        | n :: name, 0x3A :: rest => do
          let rest := rest.dropWhile isBlankByte
          let next ← lineEnd? (rest.dropWhile isValueByte)
          some ((n :: name, trimEnd (rest.takeWhile isValueByte)) :: (← headers? most next))
        | _, _ => none

/-- A header's value; the last header of a name counts. -/
def header? (headers : List (Bytes × Bytes)) (name : String) : Option Bytes :=
  let lower (b : UInt8) : UInt8 := if 0x41 ≤ b && b ≤ 0x5A then b + 0x20 else b
  (headers.reverse.find? fun h => h.1.map lower = Utf8.ofString name).map (·.2)

/-- ASCII white space. -/
def isSpaceByte (b : UInt8) : Bool :=
  b == 0x20 || b == 0x09 || b == 0x0A || b == 0x0C || b == 0x0D

/-- What stands up to the first quote that no backslash precedes; the flag says that a preceded one
was met. -/
def untilQuote? (escaped : Bool) (before : Bytes) : Bytes → Option (Bytes × Bool)
  | [] => none
  | 0x5C :: 0x22 :: rest => untilQuote? true (0x22 :: 0x5C :: before) rest
  | 0x22 :: _ => some (before.reverse, escaped)
  | b :: rest => untilQuote? escaped (b :: before) rest

/-- Every quote that a backslash precedes loses the backslash. -/
def unescape : Bytes → Bytes
  | 0x5C :: 0x22 :: rest => 0x22 :: unescape rest
  | b :: rest => b :: unescape rest
  | [] => []

/-- The value behind an attribute's name. -/
def attributeValue? (bytes : Bytes) : Option Bytes :=
  match bytes.dropWhile isSpaceByte with
  | 0x3D :: rest =>
    match rest.dropWhile isSpaceByte with
    | 0x22 :: rest => do
      let (value, escaped) ← untilQuote? false [] rest
      some (if escaped then unescape value else value)
    | rest => some (rest.takeWhile fun b => b != 0x3B && b != 0x20)
  | _ => none

/-- The value of the first attribute with a name.  The name counts only at the beginning, or behind
white space or a semicolon; what is rejected is cut away with everything before it. -/
def attribute? (name : Bytes) : (fuel : Nat) → Bytes → Option Bytes
  | 0, _ => none
  | fuel + 1, bytes =>
    match cut? name bytes with
    | none => none
    | some (before, behind) =>
      match before.getLast? with
      | none => attributeValue? behind
      | some b =>
        if isSpaceByte b || b == 0x3B then attributeValue? behind
        else attribute? name fuel behind

/-- What the headers of a part say about it. -/
def headOf (headers : List (Bytes × Bytes)) : PartHead :=
  let disposition := header? headers "content-disposition"
  let get (name : String) : Option String := do
    let bytes ← disposition
    Utf8.decode? (← attribute? (Utf8.ofString name) (bytes.length + 1) bytes)
  ⟨get "name", get "filename"⟩

/-- Reads parts behind a boundary, onto the parts `before` (newest first). -/
def readAfter (boundary : Bytes) : (fuel : Nat) → (before : List Part) → Bytes →
    List Part × Option Fault
  | 0, before, _ => (before.reverse, some .incompleteStream)
  | fuel + 1, before, bytes =>
    if [0x2D, 0x2D].isPrefixOf bytes then (before.reverse, none)
    else match behind? crlf (bytes.dropWhile isBlankByte) with
      | none => (before.reverse, some .incompleteStream)
      | some bytes =>
        match cut? (crlf ++ crlf) bytes with
        | none => (before.reverse, some .incompleteStream)
        | some (block, bytes) =>
          match headers? maxHeaders (block ++ crlf ++ crlf) with
          | none => (before.reverse, some .unreadableHeaders)
          | some headers =>
            let head := headOf headers
            match headers.find? (maxNameLength < ·.1.length) with
            | some (name, _) => (before.reverse, some (.unreadableName name))
            | none =>
              match cut? (crlf ++ boundary) bytes with
              | none => (before.reverse, some (.incompletePart head))
              | some (data, bytes) => readAfter boundary fuel (⟨head, data⟩ :: before) bytes

/-- The parts of a body, and the fault behind them if the body does not end well. -/
def read (boundary : String) (body : Bytes) : List Part × Option Fault :=
  let mark := Utf8.ofString ("--" ++ boundary)
  match cut? mark body with
  | none => ([], some .incompleteStream)
  | some (_, bytes) => readAfter mark (bytes.length + 1) [] bytes

end Multipart

end LangBundle.Http
