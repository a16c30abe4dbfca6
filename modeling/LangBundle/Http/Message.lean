import LangBundle.Http.Error
import LangBundle.Workspace

/-!
# Requests and responses

A request's body arrives in pieces and may break off.  A response's body is either there already or
read from a file while it is sent; in the second case it owns the workspace that holds the file.
-/

namespace LangBundle.Http

open Files (Source Fault)

/-- A request. -/
structure Request where
  method : String := "POST"
  target : String := "/compile"
  headers : List (String × Bytes) := []
  /-- The pieces of the body in the order of their arrival. -/
  pieces : List Bytes := []
  /-- Whether the connection breaks behind the last piece. -/
  broken : Bool := false

/-- The bytes of a request's body that arrive. -/
def Request.body (r : Request) : Bytes :=
  r.pieces.flatten

/-- A text in lower-case letters, as far as they are ASCII. -/
def lowerCase (s : String) : List Char :=
  s.toList.map Char.toLower

/-- The first value of a header; names of headers have no case. -/
def Request.header? (r : Request) (name : String) : Option Bytes :=
  (r.headers.find? fun h => lowerCase h.1 = lowerCase name).map (·.2)

/-- A header's value as text, if it is visible ASCII. -/
def visible? (value : Bytes) : Option String :=
  if value.all fun b => (0x20 ≤ b && b < 0x7F) || b == 0x09 then
    some (String.ofList (value.map fun b => Char.ofNat b.toNat))
  else none

/-- A body that is read from a file while it is sent. -/
structure Download where
  source : Source
  /-- How much of the file has been read. -/
  offset : Nat := 0
  workspace : Workspace

namespace Download

/-- Reads the next piece, of at most `size` bytes; nothing at the end of the file. -/
def next (d : Download) (size : Nat) (h : Host) : Except Fault (Option Bytes × Download) := do
  let data ← h.files.readAll d.source
  let piece := (data.drop d.offset).take size
  if piece.isEmpty then return (none, d)
  else return (some piece, { d with offset := d.offset + piece.length })

/-- Ends the body, whether or not it was read to its end: its workspace is removed. -/
def drop (d : Download) (h : Host) : Host :=
  d.workspace.drop h

end Download

/-- The body of a response. -/
inductive Body where
  | bytes (data : Bytes)
  | download (d : Download)

namespace Body

/-- Everything that a body still holds. -/
def readAll (b : Body) (h : Host) : Except Fault Bytes :=
  match b with
  | .bytes data => .ok data
  | .download d => (h.files.readAll d.source).map (·.drop d.offset)

/-- Ends the body. -/
def drop (b : Body) (h : Host) : Host :=
  match b with
  | .bytes _ => h
  | .download d => d.drop h

end Body

/-- A response.  `length` is the declared length of the body, if one is declared. -/
structure Response where
  status : Nat
  headers : List (String × String) := []
  length : Option Nat := none
  body : Body := .bytes []

/-- The media type of plain text. -/
def plainText : String := "text/plain; charset=utf-8"

/-- A response that is a text. -/
def Response.text (status : Nat) (text : String) : Response :=
  { status, headers := [("content-type", plainText)], body := .bytes (Utf8.ofString text) }

/-- A response that declares the length of its body, if the body is there. -/
def Response.sized (r : Response) : Response :=
  match r.length, r.body with
  | none, .bytes data => { r with length := some data.length }
  | _, _ => r

/-- The response that an error turns into. -/
def Error.toResponse (e : Error) : Response :=
  .text e.status e.message

end LangBundle.Http
