import LangBundle.Http.Message

/-!
# Media types

A media type is a type and a subtype with parameters behind them.  Only what an upload needs is
kept: whether it is a multipart form, and its boundary.
-/

namespace LangBundle.Http

open Text

/-- The characters of tokens. -/
def isTokenChar (c : Char) : Bool :=
  isAsciiAlphanumeric c || "!#$%&'*+-.^_|~".toList.contains c || c.toNat == 0x60

/-- A media type and its parameters; `subtype` stands without its suffix. -/
structure MediaType where
  type : String
  subtype : String
  parameters : List (String × String)
  deriving Repr, DecidableEq

namespace MediaType

/-- What stands between quotes, and the text behind the closing one.  A quote that comes first does
not close. -/
def quotedValue? : List Char → Option (List Char × List Char)
  | [] => none
  | first :: rest =>
    let isAllowed := fun c : Char => 0x1F < c.toNat && c.toNat != 0x7F
    if !isAllowed first then none
    else
      let inside := rest.takeWhile fun c => isAllowed c && c != '\x22'
      match rest.dropWhile fun c => isAllowed c && c != '\x22' with
      | '\x22' :: behind => some (first :: inside, behind)
      | _ => none

/-- The value at the beginning of a text, and the text behind the `;` that follows. -/
def value? (cs : List Char) : Option (List Char × List Char) :=
  match cs with
  | '\x22' :: rest => do
    let (value, behind) ← quotedValue? rest
    match behind.dropWhile (· == ' ') with
    | [] => some (value, [])
    | ';' :: behind => some (value, behind)
    | _ => none
  | _ =>
    match cs.takeWhile isTokenChar, cs.dropWhile isTokenChar with
    | value, [] => some (value, [])
    | c :: value, ';' :: behind => some (c :: value, behind)
    | _, _ => none

/-- The parameters that a text writes. -/
def parameters? : (fuel : Nat) → List Char → Option (List (String × String))
  | 0, _ => none
  | fuel + 1, cs =>
    match cs.dropWhile (· == ' ') with
    | [] => some []
    | cs =>
      match cs.takeWhile isTokenChar, cs.dropWhile isTokenChar with
      | c :: name, '=' :: rest => do
        let (value, behind) ← value? rest
        some ((String.ofList (c :: name), String.ofList value) :: (← parameters? fuel behind))
      | _, _ => none

/-- A subtype without the suffix behind its last plus sign; the first character is never one. -/
def withoutSuffix (subtype : List Char) : List Char :=
  match subtype.reverse.dropWhile (· != '+') with
  | _ :: c :: before => (c :: before).reverse
  | _ => subtype

/-- Reads a media type. -/
def ofText? (s : String) : Option MediaType :=
  match s.toList.takeWhile isTokenChar, s.toList.dropWhile isTokenChar with
  | c :: type, '/' :: rest =>
    let make (subtype : List Char) (parameters : List (String × String)) : MediaType :=
      ⟨String.ofList (c :: type), String.ofList (withoutSuffix subtype), parameters⟩
    match rest.takeWhile isTokenChar, rest.dropWhile isTokenChar with
    | subtype, [] => some (make subtype [])
    | d :: subtype, ';' :: behind =>
      (parameters? (behind.length + 1) behind).map (make (d :: subtype))
    | _, _ => none
  | _, _ => none

/-- The boundary of a multipart form. -/
def boundary? (m : MediaType) : Option String :=
  if lowerCase m.type = "multipart".toList ∧ lowerCase m.subtype = "form-data".toList then
    (m.parameters.find? fun p => lowerCase p.1 = "boundary".toList).map (·.2)
  else none

end MediaType

end LangBundle.Http
