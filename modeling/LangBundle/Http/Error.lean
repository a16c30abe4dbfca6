import LangBundle.Error

/-!
# Errors of the server

What goes wrong between a request and its answer, the text of it, and the status that it is answered
with: the caller's faults have a status below 500, everything else has one from 500 on.
-/

namespace LangBundle.Http

/-- Why a request, or the server itself, fails. -/
inductive Error where
  | build (e : BuildError)
  /-- The upload's body is malformed or incomplete. -/
  | multipart (status : Nat) (detail : String)
  /-- The declared size of the body is over the limit. -/
  | payloadTooLarge (actual limit : Nat)
  | io (path detail : String)
  /-- The address to listen at is none. -/
  | address (text : String)
  | response (detail : String)
  deriving Repr, DecidableEq

namespace Error

/-- The text of an error. -/
def message : Error → String
  | .build e => e.message
  | .multipart _ detail => "invalid multipart body: " ++ detail
  | .payloadTooLarge actual limit =>
    "request body of " ++ toString actual ++ " bytes exceeds the " ++ toString limit ++
      " byte limit"
  | .io path detail => "IO error at " ++ path ++ ": " ++ detail
  | .address text => "invalid address: " ++ text
  | .response detail => "response error: " ++ detail

/-- The status that an error is answered with. -/
def status : Error → Nat
  | .build e => if e.isRequestFault then 400 else 500
  | .multipart status _ => status
  | .payloadTooLarge .. => 413
  | .io .. | .address _ | .response _ => 500

end Error

end LangBundle.Http
