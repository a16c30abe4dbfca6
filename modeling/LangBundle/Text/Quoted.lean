import LangBundle.Text.Unseen

/-!
# Texts between quotes

Two ways to write a text between double quotes: `quoted` shows every character that cannot be seen
by its number, and `json` follows the JSON format.
-/

namespace LangBundle.Text

/-- The hexadecimal digits of a number, filled up with zeros to a width. -/
def hex (width n : Nat) : String :=
  let ds := Nat.toDigits 16 n
  String.ofList (List.replicate (width - ds.length) '0' ++ ds)

/-- One character between quotes; what is not seen is shown by its number. -/
def quotedChar (c : Char) : String :=
  match c with
  | '\x22' => "\\\""
  | '\x5c' => "\\\\"
  | '\n' => "\\n"
  | '\r' => "\\r"
  | '\t' => "\\t"
  | '\x00' => "\\0"
  | _ => if isUnseen c then "\\u\x7b" ++ hex 0 c.toNat ++ "\x7d" else c.toString

/-- A text between quotes, what is not seen in it shown by numbers. -/
def quoted (s : String) : String :=
  "\"" ++ String.join (s.toList.map quotedChar) ++ "\""

/-- One character of a JSON string. -/
def jsonChar (c : Char) : String :=
  match c with
  | '\x22' => "\\\""
  | '\x5c' => "\\\\"
  | '\n' => "\\n"
  | '\r' => "\\r"
  | '\t' => "\\t"
  | '\x08' => "\\b"
  | '\x0c' => "\\f"
  | _ => if c.toNat < 0x20 then "\\u" ++ hex 4 c.toNat else c.toString

/-- A text as a JSON string. -/
def json (s : String) : String :=
  "\"" ++ String.join (s.toList.map jsonChar) ++ "\""

end LangBundle.Text
