import LangBundle.Text.Classes
import LangBundle.Text.Octets

/-!
# How messages show names

A name stands between single quotes in a message; where the message could be read without them, only
a name that needs quotes has them.  What is not printed stands as an escape of its own.
-/

namespace LangBundle.Utility

/-- The octal digits of a byte. -/
def octalDigits (n : Nat) : List Char :=
  let ds := Nat.toDigits 8 n
  List.replicate (3 - ds.length) '0' ++ ds

/-- What stands for a character that is not printed. -/
def escapeOf (c : Char) : List Char :=
  match c with
  | '\x07' => ['\x5c', 'a']
  | '\x08' => ['\x5c', 'b']
  | '\x0c' => ['\x5c', 'f']
  | '\n' => ['\x5c', 'n']
  | '\r' => ['\x5c', 'r']
  | '\t' => ['\x5c', 't']
  | '\x0b' => ['\x5c', 'v']
  | c => '\x5c' :: octalDigits c.toNat

/-- Whether a character is printed. -/
def isPrinted (c : Char) : Bool :=
  0x20 ≤ c.toNat && c.toNat < 0x7F

/-- The characters that keep their meaning also between double quotes. -/
def isPlain (c : Char) : Bool :=
  Text.isAsciiAlphanumeric c ||
    ['+', ',', '-', '.', '/', ':', ']', '_', '%', '@', ' ', '#', '~', '\x27'].contains c

/-- Text between single quotes; `escaping` says that an escape comes before. -/
def quotedFrom (escaping : Bool) : List Char → List Char
  | [] => ['\x27']
  | c :: rest =>
    if isPrinted c then
      (if escaping then ['\x27', '\x27'] else []) ++
        (if c = '\x27' then ['\x27', '\x5c', '\x27', '\x27'] else [c]) ++ quotedFrom false rest
    else (if escaping then [] else ['\x27', '$', '\x27']) ++ escapeOf c ++ quotedFrom true rest

/-- A name between quotes. -/
def quoted (name : String) : String :=
  let cs := name.toList
  if cs.contains '\x27' && cs.all isPlain then "\"" ++ name ++ "\""
  else String.ofList ('\x27' :: quotedFrom false cs)

/-- Whether a name has to stand between quotes; `colon` says that a colon follows it. -/
def needsQuotes (colon : Bool) (name : String) : Bool :=
  let cs := name.toList
  let special (c : Char) : Bool :=
    !isPrinted c || (colon && c == ':') ||
      [' ', '!', '\x22', '$', '&', '\x27', '(', ')', '*', ';', '<', '=', '>', '?', '[', '\x5c',
        '^', '\x60', '|'].contains c
  cs.isEmpty || cs.any special || cs.head? = some '#' || cs.head? = some '~' ||
    cs = ['\x7b'] || cs = ['\x7d']

/-- A name in front of a colon. -/
def shown (name : String) : String :=
  if needsQuotes true name then quoted name else name

/-! ## Names in listings -/

/-- How a name stands in a listing. -/
inductive NameStyle where
  | literal
  /-- With question marks for what is not printed. -/
  | masked
  /-- As a word of the shell, between quotes always or only where it needs them; `escaping` says
  whether what is not printed stands as an escape. -/
  | shell (escaping always : Bool)
  /-- Between double quotes, always or only where there is an escape. -/
  | double (always : Bool)
  /-- Between single quotes. -/
  | single
  /-- With escapes and without quotes. -/
  | escape
  deriving Repr, DecidableEq

namespace NameStyle

/-- A text with escapes for what is not printed and for some characters. -/
def escaped (special : List Char) (cs : List Char) : List Char :=
  cs.flatMap fun c =>
    if special.contains c then ['\x5c', c] else if isPrinted c then [c] else escapeOf c

/-- A name between the quotes of the shell, in which everything stands for itself. -/
def enclosed (name : String) : String :=
  let cs := name.toList
  if cs.contains '\x27' && cs.all isPlain then "\"" ++ name ++ "\""
  else String.ofList ('\x27' :: cs.flatMap (fun c =>
    if c = '\x27' then ['\x27', '\x5c', '\x27', '\x27'] else [c]) ++ ['\x27'])

/-- A name as it stands in a listing. -/
def text (style : NameStyle) (name : String) : String :=
  let cs := name.toList
  let between (quote : Char) (special : List Char) : String :=
    String.ofList (quote :: escaped special cs ++ [quote])
  match style with
  | literal => name
  | masked => String.ofList (cs.map fun c => if isPrinted c then c else '?')
  | shell true always => if always || needsQuotes false name then quoted name else name
  | shell false always =>
    let printed := String.ofList (cs.filter fun c => isPrinted c || c == '\n' || c == '\t')
    if always || needsQuotes false printed then enclosed name else name
  | double always =>
    if always || cs.any fun c => !isPrinted c || c == '\x22' then between '\x22' ['\x22', '\x5c']
    else name
  | single => between '\x27' ['\x27', '\x5c']
  | escape => String.ofList (escaped [' ', '\x5c'] cs)

end NameStyle

end LangBundle.Utility
