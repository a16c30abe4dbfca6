import LangBundle.Http.Error
import LangBundle.Text.Classes

/-!
# Addresses to listen at

An address is an IP address and a port: `a.b.c.d:p`, or `[v6]:p`, where the brackets may also hold a
zone.  Names of hosts are no addresses.
-/

namespace LangBundle.Http

open Text

/-- An IP address. -/
inductive IpAddress where
  | v4 (octets : List Nat)
  /-- Eight groups, and the zone the address is local to. -/
  | v6 (groups : List Nat) (zone : Nat)
  deriving Repr, DecidableEq

/-- An address with a port. -/
structure ListenAddress where
  ip : IpAddress
  port : Nat
  deriving Repr, DecidableEq

namespace ListenAddress

/-- Where the server listens if nothing else is said. -/
def defaultHost : String := "127.0.0.1"

/-- The port at which the server listens if nothing else is said. -/
def defaultPort : Nat := 9657

/-- The value of a digit in base 10 or 16. -/
def digitIn? (base : Nat) (c : Char) : Option Nat :=
  let n := if '0' ≤ c && c ≤ '9' then some (c.toNat - '0'.toNat)
    else if 'a' ≤ c && c ≤ 'f' then some (c.toNat - 'a'.toNat + 10)
    else if 'A' ≤ c && c ≤ 'F' then some (c.toNat - 'A'.toNat + 10)
    else none
  n.filter (· < base)

/-- The number at the beginning of a text: at least one digit, the value at most `most`. -/
def number? (base most : Nat) (cs : List Char) : Option (Nat × List Char) :=
  let isDigit := fun c => (digitIn? base c).isSome
  let digits := cs.takeWhile isDigit
  let value := digits.foldl (fun n c => n * base + (digitIn? base c).getD 0) 0
  if digits.isEmpty || most < value then none else some (value, cs.dropWhile isDigit)

/-- An octet: at most three digits, without needless zeros. -/
def octet? (cs : List Char) : Option (Nat × List Char) := do
  let (n, rest) ← number? 10 255 cs
  let width := cs.length - rest.length
  if 3 < width ∨ (1 < width ∧ cs.head? = some '0') then none else some (n, rest)

/-- The text behind a character. -/
def behind? (c : Char) : List Char → Option (List Char)
  | d :: rest => if c = d then some rest else none
  | [] => none

/-- Four octets with dots between them. -/
def octets? (cs : List Char) : Option (List Nat × List Char) := do
  let (a, cs) ← octet? cs
  let (b, cs) ← octet? (← behind? '.' cs)
  let (c, cs) ← octet? (← behind? '.' cs)
  let (d, cs) ← octet? (← behind? '.' cs)
  some ([a, b, c, d], cs)

/-- A group: one to four hexadecimal digits. -/
def group? (cs : List Char) : Option (Nat × List Char) := do
  let (n, rest) ← number? 16 0xFFFF cs
  if 4 < cs.length - rest.length then none else some (n, rest)

/-- As many groups as there are, at most `most`, with colons between them; four octets may stand for
the last two.  The flag says that they do. -/
def groups : (most : Nat) → (first : Bool) → List Char → List Nat × Bool × List Char
  | 0, _, cs => ([], false, cs)
  | most + 1, first, cs =>
    match if first then some cs else behind? ':' cs with
    | none => ([], false, cs)
    | some body =>
      match (if most = 0 then none else octets? body), group? body with
      | some ([a, b, c, d], rest), _ => ([a * 256 + b, c * 256 + d], true, rest)
      | _, some (n, rest) =>
        let (more, octets, rest) := groups most false rest
        (n :: more, octets, rest)
      | _, none => ([], false, cs)

/-- Eight groups; `::` stands once for as many zero groups as are missing, at least one. -/
def eightGroups? (cs : List Char) : Option (List Nat × List Char) := do
  let (head, octets, rest) := groups 8 true cs
  if head.length = 8 then some (head, rest)
  else if octets then none
  else
    let (tail, _, rest) := groups (7 - head.length) true (← behind? ':' (← behind? ':' rest))
    some (head ++ List.replicate (8 - head.length - tail.length) 0 ++ tail, rest)

/-- The zone behind a percent sign. -/
def zone? (cs : List Char) : Option (Nat × List Char) :=
  match cs with
  | '%' :: rest => number? 10 0xFFFFFFFF rest
  | _ => some (0, cs)

/-- The IP address at the beginning of a text that goes on with a port. -/
def ip? (cs : List Char) : Option (IpAddress × List Char) :=
  match octets? cs with
  | some (octets, rest) => some (.v4 octets, rest)
  | none => do
    let (groups, rest) ← eightGroups? (← behind? '[' cs)
    let (zone, rest) ← zone? rest
    some (.v6 groups zone, ← behind? ']' rest)

/-- Reads an address with a port. -/
def ofText? (s : String) : Option ListenAddress := do
  let (ip, rest) ← ip? s.toList
  match ← number? 10 65535 (← behind? ':' rest) with
  | (port, []) => some ⟨ip, port⟩
  | _ => none

/-- The address that a host and a port mean. -/
def resolve (host : String) (port : Nat) : Except Error ListenAddress :=
  let text := host ++ ":" ++ toString port
  match ofText? text with
  | some address => .ok address
  | none => .error (.address text)

end ListenAddress

end LangBundle.Http
