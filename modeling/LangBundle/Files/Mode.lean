import LangBundle.Text.Integer

/-!
# Changing permission bits

A mode is written in octal, or as clauses with commas between them: for whom, how, and which bits.
-/

namespace LangBundle.Files.Mode

/-- The places of the bits of the owner, the group and all others. -/
def shifts (who : List Char) : List Nat :=
  let all := who.isEmpty || who.contains 'a'
  [('u', 6), ('g', 3), ('o', 0)].filterMap fun (c, shift) =>
    if all || who.contains c then some shift else none

/-- The bits that a letter names for some. -/
def bitsOf? (who : List Char) (isDirectory : Bool) (old : Nat) (letter : Char) : Option Nat :=
  let each (bit : Nat) : Nat := ((shifts who).map fun shift => bit <<< shift).foldl (· + ·) 0
  let copied (shift : Nat) : Nat := each ((old >>> shift) % 8)
  match letter with
  | 'r' => some (each 4)
  | 'w' => some (each 2)
  | 'x' => some (each 1)
  | 'X' => some (if isDirectory || old &&& 0o111 != 0 then each 1 else 0)
  | 's' =>
    some ((if (shifts who).contains 6 then 0o4000 else 0) +
      if (shifts who).contains 3 then 0o2000 else 0)
  | 't' => some 0o1000
  | 'u' => some (copied 6)
  | 'g' => some (copied 3)
  | 'o' => some (copied 0)
  | _ => none

/-- Carries out what stands behind the letters for whom, from one sign to the next. -/
def actions? (mask : Nat) (who : List Char) (isDirectory : Bool) : (fuel : Nat) → List Char →
    (old : Nat) → Option Nat
  | 0, _, _ => none
  | fuel + 1, cs, old =>
    match cs with
    | [] => some old
    | sign :: rest =>
      if ['+', '-', '='].contains sign then do
        let letters := rest.takeWhile fun c => c != '+' && c != '-' && c != '='
        let bits ← letters.mapM (bitsOf? who isDirectory old)
        let bits := bits.foldl (· ||| ·) 0
        let bits := if who.isEmpty then bits - (bits &&& mask) else bits
        let owned := ((shifts who).map fun shift => 7 <<< shift).foldl (· + ·) 0
        let new := match sign with
          | '+' => old ||| bits
          | '-' => old - (old &&& bits)
          | _ => (old - (old &&& owned)) ||| bits
        actions? mask who isDirectory fuel (rest.drop letters.length) new
      else none

/-- Carries out one clause. -/
def clause? (mask : Nat) (isDirectory : Bool) (old : Nat) (text : String) : Option Nat :=
  let cs := text.toList
  let isWho (c : Char) : Bool := ['u', 'g', 'o', 'a'].contains c
  match cs.dropWhile isWho with
  | [] => none
  | rest => actions? mask (cs.takeWhile isWho) isDirectory (rest.length + 1) rest old

/-- The mode that a text makes of another one. -/
def changed? (mask : Nat) (isDirectory : Bool) (old : Nat) (text : String) : Option Nat :=
  let cs := text.toList
  if !cs.isEmpty && cs.all fun c => (Text.digitOf? 8 c).isSome then
    let n := (Text.digits 8 0 cs).1
    if n ≤ 0o7777 then some n else none
  else (Text.split ',' text).foldlM (clause? mask isDirectory) old

end LangBundle.Files.Mode
