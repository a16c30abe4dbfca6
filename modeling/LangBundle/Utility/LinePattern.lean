import LangBundle.Text.Classes

/-!
# Patterns that are looked for in lines

A pattern says from which positions of a line one gets to which others: `ends` follows a pattern
from several positions at once, so a part that can be repeated in many ways costs no more than the
line has positions.  Between two characters stand edges, which take up no room.  A group remembers
where it was found, so that the same text can be asked for again.
-/

namespace LangBundle.Utility

/-- A place between characters. -/
inductive Edge where
  | start
  | finish
  | wordStart
  | wordEnd
  | wordEdge
  | noWordEdge
  deriving Repr, DecidableEq

/-- A pattern. -/
inductive LinePattern where
  | nothing
  | empty
  /-- One character of some ranges, or one of none of them. -/
  | one (ranges : List (Char × Char)) (negated : Bool)
  | edge (e : Edge)
  | sequence (p q : LinePattern)
  | either (p q : LinePattern)
  | many (p : LinePattern)
  | group (number : Nat) (p : LinePattern)
  /-- The text of a group once more. -/
  | same (number : Nat)
  deriving Repr, DecidableEq

/-- A position in a line, and where groups were found. -/
structure Cursor where
  position : Nat
  groups : List (Nat × Nat × Nat) := []
  deriving Repr, DecidableEq

/-- A line that is searched; `folds` says that small and capital letters are the same. -/
structure Searched where
  line : Array Char
  folds : Bool := false

/-- The characters of words. -/
def isWordChar (c : Char) : Bool :=
  Text.isAsciiAlphanumeric c || c == '_'

namespace Searched

/-- Whether the character at a position belongs to a word. -/
def isWordAt (s : Searched) (position : Nat) : Bool :=
  (s.line[position]?.map isWordChar).getD false

/-- Whether the character before a position belongs to a word. -/
def isWordBefore (s : Searched) (position : Nat) : Bool :=
  match position with
  | 0 => false
  | n + 1 => s.isWordAt n

/-- Whether an edge is at a position. -/
def hasEdge (s : Searched) (position : Nat) : Edge → Bool
  | .start => position == 0
  | .finish => position == s.line.size
  | .wordStart => !s.isWordBefore position && s.isWordAt position
  | .wordEnd => s.isWordBefore position && !s.isWordAt position
  | .wordEdge => s.isWordBefore position != s.isWordAt position
  | .noWordEdge => s.isWordBefore position == s.isWordAt position

/-- The other letter of a pair of a small and a capital one. -/
def otherCase (c : Char) : Char :=
  if c.isUpper then c.toLower else c.toUpper

/-- Whether a character is in ranges. -/
def accepts (s : Searched) (ranges : List (Char × Char)) (c : Char) : Bool :=
  let isIn (c : Char) : Bool := ranges.any fun (low, high) => low ≤ c && c ≤ high
  isIn c || s.folds && isIn (otherCase c)

/-- Whether two parts of the line are the same. -/
def agree (s : Searched) (first second : Nat) : (length : Nat) → Bool
  | 0 => true
  | length + 1 =>
    match s.line[first]?, s.line[second]? with
    | some a, some b => (a = b || s.folds && otherCase a = b) && s.agree (first + 1) (second + 1) length
    | _, _ => false

end Searched

namespace LinePattern

/-- Follows a step again and again from new cursors until no new one is found. -/
def closure (step : List Cursor → List Cursor) : (fuel : Nat) → (found new : List Cursor) →
    List Cursor
  | 0, found, _ => found
  | fuel + 1, found, new =>
    match (step new).filter fun c => !found.contains c with
    | [] => found
    | next => closure step fuel (found ++ next) next

/-- The cursors to which a pattern leads, each once. -/
def ends (s : Searched) : LinePattern → List Cursor → List Cursor
  | nothing, _ => []
  | empty, cs => cs
  | one ranges negated, cs => cs.filterMap fun c =>
    match s.line[c.position]? with
    | some char =>
      if s.accepts ranges char != negated then some { c with position := c.position + 1 } else none
    | none => none
  | edge e, cs => cs.filter fun c => s.hasEdge c.position e
  | sequence p q, cs => q.ends s (p.ends s cs)
  | either p q, cs => (p.ends s cs ++ q.ends s cs).eraseDups
  | many p, cs => closure (fun new => (p.ends s new).eraseDups) (s.line.size + 1) cs cs
  | group number p, cs => cs.flatMap fun c =>
    (p.ends s [c]).map fun e =>
      { e with groups := (number, c.position, e.position) ::
          e.groups.filter (·.1 != number) }
  | same number, cs => cs.filterMap fun c =>
    match c.groups.lookup number with
    | some (first, last) =>
      if s.agree first c.position (last - first) then
        some { c with position := c.position + (last - first) }
      else none
    | none => none

/-- The positions up to which a pattern reaches from a position. -/
def reaches (p : LinePattern) (s : Searched) (position : Nat) : List Nat :=
  (p.ends s [{ position }]).map (·.position)

/-- Whether a pattern is found anywhere. -/
def isFound (p : LinePattern) (s : Searched) : Bool :=
  !(p.ends s ((List.range (s.line.size + 1)).map fun position => { position })).isEmpty

/-- Whether a pattern describes the line from its beginning to its end. -/
def isWhole (p : LinePattern) (s : Searched) : Bool :=
  (p.reaches s 0).contains s.line.size

/-- The first place from a position on where a pattern is found between two positions that are
wanted, and as long as possible. -/
def first? (p : LinePattern) (s : Searched) (isWanted : Nat → Nat → Bool) :
    (fuel : Nat) → (position : Nat) → Option (Nat × Nat)
  | 0, _ => none
  | fuel + 1, position =>
    if s.line.size < position then none
    else match (p.reaches s position).filter (isWanted position) with
      | [] => first? p s isWanted fuel (position + 1)
      | e :: es => some (position, es.foldl max e)

/-- A pattern as often as wanted. -/
def repeated (p : LinePattern) (least : Nat) (most : Option Nat) : LinePattern :=
  let tail := match most with
    | none => many p
    | some most => (List.replicate (most - least) p).foldl (fun t p => either empty (sequence p t)) empty
  (List.replicate least p).foldl (fun t p => sequence p t) tail

/-- The pattern of a text that stands for itself. -/
def ofLiteral (cs : List Char) : LinePattern :=
  cs.foldr (fun c p => sequence (one [(c, c)] false) p) empty

end LinePattern

end LangBundle.Utility
