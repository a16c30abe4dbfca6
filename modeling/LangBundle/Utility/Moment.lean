import LangBundle.Text.Integer

/-!
# Dates and times as they are written

Only whether a text writes a moment is asked for; no program of the system shows a moment that a
user gave.
-/

namespace LangBundle.Utility.Moment

open Text

/-- The days of a month. -/
def daysOf (year month : Nat) : Nat :=
  if month = 2 then
    if year % 4 = 0 && (year % 100 != 0 || year % 400 = 0) then 29 else 28
  else if [4, 6, 9, 11].contains month then 30
  else 31

/-- Whether there is such a day. -/
def isDay (year month day : Nat) : Bool :=
  1 ≤ month && month ≤ 12 && 1 ≤ day && day ≤ daysOf year month

/-- Whether there is such a time of day. -/
def isTime (hour minute second : Nat) : Bool :=
  hour < 24 && minute < 60 && second ≤ 60

/-- Whether a text writes a moment as two digits each for month, day, hour and minute, perhaps with
the year in front and seconds behind a point. -/
def isStamp (text : String) : Bool :=
  let digitsAt (cs : List Char) (start count : Nat) : Nat :=
    (decimal? ((cs.drop start).take count)).getD 0
  let cs := text.toList.takeWhile (· != '.')
  let behind := text.toList.drop cs.length
  let second? := match behind with
    | [] => some 0
    | ['.', _, _] => decimal? (behind.drop 1)
    | _ => none
  let yearDigits := cs.length - 8
  match second?, decimal? cs with
  | some second, some _ =>
    let rest := cs.drop yearDigits
    [8, 10, 12].contains cs.length &&
      isDay (if yearDigits = 0 then 1 else digitsAt cs 0 yearDigits) (digitsAt rest 0 2)
        (digitsAt rest 2 2) &&
      isTime (digitsAt rest 4 2) (digitsAt rest 6 2) second
  | _, _ => false

/-- The words that stand in texts about moments. -/
def words : List String :=
  ["january", "february", "march", "april", "may", "june", "july", "august", "september", "sept",
    "october", "november", "december", "sunday", "monday", "tuesday", "tues", "wednesday", "wednes",
    "thursday", "thur", "thurs", "friday", "saturday", "am", "pm", "dst", "year", "month",
    "fortnight", "week", "day", "hour", "minute", "min", "second", "sec", "tomorrow", "yesterday",
    "today", "now", "last", "this", "next", "first", "third", "fourth", "fifth", "sixth", "seventh",
    "eighth", "ninth", "tenth", "eleventh", "twelfth", "ago", "gmt", "ut", "utc", "wet", "west",
    "bst", "cet", "cest", "met", "mez", "mest", "mesz", "eet", "eest", "est", "edt", "cst", "cdt",
    "mst", "mdt", "pst", "pdt", "msk", "msd", "ist", "jst", "nzst", "nzdt"]

/-- Whether a word belongs to a text about a moment: it may be cut to three letters, or have an `s`
behind it. -/
def isWord (word : List Char) : Bool :=
  match word with
  | [c] => c != 'j'
  | _ =>
    let known := words.map String.toList
    known.contains word || known.any (·.take 3 == word) ||
      word.getLast? == some 's' && known.contains word.dropLast

/-- The parts of a text: its numbers, its words and single signs. -/
def parts : (fuel : Nat) → List Char → List (List Char)
  | 0, _ | _, [] => []
  | fuel + 1, c :: rest =>
    let row (is : Char → Bool) : List (List Char) :=
      (c :: rest.takeWhile is) :: parts fuel (rest.dropWhile is)
    if c.isDigit then row Char.isDigit
    else if c.isAlpha then row Char.isAlpha
    else if isGap c then parts fuel rest
    else [c] :: parts fuel rest

/-- Whether parts of a text may follow each other. -/
def isFine : List (List Char) → Bool
  | [] => true
  | year :: ['-'] :: month :: ['-'] :: day :: rest =>
    match decimal? year, decimal? month, decimal? day with
    | some y, some m, some d => isDay y m d && isFine rest
    | _, _, _ => false
  | hour :: [':'] :: minute :: rest =>
    match decimal? hour, decimal? minute with
    | some h, some m => isTime h m 0 && isFine rest
    | _, _ => false
  | part :: rest =>
    match part with
    | c :: _ => (if c.isAlpha then isWord part else if c.isDigit then part.length < 19
        else ['@', '+', '-', ',', '.', '/', ':'].contains c) && isFine rest
    | [] => isFine rest

/-- Whether a text writes a moment. -/
def isMoment (text : String) : Bool :=
  isFine (parts (text.length + 1) (text.toList.map Char.toLower))

end LangBundle.Utility.Moment
