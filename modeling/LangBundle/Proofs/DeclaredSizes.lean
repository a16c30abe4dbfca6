import LangBundle.Proofs.Answers

/-!
# The size that a request declares

A request may say in decimal digits how long its body is.  The server reads the digits into a
machine word and refuses the request before anything else is done if the number is over the limit.
A number that is too large for the word is treated as if nothing was declared.

* `Text.digitsUpTo_digits`: **digits** that are read into a word.
* `Http.Request.DeclaresSize.declaredSize?_eq`: **the size** that is declared, if it fits.
* `Http.Server.SizeChecked`: what becomes of a request by the number that it declares;
  `Http.Server.sizeChecked_of_declares`: **every request** is checked like that.
* `Http.Server.not_refused_of_long`: a number that **does not fit** is over every limit, and passes.
-/

namespace LangBundle

/-! ## Digits -/

namespace Text

/-- The number that decimal digits denote, behind a number that is there already. -/
def numberFrom (value : Nat) (digits : List (Fin 10)) : Nat :=
  digits.foldl (fun n d => n * 10 + d) value

/-- The character of a digit. -/
def digitChar (d : Fin 10) : Char :=
  Char.ofNat (0x30 + d)

theorem digit?_digitChar (d : Fin 10) : digit? (digitChar d) = some d.val := by
  revert d
  decide

theorem digitChar_ne_plus (d : Fin 10) : digitChar d ≠ '+' := by
  revert d
  decide

theorem le_numberFrom (value : Nat) (digits : List (Fin 10)) : value ≤ numberFrom value digits := by
  induction digits generalizing value with
  | nil => exact Nat.le_refl value
  | cons d rest ih => exact Nat.le_trans (by omega) (ih (value * 10 + d))

/-- **Digits** are read as the number that they denote, if that is not too large. -/
theorem digitsUpTo_digits {most value : Nat} (tooFar : NumberFault) (hvalue : value ≤ most)
    (digits : List (Fin 10)) :
    digitsUpTo most tooFar value (digits.map digitChar) =
      if numberFrom value digits ≤ most then .ok (numberFrom value digits) else .error tooFar := by
  induction digits generalizing value with
  | nil => exact (if_pos hvalue).symm
  | cons d rest ih =>
    rw [List.map_cons, digitsUpTo, digit?_digitChar]
    dsimp only
    split
    · next hover =>
      -- what is too large already only grows
      have hgrows := le_numberFrom (value * 10 + d) rest
      exact (if_neg (Nat.not_le_of_lt (Nat.lt_of_lt_of_le hover hgrows))).symm
    · next hfits => exact ih (Nat.le_of_not_lt hfits)

theorem unsigned_digits {digits : List (Fin 10)} (hne : digits ≠ []) :
    unsigned (String.ofList (digits.map digitChar)) =
      if numberFrom 0 digits ≤ maxUnsigned then .ok (numberFrom 0 digits) else .error .tooLarge := by
  obtain ⟨d, rest, rfl⟩ := List.exists_cons_of_ne_nil hne
  rw [← digitsUpTo_digits .tooLarge (Nat.zero_le maxUnsigned), unsigned, String.toList_ofList,
    List.map_cons]
  split
  · next h => cases h
  · next h => exact absurd (List.cons.inj h).1 (digitChar_ne_plus d)
  · next h => exact absurd (List.cons.inj h).1 (digitChar_ne_plus d)
  · rfl

end Text

namespace Http

open Text (digitChar numberFrom maxUnsigned)

/-! ## The header -/

/-- The byte of a digit. -/
def digitByte (d : Fin 10) : UInt8 :=
  UInt8.ofNat (0x30 + d.val)

/-- A request has one header that tells the length of its body, and that header denotes a number in
decimal digits. -/
def Request.DeclaresSize (r : Request) (n : Nat) : Prop :=
  ∃ name digits, digits ≠ [] ∧
    r.headers.filter (fun h => lowerCase h.1 = lowerCase "content-length") =
      [(name, digits.map digitByte)] ∧
    numberFrom 0 digits = n

/-- A request to compile. -/
structure Request.AsksCompile (r : Request) : Prop where
  method : r.method = "POST"
  path : Server.pathOf r.target = "/compile"

section
variable {r : Request} {n : Nat}

theorem visible?_digits (digits : List (Fin 10)) :
    visible? (digits.map digitByte) =
      some (String.ofList (digits.map digitChar)) := by
  have hvisible (d : Fin 10) :
      ((0x20 ≤ digitByte d && digitByte d < 0x7F) || digitByte d == 0x09) = true := by
    revert d
    decide
  have hchar (d : Fin 10) : Char.ofNat (digitByte d).toNat = digitChar d := by
    revert d
    decide
  rw [visible?, if_pos (by simpa using fun d _ => hvisible d), List.map_map]
  simp only [Function.comp_def, hchar]

/-- **The size** that is declared is the number, if that fits into the word. -/
theorem Request.DeclaresSize.declaredSize?_eq (h : r.DeclaresSize n) :
    Server.declaredSize? r = if n ≤ maxUnsigned then some n else none := by
  obtain ⟨name, digits, hne, hheaders, rfl⟩ := h
  have hheader : r.header? "content-length" =
      some (digits.map digitByte) := by
    rw [Request.header?, ← List.head?_filter, hheaders]
    rfl
  simp only [Server.declaredSize?, hheader, visible?_digits, bind, Option.bind]
  rw [Text.unsigned_digits hne]
  split <;> rfl

end

namespace Server

section
variable {s : Server} {r : Request} {boundary : String} {h : Host} {n : Nat}

/-- A request to compile is answered by compiling. -/
theorem handle_of_asksCompile (hasks : r.AsksCompile) :
    (s.handle r h).1.status = (s.compile r h).1.status ∧ (s.handle r h).2 = (s.compile r h).2 := by
  have hsized (response : Response) : response.sized.status = response.status := by
    unfold Response.sized
    split <;> rfl
  have hroute : route? (pathOf r.target) = some .compile := by
    rw [hasks.path]
    rfl
  have hanswer : s.answerRoute .compile r h = ((s.compile r h).1.sized, (s.compile r h).2) := by
    unfold answerRoute
    rw [hasks.method]
    rfl
  have hmethod : ¬ r.method = "OPTIONS" := by
    rw [hasks.method]
    decide
  unfold handle
  simp only [hroute, if_neg hmethod, hanswer]
  exact ⟨hsized _, trivial⟩

variable (s r boundary h n) in
/-- What becomes of a request that declares a number as the length of its body. -/
structure SizeChecked : Prop where
  /-- It is refused before anything is done if the number is over the limit and fits the word. -/
  refused : s.maxBody < n → n ≤ maxUnsigned →
    (s.handle r h).1.status = 413 ∧ (s.handle r h).2 = h
  /-- It is not refused for the number if that is within the limit. -/
  passed : n ≤ s.maxBody → s.compileUpload r boundary h = compileUpload.go s r boundary h
  /-- Neither is it if the number does not fit the word. -/
  overlooked : maxUnsigned < n → s.compileUpload r boundary h = compileUpload.go s r boundary h

/-- **Every request** to compile that declares a size is checked. -/
theorem sizeChecked_of_declares (hasks : r.AsksCompile) (hboundary : boundary? r = some boundary)
    (hdeclares : r.DeclaresSize n) : s.SizeChecked r boundary h n := by
  have hsize := hdeclares.declaredSize?_eq
  refine ⟨fun hover hfits => ?_, fun hwithin => ?_, fun hlong => ?_⟩
  · rw [if_pos hfits] at hsize
    have hrefused : s.compileUpload r boundary h = (.error (.payloadTooLarge n s.maxBody), h) := by
      unfold compileUpload
      rw [hsize]
      exact if_pos hover
    have hcompile : s.compile r h = ((Error.payloadTooLarge n s.maxBody).toResponse, h) := by
      unfold compile
      rw [hboundary]
      dsimp only
      rw [hrefused]
    obtain ⟨hstatus, hhost⟩ := handle_of_asksCompile (s := s) (h := h) hasks
    rw [hstatus, hhost, hcompile]
    exact ⟨rfl, rfl⟩
  · unfold compileUpload
    rw [hsize]
    split
    · next hsome =>
      split at hsome
      · cases hsome
        exact if_neg (Nat.not_lt_of_le hwithin)
      · cases hsome
    · rfl
  · rw [if_neg (Nat.not_le_of_lt hlong)] at hsize
    unfold compileUpload
    rw [hsize]

/-- An upload with nothing in it that declares some digits as its length. -/
def declaring (digits : List (Fin 10)) : Request :=
  { emptyUpload with headers := emptyUpload.headers ++
      [("Content-Length", digits.map digitByte)] }

theorem declaresSize_declaring {digits : List (Fin 10)} (hne : digits ≠ []) :
    (declaring digits).DeclaresSize (numberFrom 0 digits) := by
  refine ⟨"Content-Length", digits, hne, ?_, rfl⟩
  have htype : lowerCase "Content-Type" ≠ lowerCase "content-length" := by decide +kernel
  have hlength : lowerCase "Content-Length" = lowerCase "content-length" := by decide +kernel
  simp [declaring, emptyUpload, htype, hlength]

/-- The number after the largest one of the word. -/
def firstTooLong : List (Fin 10) :=
  [1, 8, 4, 4, 6, 7, 4, 4, 0, 7, 3, 7, 0, 9, 5, 5, 1, 6, 1, 6]

/-- The largest number of the word, with zeros in front. -/
def longestFitting : List (Fin 10) :=
  [0, 0, 1, 8, 4, 4, 6, 7, 4, 4, 0, 7, 3, 7, 0, 9, 5, 5, 1, 6, 1, 5]

/-- The largest number that fits is over a limit, and is refused. -/
theorem sizeChecked_of_longest :
    let s : Server := ⟨⟨"/", usualTools⟩, 10⟩
    let r := declaring longestFitting
    (r.AsksCompile ∧ boundary? r = some "x" ∧ r.DeclaresSize maxUnsigned) ∧
      s.SizeChecked r "x" {} maxUnsigned ∧ (s.handle r {}).1.status = 413 := by
  intro s r
  have hasks : r.AsksCompile := ⟨rfl, by decide +kernel⟩
  have hboundary : boundary? r = some "x" := by decide +kernel
  have hdeclares : r.DeclaresSize maxUnsigned := declaresSize_declaring (by decide)
  have hchecked : s.SizeChecked r "x" {} maxUnsigned :=
    sizeChecked_of_declares hasks hboundary hdeclares
  exact ⟨⟨hasks, hboundary, hdeclares⟩, hchecked, (hchecked.refused (by decide) (Nat.le_refl _)).1⟩

/-- **A number that does not fit** is over the limit, but the request is not refused: a workspace is
made for it, and its body is looked at. -/
theorem not_refused_of_long : ∃ (s : Server) (r : Request) (h : Host) (n : Nat),
    r.AsksCompile ∧ boundary? r = some "x" ∧ r.DeclaresSize n ∧ s.maxBody < n ∧
      (s.handle r h).1.status ≠ 413 ∧
      Event.acquired (s.pipeline.nextWorkspace h) ∈ (s.handle r h).2.journal := by
  refine ⟨⟨⟨"/", usualTools⟩, 10⟩, declaring firstTooLong, {}, numberFrom 0 firstTooLong,
    ⟨rfl, by decide +kernel⟩, by decide +kernel, declaresSize_declaring (by decide), by decide,
    by decide +kernel, by decide +kernel⟩

end

end Server

end Http

end LangBundle
