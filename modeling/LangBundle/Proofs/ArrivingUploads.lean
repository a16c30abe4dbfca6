import LangBundle.Proofs.Answers
import LangBundle.Proofs.Ownership
import LangBundle.Proofs.ClosingBoundaries

/-!
# Uploads that arrive under a limit

The pieces of a body are let through until one of them would exceed the limit.  A reader makes fields
of what arrives, and every field is stored while it is read.  If the body does not close within the
limit, the request fails, whatever has been stored by then.

* `withinLimit`: the pieces that a limit lets through.
* `Reader`: what makes fields of pieces; `Reader.IsFaithful`: what is relied on.
* `Server.compileArriving`: the answer to an upload that arrives; `compileArriving_atOnce`: **it is
  that of `compile`** if all of the body is there.
* `Intake.Session.runs_storeReading`: **what arrives** is a row of steps of the intake.
* `Server.limited_of_isFaithful`: **the limit is exact.**
-/

namespace LangBundle

open Files Files.Tree

namespace Http

/-! ## Under a limit -/

/-- How what arrives of a body ends. -/
inductive BodyEnd where
  | complete
  /-- The next piece would exceed the limit. -/
  | overrun
  /-- The connection breaks. -/
  | broken
  deriving Repr, DecidableEq

/-- The pieces that are let through as long as no more than `left` bytes come, and whether one was
not. -/
def withinLimit : (left : Nat) → List Bytes → List Bytes × Bool
  | _, [] => ([], false)
  | left, piece :: rest =>
    if piece.length ≤ left then
      let (pieces, isOver) := withinLimit (left - piece.length) rest
      (piece :: pieces, isOver)
    else ([], true)

theorem isPrefix_withinLimit (left : Nat) (pieces : List Bytes) :
    (withinLimit left pieces).1 <+: pieces := by
  induction pieces generalizing left with
  | nil => exact List.prefix_rfl
  | cons piece rest ih =>
    rw [withinLimit]
    split
    · exact List.cons_prefix_cons.2 ⟨rfl, ih _⟩
    · exact List.nil_prefix

theorem isPrefix_flatten {pieces pieces' : List Bytes} (h : pieces <+: pieces') :
    pieces.flatten <+: pieces'.flatten := by
  obtain ⟨rest, rfl⟩ := h
  rw [List.flatten_append]
  exact List.prefix_append _ _

theorem length_withinLimit (left : Nat) (pieces : List Bytes) :
    (withinLimit left pieces).1.flatten.length ≤ left := by
  induction pieces generalizing left with
  | nil => exact Nat.zero_le left
  | cons piece rest ih =>
    rw [withinLimit]
    split
    · next hle =>
      have hrest := ih (left - piece.length)
      rw [List.flatten_cons, List.length_append]
      omega
    · exact Nat.zero_le left

/-- **What is not over the limit** is let through. -/
theorem withinLimit_of_le {left : Nat} {pieces : List Bytes} (h : pieces.flatten.length ≤ left) :
    withinLimit left pieces = (pieces, false) := by
  induction pieces generalizing left with
  | nil => rfl
  | cons piece rest ih =>
    rw [List.flatten_cons, List.length_append] at h
    rw [withinLimit, if_pos (by omega), ih (by omega)]

theorem withinLimit_of_lt {left : Nat} {pieces : List Bytes} (h : left < pieces.flatten.length) :
    (withinLimit left pieces).2 = true := by
  induction pieces generalizing left with
  | nil => cases h
  | cons piece rest ih =>
    rw [List.flatten_cons, List.length_append] at h
    rw [withinLimit]
    split
    · exact ih (by omega)
    · rfl

/-- What arrives of the body of a request under a limit. -/
def Request.arriving (r : Request) (limit : Nat) : List Bytes × BodyEnd :=
  match withinLimit limit r.pieces with
  | (pieces, true) => (pieces, .overrun)
  | (pieces, false) => (pieces, if r.broken then .broken else .complete)

theorem Request.arriving_fst (r : Request) (limit : Nat) :
    (r.arriving limit).1 = (withinLimit limit r.pieces).1 := by
  rw [Request.arriving]
  rcases withinLimit limit r.pieces with ⟨pieces, _ | _⟩ <;> rfl

/-- **All of a body** arrives unless it is over the limit. -/
theorem Request.arriving_eq (r : Request) (limit : Nat) :
    r.arriving limit =
      if limit < r.body.length then ((withinLimit limit r.pieces).1, .overrun)
      else (r.pieces, if r.broken then .broken else .complete) := by
  unfold Request.arriving Request.body
  split
  · next hlimit =>
    rw [if_pos]
    · rw [hlimit]
    · by_contra hle
      rw [withinLimit_of_le (Nat.le_of_not_lt hle)] at hlimit
      cases hlimit
  · next hlimit =>
    have hle : ¬ limit < r.pieces.flatten.length := fun hlt => by
      have hover := withinLimit_of_lt hlt
      rw [hlimit] at hover
      cases hover
    rw [withinLimit_of_le (Nat.le_of_not_lt hle)] at hlimit
    cases hlimit
    rw [if_neg hle]

/-! ## Reading what arrives -/

/-- What a reader makes of what arrives: fields, the beginning of another one, and the status and the
text with which it fails, if it does. -/
structure Reading where
  fields : List Field
  unfinished : Option Field := none
  fault : Option (Nat × String) := none

/-- A reader of multipart bodies: from a boundary, the pieces that arrive, and how they end. -/
abbrev Reader :=
  (boundary : String) → List Bytes → BodyEnd → Reading

/-- What is relied on of a reader. -/
structure Reader.IsFaithful (read : Reader) : Prop where
  /-- It does not fail only if the body is closed somewhere in what arrives. -/
  closed : ∀ boundary pieces e, (read boundary pieces e).fault = none →
    ∃ n, (Multipart.read boundary (pieces.take n).flatten).2 = none
  /-- It says that a body is too large only if the limit was exceeded. -/
  limited : ∀ boundary pieces e detail, (read boundary pieces e).fault = some (413, detail) →
    e = .overrun
  /-- The status with which it fails is one of failure. -/
  failing : ∀ boundary pieces e status detail,
    (read boundary pieces e).fault = some (status, detail) → 400 ≤ status

namespace Upload

/-- Stores a field that does not arrive to its end. -/
def storeUnfinished (f : Field) : Intake.Step Unit :=
  match f.role? with
  | none => pure ()
  | some role => do
    let u ← Intake.begin role f.head.fileName
    let _ ← Intake.writeAll u f.chunks
    return

/-- Stores what a reader makes of what arrives. -/
def storeReading (reading : Reading) : Intake.Step Unit := do
  storeFields reading.fields
  reading.unfinished.forM storeUnfinished

end Upload

namespace Server

/-- Takes an upload into a workspace while it arrives, and builds it; gives the path of the bundle. -/
def buildArriving (read : Reader) (s : Server) (r : Request) (boundary : String) (w : Workspace)
    (h : Host) : Except Error String × Host :=
  let (pieces, e) := r.arriving s.maxBody
  let reading := read boundary pieces e
  match Upload.storeReading reading ({ workspace := w.path }, h), reading.fault with
  | .error e (_, h), _ => (.error (.build e), h)
  | .ok _ (_, h), some (status, detail) => (.error (.multipart status detail), h)
  | .ok _ (intake, h), none =>
    match intake.finish with
    | .error e => (.error (.build e), h)
    | .ok inputs =>
      match s.pipeline.build w.path inputs h with
      | .ok bundle h => (.ok bundle, h)
      | .error e h => (.error (.build e), h)

/-- Makes a workspace for an upload that arrives, builds it there and delivers the bundle. -/
def acceptArriving (read : Reader) (s : Server) (r : Request) (boundary : String) (h : Host) :
    Except Error Response × Host :=
  match s.pipeline.acquireWorkspace h with
  | .error e h => (.error (.build e), h)
  | .ok w h =>
    match buildArriving read s r boundary w h with
    | (.error e, h) => (.error e, w.drop h)
    | (.ok bundle, h) => deliver bundle w h

/-- Answers a request to compile an upload that arrives. -/
def compileArriving (read : Reader) (s : Server) (r : Request) (h : Host) : Response × Host :=
  match boundary? r with
  | none => (noBoundary, h)
  | some boundary =>
    let (result, h) : Except Error Response × Host := match declaredSize? r with
      | some size =>
        if s.maxBody < size then (.error (.payloadTooLarge size s.maxBody), h)
        else acceptArriving read s r boundary h
      | none => acceptArriving read s r boundary h
    match result with
    | .ok response => (response, h)
    | .error e => (e.toResponse, h)

end Server

/-! ## All at once -/

/-- The beginning of the field whose data has no end, if it is that which is wrong. -/
def Multipart.Fault.begun? : Multipart.Fault → Option Field
  | .incompletePart head => some ⟨head, []⟩
  | _ => none

/-- The reader of bodies that are there when it begins. -/
def atOnce : Reader := fun boundary pieces e =>
  match e with
  | .overrun => { fields := [], fault := some (413, "Request payload is too large") }
  | .broken => { fields := [], fault := some (500, "failed to read stream") }
  | .complete =>
    let (parts, fault) := Multipart.read boundary pieces.flatten
    { fields := parts.map .whole
      unfinished := fault.bind Multipart.Fault.begun?
      fault := fault.map fun fault => (400, fault.message) }

theorem isFaithful_atOnce : Reader.IsFaithful atOnce where
  closed boundary pieces e h := by
    cases e with
    | complete =>
      refine ⟨pieces.length, ?_⟩
      rw [List.take_length]
      exact Option.map_eq_none_iff.1 h
    | overrun => cases h
    | broken => cases h
  limited boundary pieces e detail h := by
    cases e with
    | complete =>
      obtain ⟨fault, -, heq⟩ := Option.map_eq_some_iff.1 h
      cases heq
    | overrun => rfl
    | broken => cases h
  failing boundary pieces e status detail h := by
    cases e with
    | complete =>
      obtain ⟨fault, -, heq⟩ := Option.map_eq_some_iff.1 h
      cases heq
      exact Nat.le_refl _
    | overrun => cases h; decide
    | broken => cases h; decide

/-- The field whose data has no end is begun. -/
theorem storeUnfinished_begun (fault : Option Multipart.Fault) :
    (fault.bind Multipart.Fault.begun?).forM Upload.storeUnfinished =
      (fault.forM Upload.beginBroken : Intake.Step Unit) := by
  rcases fault with _ | fault
  · rfl
  cases fault with
  | incompletePart head =>
    simp only [Option.bind, Multipart.Fault.begun?, Option.forM, Upload.storeUnfinished, Field.role?,
      Upload.beginBroken]
    rcases Upload.roleOf? head with _ | role <;> rfl
  | _ => rfl

theorem buildArriving_atOnce (s : Server) (r : Request) (boundary : String) (w : Workspace)
    (h : Host) : Server.buildArriving atOnce s r boundary w h = s.buildUpload r boundary w h := by
  unfold Server.buildArriving Server.buildUpload
  rw [r.arriving_eq]
  by_cases hover : s.maxBody < r.body.length
  · rw [if_pos hover, if_pos hover]
    rfl
  rw [if_neg hover, if_neg hover]
  rcases r.broken with _ | _
  swap
  · rfl
  rcases hread : Multipart.read boundary r.body with ⟨parts, fault⟩
  have hstore : Upload.storeReading (atOnce boundary r.pieces .complete) = (do
      Upload.storeParts parts
      fault.forM Upload.beginBroken : Intake.Step Unit) := by
    have hreading : atOnce boundary r.pieces .complete =
        { fields := parts.map .whole
          unfinished := fault.bind Multipart.Fault.begun?
          fault := fault.map fun fault => (400, fault.message) } := by
      rw [atOnce, ← Request.body, hread]
    rw [hreading, Upload.storeReading, Upload.storeParts_eq, storeUnfinished_begun]
  have hfault : (atOnce boundary r.pieces .complete).fault =
      fault.map fun fault => (400, fault.message) := by
    rw [atOnce, ← Request.body, hread]
  simp only [Bool.false_eq_true, if_false, hstore, hfault, Upload.store, hread]
  rcases (do
      Upload.storeParts parts
      fault.forM Upload.beginBroken : Intake.Step Unit) ({ workspace := w.path }, h)
    with ⟨_, i, h'⟩ | ⟨e, i, h'⟩
  · rcases fault with _ | fault <;> rfl
  · rfl

/-- **If all of the body is there** an upload that arrives is answered as any other. -/
theorem compileArriving_atOnce (s : Server) (r : Request) (h : Host) :
    Server.compileArriving atOnce s r h = s.compile r h := by
  have haccept (boundary : String) :
      Server.acceptArriving atOnce s r boundary h = Server.compileUpload.go s r boundary h := by
    unfold Server.acceptArriving Server.compileUpload.go
    rcases s.pipeline.acquireWorkspace h with ⟨w, h'⟩ | ⟨e, h'⟩
    · rcases hbuild : s.buildUpload r boundary w h' with ⟨_ | _, h''⟩ <;>
        simp only [buildArriving_atOnce, hbuild]
    · rfl
  unfold Server.compileArriving Server.compile Server.compileUpload
  rcases Server.boundary? r with _ | boundary
  · rfl
  simp only [haccept]
  rcases Server.declaredSize? r with _ | size
  · dsimp only
    rcases Server.compileUpload.go s r boundary h with ⟨_ | _, h'⟩ <;> rfl
  · by_cases hover : s.maxBody < size
    · simp only [if_pos hover]
    · simp only [if_neg hover]
      rcases Server.compileUpload.go s r boundary h with ⟨_ | _, h'⟩ <;> rfl

end Http

/-! ## Storing what arrives -/

namespace Intake.Session

/-- Pieces that are written one after the other, as far as they can be. -/
theorem ends_writeAll {s : Session} {u : Upload} {rest : List Upload}
    (hopen : s.uploads = u :: rest) (pieces : List Bytes) :
    ∃ s', s.Runs s' ∧
      ((∃ u', writeAll u pieces (s.intake, s.host) = .ok u' (s'.intake, s'.host) ∧
        s'.uploads = u' :: rest) ∨
      ∃ e, writeAll u pieces (s.intake, s.host) = .error e (s'.intake, s'.host)) := by
  induction pieces generalizing s u with
  | nil => exact ⟨s, .refl, .inl ⟨u, rfl, hopen⟩⟩
  | cons piece more ih =>
    have hlast : s.uploads = [] ++ u :: rest := hopen
    rcases hwrite : write u piece (s.intake, s.host) with ⟨v, i, h⟩ | ⟨e, i, h⟩
    · have hstep := Step.write hlast hwrite
      obtain ⟨s', hruns, hends⟩ := ih (s := { s with
        intake := i, host := h, uploads := [] ++ v :: rest, log := s.log ++ [.wrote u.role piece] }) rfl
      rw [writeAll, Service.bind_of_ok hwrite]
      exact ⟨s', .head hstep hruns, hends⟩
    · obtain ⟨rfl, hcwd, hfiles⟩ := write_of_error hwrite
      rw [writeAll, Service.bind_of_error hwrite]
      exact ⟨_, .single (.giveUp hlast hcwd hfiles), .inr ⟨e, rfl⟩⟩

/-- An upload that is begun and gets its pieces, as far as that can be, and what is done last. -/
theorem ends_upload (s : Session) (role : Role) (supply : Supply) {last : Upload → Intake.Step Unit}
    (hlast : ∀ (s : Session) u rest, s.uploads = u :: rest →
      ∃ s', s.Runs s' ∧ EndsAs (last u (s.intake, s.host)) s') :
    ∃ s', s.Runs s' ∧ EndsAs ((do
      let u ← begin role supply.declared
      let u ← writeAll u supply.pieces
      last u) (s.intake, s.host)) s' := by
  rcases hbegin : begin role supply.declared (s.intake, s.host) with ⟨u, i, h⟩ | ⟨e, i, h⟩
  · obtain ⟨s₁, hbegun, rfl, rfl, huploads⟩ : ∃ s₁, s.Step s₁ ∧ s₁.intake = i ∧ s₁.host = h ∧
        s₁.uploads = u :: s.uploads := ⟨_, .begin hbegin, rfl, rfl, rfl⟩
    rw [Service.bind_of_ok hbegin]
    obtain ⟨s₂, hwritten, ⟨v, hwrite, huploads₂⟩ | ⟨e, hwrite⟩⟩ :=
      ends_writeAll huploads supply.pieces
    · obtain ⟨s₃, hruns, hends⟩ := hlast s₂ v _ huploads₂
      rw [Service.bind_of_ok hwrite]
      exact ⟨s₃, .head hbegun (hwritten.trans hruns), hends⟩
    · exact ⟨s₂, .head hbegun hwritten, .inr ⟨e, Service.bind_of_error hwrite⟩⟩
  · obtain ⟨-, hrefused⟩ | ⟨hfresh, ⟨_, _, h', hfailed, hcwd, hfiles⟩ | ⟨_, _, _, hok, -⟩⟩ :=
      begin_cases role supply.declared s.intake s.host
    · exact ⟨_, .single (.again hrefused), .inr ⟨_, Service.bind_of_error hrefused⟩⟩
    · exact ⟨_, .single (.beginFails supply.declared hfresh hcwd (.inr hfiles)),
        .inr ⟨_, Service.bind_of_error hfailed⟩⟩
    · rw [hbegin] at hok
      cases hok

/-- One that is recorded in the end. -/
theorem ends_take (s : Session) (role : Role) (supply : Supply) :
    ∃ s', s.Runs s' ∧ EndsAs (take role supply (s.intake, s.host)) s' :=
  ends_upload s role supply fun s u _ hopen =>
    have hlast : s.uploads = [] ++ u :: _ := hopen
    ⟨_, .single (.commit hlast rfl), .inl ⟨(), rfl⟩⟩

end Intake.Session

namespace Http.Upload

open Intake (Session)
open Intake.Session (EndsAs)

theorem ends_storeField (s : Session) (f : Field) :
    ∃ s', s.Runs s' ∧ EndsAs (storeField f (s.intake, s.host)) s' := by
  rcases hrole : f.role? with _ | role
  · rw [storeField, hrole]
    exact ⟨s, .refl, .inl ⟨(), rfl⟩⟩
  · rw [storeField, hrole]
    exact Session.ends_take s role f.supply

theorem ends_storeFields (s : Session) (fields : List Field) :
    ∃ s', s.Runs s' ∧ EndsAs (storeFields fields (s.intake, s.host)) s' := by
  induction fields generalizing s with
  | nil => exact ⟨s, .refl, .inl ⟨(), rfl⟩⟩
  | cons f rest ih =>
    obtain ⟨s₁, hruns, ⟨_, hok⟩ | ⟨e, hfail⟩⟩ := ends_storeField s f
    · obtain ⟨s₂, hrest, hends⟩ := ih s₁
      rw [storeFields, Service.bind_of_ok hok]
      exact ⟨s₂, hruns.trans hrest, hends⟩
    · exact ⟨s₁, hruns, .inr ⟨e, Service.bind_of_error hfail⟩⟩

theorem ends_storeUnfinished (s : Session) (f : Field) :
    ∃ s', s.Runs s' ∧ EndsAs (storeUnfinished f (s.intake, s.host)) s' := by
  rcases hrole : f.role? with _ | role
  · rw [storeUnfinished, hrole]
    exact ⟨s, .refl, .inl ⟨(), rfl⟩⟩
  · rw [storeUnfinished, hrole]
    exact Session.ends_upload s role f.supply fun s u _ _ => ⟨s, .refl, .inl ⟨(), rfl⟩⟩

/-- **What arrives** is stored in a row of steps, whatever fails. -/
theorem ends_storeReading (s : Session) (reading : Reading) :
    ∃ s', s.Runs s' ∧ EndsAs (storeReading reading (s.intake, s.host)) s' := by
  unfold storeReading
  obtain ⟨s₁, hruns, ⟨_, hok⟩ | ⟨e, hfail⟩⟩ := ends_storeFields s reading.fields
  · rw [Service.bind_of_ok hok]
    cases reading.unfinished with
    | none => exact ⟨s₁, hruns, .inl ⟨(), rfl⟩⟩
    | some f =>
      obtain ⟨s₂, hrest, hends⟩ := ends_storeUnfinished s₁ f
      exact ⟨s₂, hruns.trans hrest, hends⟩
  · exact ⟨s₁, hruns, .inr ⟨e, Service.bind_of_error hfail⟩⟩

/-- It calls no tool. -/
theorem idle_storeReading (reading : Reading) :
    Idle (fun s => s.2.calls) BuildError.IsOfIntake (storeReading reading) := by
  have hpieces (u : LangBundle.Upload) (pieces : List Bytes) :
      Idle (fun s => s.2.calls) BuildError.IsOfIntake (Intake.writeAll u pieces) := by
    induction pieces generalizing u with
    | nil => exact .pure
    | cons piece rest ih => exact (Intake.idle_write u piece).bind ih
  have hfield (f : Field) : Idle (fun s => s.2.calls) BuildError.IsOfIntake (storeField f) := by
    unfold storeField
    split
    · exact .pure
    · exact (Intake.idle_begin _ _).bind fun u => (hpieces u _).bind fun _ => ⟨fun _ => rfl⟩
  have hfields (fields : List Field) :
      Idle (fun s => s.2.calls) BuildError.IsOfIntake (storeFields fields) := by
    induction fields with
    | nil => exact .pure
    | cons f rest ih => exact (hfield f).bind fun _ => ih
  refine (hfields _).bind fun _ => ?_
  cases reading.unfinished with
  | none => exact .pure
  | some f =>
    unfold Option.forM storeUnfinished
    dsimp only
    split
    · exact .pure
    · exact (Intake.idle_begin _ _).bind fun u => (hpieces u _).bind fun _ => .pure

end Http.Upload

/-! ## The limit -/

namespace Http.Server

section
variable {read : Reader} {s : Server} {r : Request} {boundary : String} {w : Workspace} {h h' : Host}

theorem status_build (e : BuildError) :
    (Error.build e).status = 400 ∨ (Error.build e).status = 500 := by
  rw [Error.status]
  split
  · exact .inl rfl
  · exact .inr rfl

/-- **A reader that fails** fails the request: no tool is called, and the intake has come a row of
steps. -/
theorem buildArriving_of_fault {status : Nat} {detail : String}
    (hfault : (read boundary (r.arriving s.maxBody).1 (r.arriving s.maxBody).2).fault =
      some (status, detail)) :
    ∃ e h', buildArriving read s r boundary w h = (.error e, h') ∧
      (e.status = status ∨ e.status = 400 ∨ e.status = 500) ∧ h'.calls = h.calls ∧
      ∃ s' : Intake.Session, s'.host = h' ∧
        Intake.Session.Runs { intake := { workspace := w.path }, host := h } s' := by
  generalize hreading : read boundary (r.arriving s.maxBody).1 (r.arriving s.maxBody).2 = reading
    at hfault
  have hidle := Upload.idle_storeReading reading
  obtain ⟨s', hruns, ⟨_, hok⟩ | ⟨e, hfail⟩⟩ := Upload.ends_storeReading
    { intake := { workspace := w.path }, host := h } reading
  · refine ⟨.multipart status detail, s'.host, ?_, .inl rfl, hidle.of_ok hok, s', rfl, hruns⟩
    simp only [buildArriving, hreading, hok, hfault]
  · refine ⟨.build e, s'.host, ?_, ?_, (hidle.of_error hfail).2, s', rfl, hruns⟩
    · simp only [buildArriving, hreading, hfail]
    · exact .inr (status_build e)

/-- **A workspace** in which an intake has come a row of steps is taken away with all that is in
it. -/
theorem get?_drop_of_runs {h₀ : Host} {s' : Intake.Session} (hsound : h.files.IsSound)
    (hcwd : IsReal h.cwd) (hacquire : s.pipeline.acquireWorkspace h = .ok w h₀)
    (hruns : Intake.Session.Runs { intake := { workspace := w.path }, host := h₀ } s') {q : Place}
    (hq : IsReal q) : (w.drop s'.host).files.get? q = h.files.get? q := by
  obtain ⟨⟨-, hreleased⟩, -⟩ := site_of_acquireWorkspace hsound hcwd hacquire
  obtain ⟨hpath, ws, hsite, hstart⟩ :=
    Intake.Session.kept_of_acquireWorkspace hsound hcwd hacquire
  have hkept := hstart.runs hsite hpath hruns
  have hremovable := hkept.prepared.removable hsite
  rw [← hkept.cwd_eq] at hremovable
  rw [(drop_eq hreleased hsite.ne_nil hremovable).2 q hq]
  split
  · next hbelow => exact (hsite.nothing hq hbelow).symm
  · next hnot => exact hkept.prepared.off q hq hnot

/-- The reader does not succeed if the body is not closed within the limit. -/
theorem fault_of_overrun (hread : read.IsFaithful)
    (hover : ∀ n, Multipart.ClosesAt boundary r.body n → s.maxBody < n) :
    let arriving := r.arriving s.maxBody
    ∃ status detail, (read boundary arriving.1 arriving.2).fault = some (status, detail) ∧
      400 ≤ status := by
  intro arriving
  rcases hfault : (read boundary arriving.1 arriving.2).fault with _ | ⟨status, detail⟩
  · obtain ⟨k, hclosed⟩ := hread.closed _ _ _ hfault
    have harrived : arriving.1 = (withinLimit s.maxBody r.pieces).1 := r.arriving_fst s.maxBody
    rw [harrived] at hclosed
    have hpieces := isPrefix_flatten (List.take_prefix k (withinLimit s.maxBody r.pieces).1)
    have hbody := hpieces.trans (isPrefix_flatten (isPrefix_withinLimit s.maxBody r.pieces))
    obtain ⟨n, hn, hle⟩ := Multipart.exists_closesAt hbody hclosed
    have hlimit := length_withinLimit s.maxBody r.pieces
    exact absurd (hover n hn) (Nat.not_lt.2 (le_trans hle (le_trans hpieces.length_le hlimit)))
  · exact ⟨status, detail, rfl, hread.failing _ _ _ _ _ hfault⟩

/-- **A body within the limit** is not said to be too large while it is read and built. -/
theorem status_of_buildArriving (hread : read.IsFaithful) (hle : r.body.length ≤ s.maxBody)
    {e : Error} (hbuild : buildArriving read s r boundary w h = (.error e, h')) :
    e.status ≠ 413 := by
  have hbuild_ne (e : BuildError) : (Error.build e).status ≠ 413 := by
    rcases status_build e with hstatus | hstatus <;> simp [hstatus]
  unfold buildArriving at hbuild
  rw [r.arriving_eq, if_neg (Nat.not_lt.2 hle)] at hbuild
  dsimp only at hbuild
  split at hbuild
  · cases hbuild
    exact hbuild_ne _
  · next status detail _ hfault =>
    cases hbuild
    intro hstatus
    obtain rfl : status = 413 := hstatus
    have hover := hread.limited _ _ _ _ hfault
    split at hover <;> cases hover
  · split at hbuild
    · cases hbuild
      exact hbuild_ne _
    · split at hbuild
      · cases hbuild
      · cases hbuild
        exact hbuild_ne _

/-- A request that declares no length is accepted as far as it comes. -/
theorem compileArriving_eq (hboundary : boundary? r = some boundary)
    (hlength : r.header? "content-length" = none) :
    compileArriving read s r h = match acceptArriving read s r boundary h with
      | (.ok response, h) => (response, h)
      | (.error e, h) => (e.toResponse, h) := by
  have hdeclared : declaredSize? r = none := by
    rw [declaredSize?, hlength]
    rfl
  unfold compileArriving
  rw [hboundary, hdeclared]
  dsimp only
  rcases acceptArriving read s r boundary h with ⟨_ | _, h'⟩ <;> rfl

theorem acceptArriving_of_overrun (hread : read.IsFaithful) (hsound : h.files.IsSound)
    (hcwd : IsReal h.cwd) (hover : ∀ n, Multipart.ClosesAt boundary r.body n → s.maxBody < n) :
    ∃ e h', acceptArriving read s r boundary h = (.error e, h') ∧ 400 ≤ e.status ∧
      h'.calls = h.calls ∧ ∀ q, IsReal q → h'.files.get? q = h.files.get? q := by
  unfold acceptArriving
  rcases hacquire : s.pipeline.acquireWorkspace h with ⟨w, h₀⟩ | ⟨e, h₀⟩
  · have hcalls := (idle_acquireWorkspace s.pipeline).of_ok hacquire
    obtain ⟨status, detail, hfault, hfailing⟩ := fault_of_overrun hread hover
    obtain ⟨e, h₁, hbuild, hstatus, hcalls', s', rfl, hruns⟩ :=
      buildArriving_of_fault (w := w) (h := h₀) hfault
    dsimp only
    rw [hbuild]
    refine ⟨e, _, rfl, by omega, ?_, fun q hq => get?_drop_of_runs hsound hcwd hacquire hruns hq⟩
    rw [calls_drop, hcalls', hcalls]
  · obtain ⟨w, h', ws, hok, -⟩ | ⟨detail, h', hfail, -, hfiles, -⟩ :=
      Estate.acquireWorkspace_cases s.pipeline h
    · rw [hacquire] at hok
      cases hok
    · rw [hacquire] at hfail
      cases hfail
      refine ⟨_, h₀, rfl, ?_, ((idle_acquireWorkspace s.pipeline).of_error hacquire).2, fun q _ => ?_⟩
      · rcases status_build (.io (s.pipeline.nextWorkspace h) detail) with hstatus | hstatus <;> omega
      · rw [hfiles]

theorem acceptArriving_of_le (hread : read.IsFaithful) (hle : r.body.length ≤ s.maxBody) :
    (∃ e h', acceptArriving read s r boundary h = (.error e, h') ∧ e.status ≠ 413) ∨
      ∃ response h', acceptArriving read s r boundary h = (.ok response, h') ∧
        response.status = 200 := by
  unfold acceptArriving
  rcases s.pipeline.acquireWorkspace h with ⟨w, h₀⟩ | ⟨e, h₀⟩
  · dsimp only
    rcases hbuild : buildArriving read s r boundary w h₀ with ⟨e | bundle, h₁⟩
    · exact .inl ⟨e, _, rfl, status_of_buildArriving hread hle hbuild⟩
    · dsimp only [deliver]
      rcases h₁.files.openRead h₁.cwd bundle with fault | source
      · refine .inl ⟨_, _, rfl, ?_⟩
        rcases status_build (.io bundle fault.message) with hstatus | hstatus <;> omega
      · exact .inr ⟨_, _, rfl, rfl⟩
  · refine .inl ⟨_, _, rfl, ?_⟩
    rcases status_build e with hstatus | hstatus <;> omega

/-- **The limit is exact**, however a body is cut and whenever it arrives.  If it is not closed within
the limit, the answer is no success, no tool is called, and no workspace is left; if all of it is within
the limit, it is not said to be too large. -/
theorem limited_of_isFaithful (hread : read.IsFaithful) (hsound : h.files.IsSound)
    (hcwd : IsReal h.cwd) (hboundary : boundary? r = some boundary)
    (hlength : r.header? "content-length" = none) :
    let answer := compileArriving read s r h
    ((∀ n, Multipart.ClosesAt boundary r.body n → s.maxBody < n) →
      answer.1.status ≠ 200 ∧ answer.2.calls = h.calls ∧
        ∀ q, IsReal q → answer.2.files.get? q = h.files.get? q) ∧
    (r.body.length ≤ s.maxBody → answer.1.status ≠ 413) := by
  rw [compileArriving_eq hboundary hlength]
  rcases haccept : acceptArriving read s r boundary h with ⟨e | response, h'⟩
  · dsimp only
    have hstatus : e.toResponse.status = e.status := rfl
    constructor
    · intro hover
      obtain ⟨e', h'', haccept', hfailing, hcalls, hfiles⟩ :=
        acceptArriving_of_overrun hread hsound hcwd hover
      rw [haccept] at haccept'
      cases haccept'
      exact ⟨by omega, hcalls, hfiles⟩
    · intro hle
      obtain ⟨e', h'', haccept', hnot⟩ | ⟨response, h'', haccept', -⟩ :=
        @acceptArriving_of_le read s r boundary h hread hle
      · rw [haccept] at haccept'
        cases haccept'
        rwa [hstatus]
      · rw [haccept] at haccept'
        cases haccept'
  · dsimp only
    constructor
    · intro hover
      obtain ⟨e, h'', haccept', -⟩ := acceptArriving_of_overrun hread hsound hcwd hover
      rw [haccept] at haccept'
      cases haccept'
    · intro hle
      obtain ⟨e, h'', haccept', -⟩ | ⟨response', h'', haccept', hok⟩ :=
        @acceptArriving_of_le read s r boundary h hread hle
      · rw [haccept] at haccept'
        cases haccept'
      · rw [haccept] at haccept'
        cases haccept'
        omega

end

/-- A request whose body comes in pieces and closes with its last byte. -/
def trickled : Request where
  headers := [("content-type", Utf8.ofString "multipart/form-data; boundary=b")]
  pieces := [Utf8.ofString "--b\r\ncontent-disposition: form-data; na",
    Utf8.ofString "me=lexer\r\n\r\n%%\r\n-", Utf8.ofString "-b-", Utf8.ofString "-"]

/-- One byte less than that is too little for it, and as many are enough. -/
theorem limited_of_trickled :
    let short : Server := ⟨⟨"/", usualTools⟩, 59⟩
    let enough : Server := ⟨⟨"/", usualTools⟩, 60⟩
    (atOnce.IsFaithful ∧ staleHost.files.IsSound ∧ IsReal staleHost.cwd ∧
      boundary? trickled = some "b" ∧ trickled.header? "content-length" = none ∧
      (∀ n, Multipart.ClosesAt "b" trickled.body n → short.maxBody < n) ∧
      trickled.body.length ≤ enough.maxBody) ∧
    ((compileArriving atOnce short trickled staleHost).1.status ≠ 200 ∧
      (compileArriving atOnce short trickled staleHost).2.calls = staleHost.calls ∧
      ∀ q, IsReal q → (compileArriving atOnce short trickled staleHost).2.files.get? q =
        staleHost.files.get? q) ∧
    (compileArriving atOnce enough trickled staleHost).1.status ≠ 413 := by
  intro short enough
  have hboundary : boundary? trickled = some "b" := by decide +kernel
  have hlength : trickled.header? "content-length" = none := by decide +kernel
  have hover (n : Nat) (hn : Multipart.ClosesAt "b" trickled.body n) : short.maxBody < n := by
    have hopen : (Multipart.read "b" (trickled.body.take 59)).2 ≠ none := by decide +kernel
    exact Nat.lt_of_not_le fun hle => hopen ((hn.closed_iff 59).2 hle)
  have hle : trickled.body.length ≤ enough.maxBody := by decide +kernel
  exact ⟨⟨isFaithful_atOnce, isSound_precious, isReal_nil, hboundary, hlength, hover, hle⟩,
    (limited_of_isFaithful (s := short) isFaithful_atOnce isSound_precious isReal_nil hboundary
      hlength).1 hover,
    (limited_of_isFaithful (s := enough) isFaithful_atOnce isSound_precious isReal_nil hboundary
      hlength).2 hle⟩

end Http.Server

end LangBundle
