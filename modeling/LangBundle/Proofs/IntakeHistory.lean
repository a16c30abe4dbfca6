import Mathlib.Logic.Relation
import LangBundle.Proofs.BundleContents

/-!
# What may become of an intake

Uploads may be begun, written, recorded and given up in any order, many of them at once, and every
operation may fail.  Whatever happens, each role has at most one upload, and nobody but that upload
touches its file.

* `Deed`, `sent`: what happened to the upload of a role, and what it has been sent.
* `Session`: an intake with the uploads that are open; `Session.Step`: what may happen next.
* `Phase`: **how far** the upload of a role has come.
* `Session.Kept.step`: **one step** keeps what is known of every role.
* `Session.runs_store`: storing what a reader yields is a row of steps.
* `Session.orderly_of_runs`: **any history** of an intake.
-/

namespace LangBundle

open Files Files.Tree

namespace Intake

/-! ## Deeds -/

/-- Something that happened to the upload of a role. -/
inductive Deed where
  /-- Somebody asked for it to be begun. -/
  | began (role : Role) (declared : Option String)
  /-- Its file was made. -/
  | made (role : Role) (path : String)
  /-- A piece was written to it. -/
  | wrote (role : Role) (piece : Bytes)
  /-- It was recorded. -/
  | recorded (role : Role)
  deriving Repr, DecidableEq

namespace Deed

/-- Whose upload it happened to. -/
def role : Deed → Role
  | began role _ | made role _ | wrote role _ | recorded role => role

def declared? : Deed → Option (Option String)
  | began _ declared => some declared
  | _ => none

def path? : Deed → Option String
  | made _ path => some path
  | _ => none

def piece? : Deed → Option Bytes
  | wrote _ piece => some piece
  | _ => none

end Deed

/-- What happened to the upload of one role. -/
def deedsOf (log : List Deed) (role : Role) : List Deed :=
  log.filter (·.role = role)

/-- What an upload has been sent: the name with which it was begun first, and the pieces. -/
def sent (deeds : List Deed) : Supply where
  declared := (deeds.findSome? Deed.declared?).join
  pieces := deeds.filterMap Deed.piece?

/-- The files that were made for an upload. -/
def filesOf (deeds : List Deed) : List String :=
  deeds.filterMap Deed.path?

section
variable {log deeds : List Deed} {role : Role}

theorem mem_deedsOf {d : Deed} : d ∈ deedsOf log role ↔ d ∈ log ∧ d.role = role := by
  simp [deedsOf]

/-- The files of a role are those that were made for it. -/
theorem mem_filesOf {file : String} :
    file ∈ filesOf (deedsOf log role) ↔ .made role file ∈ log := by
  rw [filesOf, List.mem_filterMap]
  constructor
  · rintro ⟨d, hd, hpath⟩
    obtain ⟨hlog, hrole⟩ := mem_deedsOf.1 hd
    cases d with
    | made other path =>
      obtain rfl : other = role := hrole
      obtain rfl : path = file := Option.some.inj hpath
      exact hlog
    | began | wrote | recorded => cases hpath
  · intro hmade
    exact ⟨_, mem_deedsOf.2 ⟨hmade, rfl⟩, rfl⟩

theorem deedsOf_append (new : List Deed) :
    deedsOf (log ++ new) role = deedsOf log role ++ deedsOf new role :=
  List.filter_append ..

theorem sent_append_began (other : Role) (h : ∃ declared, .began role declared ∈ deeds)
    (declared : Option String) : sent (deeds ++ [.began other declared]) = sent deeds := by
  obtain ⟨first, hfirst⟩ := h
  have hsome : (deeds.findSome? Deed.declared?).isSome = true := by
    rw [List.findSome?_isSome_iff]
    exact ⟨_, hfirst, rfl⟩
  obtain ⟨name, hname⟩ := Option.isSome_iff_exists.1 hsome
  simp [sent, List.findSome?_append, hname, Deed.piece?]

theorem sent_append_wrote (other : Role) (piece : Bytes) : sent (deeds ++ [.wrote other piece]) =
    { sent deeds with pieces := (sent deeds).pieces ++ [piece] } := by
  simp [sent, List.findSome?_append, Deed.declared?, Deed.piece?]

theorem sent_append_recorded (deeds : List Deed) (other : Role) : sent (deeds ++ [.recorded other]) = sent deeds := by
  simp [sent, List.findSome?_append, Deed.declared?, Deed.piece?]

end

/-! ## Sessions -/

end Intake

/-- What is recorded of an upload when it is complete. -/
def Upload.input (u : Upload) : StoredInput :=
  ⟨u.role, u.path, u.entryName, u.written⟩

namespace Intake

/-- An intake on a host, the uploads that are open, those that were given up, and what happened to
all of them so far. -/
structure Session where
  intake : Intake
  host : Host
  uploads : List Upload := []
  lost : List Upload := []
  log : List Deed := []

namespace Session

/-- What may happen next.  What the system reports of an operation need not be what the files show:
every operation that reads or writes them may be reported as failed. -/
inductive Step (s : Session) : Session → Prop
  /-- An upload is begun. -/
  | begin {role : Role} {declared : Option String} {u : Upload} {i : Intake} {h : Host}
      (hbegin : Intake.begin role declared (s.intake, s.host) = .ok u (i, h)) :
      Step s { s with
        intake := i, host := h, uploads := u :: s.uploads
        log := s.log ++ [.began role declared, .made role u.path] }
  /-- It is refused, as its role was begun before. -/
  | again {role : Role} {declared : Option String} {part : String} {i : Intake} {h : Host}
      (hbegin : Intake.begin role declared (s.intake, s.host) = .error (.duplicatePart part) (i, h)) :
      Step s { s with intake := i, host := h, log := s.log ++ [.began role declared] }
  /-- Its file is not made; the directory of the inputs may be. -/
  | beginFails {role : Role} (declared : Option String) {h : Host}
      (hfresh : role ∉ s.intake.claimed) (hcwd : h.cwd = s.host.cwd)
      (hfiles : h.files = s.host.files ∨ h.files = (s.host.files.makeDirectories s.host.cwd
        (Path.join s.intake.workspace inputsDirectory)).2) :
      Step s { s with
        intake := { s.intake with claimed := role :: s.intake.claimed }
        host := h, log := s.log ++ [.began role declared] }
  /-- A piece is written. -/
  | write {u u' : Upload} {before after : List Upload} {piece : Bytes} {i : Intake} {h : Host}
      (hopen : s.uploads = before ++ u :: after)
      (hwrite : Intake.write u piece (s.intake, s.host) = .ok u' (i, h)) :
      Step s { s with
        intake := i, host := h, uploads := before ++ u' :: after
        log := s.log ++ [.wrote u.role piece] }
  /-- An upload is recorded. -/
  | commit {u : Upload} {before after : List Upload} {i : Intake} {h : Host}
      (hopen : s.uploads = before ++ u :: after)
      (hcommit : Intake.commit u (s.intake, s.host) = .ok () (i, h)) :
      Step s { s with
        intake := i, host := h, uploads := before ++ after, log := s.log ++ [.recorded u.role] }
  /-- An upload is given up: it was abandoned, or a write to it, or recording it, has failed, or the
  beginning was reported as failed although its file was made. -/
  | giveUp {u : Upload} {before after : List Upload} {h : Host}
      (hopen : s.uploads = before ++ u :: after) (hcwd : h.cwd = s.host.cwd)
      (hfiles : h.files = s.host.files) :
      Step s { s with host := h, uploads := before ++ after, lost := u :: s.lost }
  /-- Anything may still arrive in the file of an upload that was given up. -/
  | late {u : Upload} {offset : Nat} {new : Bytes} {t : Tree} (hlost : u ∈ s.lost)
      (hwrite : s.host.files.writeAt u.sink offset new = .ok t) :
      Step s { s with host := { s.host with files := t } }

/-- What may become of a session. -/
abbrev Runs : Session → Session → Prop :=
  Relation.ReflTransGen Step

/-- What the upload of a role has been sent. -/
def supply (s : Session) (role : Role) : Supply :=
  sent (deedsOf s.log role)

end Session

/-! ## How far the upload of a role has come -/

/-- What a session shows of one role. -/
structure View where
  claimed : Bool
  stored : Option StoredInput
  uploads : List Upload
  lost : List Upload
  deeds : List Deed

/-- One file was made for a role, at the path that its name says. -/
structure HasFile (path : String) (role : Role) (deeds : List Deed) : Prop where
  began : ∃ declared, .began role declared ∈ deeds
  files : filesOf deeds = [((sent deeds).input path role).path]
  room : Path.HasRoom ((sent deeds).input path role).path 0

/-- The place of the file of a role. -/
def placeOf (ws : Place) (role : Role) (deeds : List Deed) : Place :=
  ws ++ storedNames (fun _ => sent deeds) role

/-- How far the upload of a role has come. -/
inductive Phase (t : Tree) (ws : Place) (path : String) (role : Role) : View → Prop
  /-- Nobody has asked for it. -/
  | untouched : Phase t ws path role ⟨false, none, [], [], []⟩
  /-- Its file could not be made. -/
  | failed {deeds : List Deed} (hne : deeds ≠ [])
      (hbegan : ∀ d ∈ deeds, ∃ declared, d = .began role declared) :
      Phase t ws path role ⟨true, none, [], [], deeds⟩
  /-- It is open, and its file holds what was written to it. -/
  | filling {u : Upload} {deeds : List Deed} (hfile : HasFile path role deeds)
      (hrecorded : .recorded role ∉ deeds) (hinput : u.input = (sent deeds).input path role)
      (hopen : t.IsOpenAt (placeOf ws role deeds) u.sink fileMode (sent deeds).data) :
      Phase t ws path role ⟨true, none, [u], [], deeds⟩
  /-- It was given up, and its file holds anything. -/
  | lost {u : Upload} {deeds : List Deed} (data : Bytes) (hfile : HasFile path role deeds)
      (hrecorded : .recorded role ∉ deeds)
      (hopen : t.IsOpenAt (placeOf ws role deeds) u.sink fileMode data) :
      Phase t ws path role ⟨true, none, [], [u], deeds⟩
  /-- It was recorded, and its file holds what was written to it. -/
  | stored {deeds : List Deed} (serial : Nat) (hfile : HasFile path role deeds)
      (hrecorded : .recorded role ∈ deeds)
      (hdata : t.get? (placeOf ws role deeds) = some (.file serial fileMode (sent deeds).data)) :
      Phase t ws path role ⟨true, some ((sent deeds).input path role), [], [], deeds⟩

namespace HasFile

variable {path : String} {role : Role} {deeds : List Deed}

/-- A row of deeds that goes on, as long as no file is made and the name stays. -/
theorem append (h : HasFile path role deeds) {d : Deed} (hd : d.path? = none)
    (hdeclared : (sent (deeds ++ [d])).declared = (sent deeds).declared) :
    HasFile path role (deeds ++ [d]) := by
  have hpath : ((sent (deeds ++ [d])).input path role).path =
      ((sent deeds).input path role).path := by
    simp only [Supply.input, Supply.entryName, hdeclared]
  obtain ⟨declared, hbegan⟩ := h.began
  refine ⟨⟨declared, List.mem_append_left _ hbegan⟩, ?_, hpath ▸ h.room⟩
  rw [hpath, ← h.files]
  simp [filesOf, hd]

theorem append_began (h : HasFile path role deeds) (declared : Option String) :
    HasFile path role (deeds ++ [.began role declared]) :=
  h.append rfl (by rw [sent_append_began role h.began])

theorem append_wrote (h : HasFile path role deeds) (piece : Bytes) :
    HasFile path role (deeds ++ [.wrote role piece]) :=
  h.append rfl (by rw [sent_append_wrote])

theorem append_recorded (h : HasFile path role deeds) :
    HasFile path role (deeds ++ [.recorded role]) :=
  h.append rfl (by rw [sent_append_recorded])

end HasFile

namespace Phase

variable {t t' : Tree} {ws : Place} {path : String} {role : Role} {v : View}

/-- Nothing happened to an upload that nobody asked for. -/
theorem of_unclaimed (h : Phase t ws path role v) (hv : v.claimed = false) :
    v = ⟨false, none, [], [], []⟩ := by
  cases h with
  | untouched => rfl
  | failed | filling | lost | stored => cases hv

/-- The upload that is open is the only one. -/
theorem of_upload (h : Phase t ws path role v) {u : Upload} (hu : u ∈ v.uploads) :
    v = ⟨true, none, [u], [], v.deeds⟩ ∧ HasFile path role v.deeds ∧ .recorded role ∉ v.deeds ∧
      u.input = (sent v.deeds).input path role ∧
      t.IsOpenAt (placeOf ws role v.deeds) u.sink fileMode (sent v.deeds).data := by
  cases h with
  | filling hfile hrecorded hinput hopen =>
    obtain rfl := List.mem_singleton.1 hu
    exact ⟨rfl, hfile, hrecorded, hinput, hopen⟩
  | untouched | failed | lost | stored => cases hu

/-- So is the one that was given up. -/
theorem of_lost (h : Phase t ws path role v) {u : Upload} (hu : u ∈ v.lost) :
    v = ⟨true, none, [], [u], v.deeds⟩ ∧ HasFile path role v.deeds ∧ .recorded role ∉ v.deeds ∧
      ∃ data, t.IsOpenAt (placeOf ws role v.deeds) u.sink fileMode data := by
  cases h with
  | lost data hfile hrecorded hopen =>
    obtain rfl := List.mem_singleton.1 hu
    exact ⟨rfl, hfile, hrecorded, _, hopen⟩
  | untouched | failed | filling | stored => cases hu

/-- What is recorded is what was sent. -/
theorem of_stored (h : Phase t ws path role v) {input : StoredInput} (hv : v.stored = some input) :
    v = ⟨true, some input, [], [], v.deeds⟩ ∧ input = (sent v.deeds).input path role ∧
      HasFile path role v.deeds ∧ .recorded role ∈ v.deeds ∧
      ∃ serial, t.get? (placeOf ws role v.deeds) =
        some (.file serial fileMode (sent v.deeds).data) := by
  cases h with
  | stored serial hfile hrecorded hdata =>
    obtain rfl := Option.some.inj hv
    exact ⟨rfl, rfl, hfile, hrecorded, _, hdata⟩
  | untouched | failed | filling | lost => cases hv

/-- Other files do not count. -/
theorem of_get? (h : Phase t ws path role v)
    (hget : t'.get? (placeOf ws role v.deeds) = t.get? (placeOf ws role v.deeds)) :
    Phase t' ws path role v := by
  cases h with
  | untouched => exact .untouched
  | failed hne hbegan => exact .failed hne hbegan
  | filling hfile hrecorded hinput hopen =>
    obtain ⟨serial, hsink, hdata⟩ := hopen
    exact .filling hfile hrecorded hinput ⟨serial, hsink, hget.trans hdata⟩
  | lost data hfile hrecorded hopen =>
    obtain ⟨serial, hsink, hdata⟩ := hopen
    exact .lost data hfile hrecorded ⟨serial, hsink, hget.trans hdata⟩
  | stored serial hfile hrecorded hdata => exact .stored serial hfile hrecorded (hget.trans hdata)

/-- **Asking again** changes nothing. -/
theorem again (h : Phase t ws path role v) (hclaimed : v.claimed = true)
    (declared : Option String) :
    Phase t ws path role { v with deeds := v.deeds ++ [.began role declared] } := by
  cases h with
  | untouched => cases hclaimed
  | failed hne hbegan =>
    refine .failed (by simp) fun d hd => ?_
    rcases List.mem_append.1 hd with hd | hd
    · exact hbegan d hd
    · exact ⟨declared, List.mem_singleton.1 hd⟩
  | filling hfile hrecorded hinput hopen =>
    have hsent := sent_append_began role hfile.began declared
    refine .filling (hfile.append_began declared) (by simpa using hrecorded) ?_ ?_
    · rw [hsent]
      exact hinput
    · rw [placeOf, hsent]
      exact hopen
  | lost data hfile hrecorded hopen =>
    refine .lost data (hfile.append_began declared) (by simpa using hrecorded) ?_
    rw [placeOf, sent_append_began role hfile.began]
    exact hopen
  | stored serial hfile hrecorded hdata =>
    have hsent := sent_append_began role hfile.began declared
    rw [← hsent]
    refine .stored serial (hfile.append_began declared) (by simpa using hrecorded) ?_
    rw [placeOf, hsent]
    exact hdata

/-- Whoever has begun shows in the deeds, and nobody else does. -/
theorem claimed_iff (h : Phase t ws path role v) :
    v.claimed = true ↔ ∃ declared, .began role declared ∈ v.deeds := by
  cases h with
  | untouched => simp
  | failed hne hbegan =>
    obtain ⟨d, hd⟩ := List.exists_mem_of_ne_nil _ hne
    obtain ⟨declared, rfl⟩ := hbegan d hd
    exact iff_of_true rfl ⟨declared, hd⟩
  | filling hfile => exact iff_of_true rfl hfile.began
  | lost _ hfile => exact iff_of_true rfl hfile.began
  | stored _ hfile => exact iff_of_true rfl hfile.began

/-- No more than one file was made, at the path that the name says. -/
theorem filesOf_cases (h : Phase t ws path role v) : filesOf v.deeds = [] ∨
    v.claimed = true ∧ HasFile path role v.deeds := by
  cases h with
  | untouched => exact .inl rfl
  | failed _ hbegan =>
    refine .inl (List.filterMap_eq_nil_iff.2 fun d hd => ?_)
    obtain ⟨declared, rfl⟩ := hbegan d hd
    rfl
  | filling hfile => exact .inr ⟨rfl, hfile⟩
  | lost _ hfile => exact .inr ⟨rfl, hfile⟩
  | stored _ hfile => exact .inr ⟨rfl, hfile⟩

end Phase

/-! ## One step -/

/-- **What beginning does.** -/
theorem begin_cases (role : Role) (declared : Option String) (i : Intake) (h : Host) :
    (role ∈ i.claimed ∧
      begin role declared (i, h) = .error (.duplicatePart role.partName) (i, h)) ∨
    role ∉ i.claimed ∧
    ((∃ path fault h', begin role declared (i, h) =
        .error (.io path (Fault.message fault)) ({ i with claimed := role :: i.claimed }, h') ∧
        h'.cwd = h.cwd ∧ h'.files =
          (h.files.makeDirectories h.cwd (Path.join i.workspace inputsDirectory)).2) ∨
      ∃ t sink h', begin role declared (i, h) = .ok
          ⟨role, Path.join (Path.join i.workspace inputsDirectory)
            (fileName role (entryName role declared)), entryName role declared, sink, 0⟩
          ({ i with claimed := role :: i.claimed }, h') ∧
        h'.cwd = h.cwd ∧
        h.files.makeDirectories h.cwd (Path.join i.workspace inputsDirectory) = (.ok (), t) ∧
        t.openWrite h.cwd (Path.join (Path.join i.workspace inputsDirectory)
          (fileName role (entryName role declared))) = .ok (sink, h'.files)) := by
  by_cases hclaimed : role ∈ i.claimed
  · left
    refine ⟨hclaimed, ?_⟩
    simp only [begin, List.contains_iff_mem.2 hclaimed, if_true]
  right
  refine ⟨hclaimed, ?_⟩
  have hnot : i.claimed.contains role = false := by simpa using hclaimed
  rcases hmake : h.files.makeDirectories h.cwd (Path.join i.workspace inputsDirectory) with ⟨r, t⟩
  rcases r with fault | ⟨⟩
  · left
    refine ⟨Path.join i.workspace inputsDirectory, fault, ?_⟩
    simp only [begin, hnot, Host.note, hmake]
    exact ⟨_, rfl, rfl, rfl⟩
  rcases hopen : t.openWrite h.cwd (Path.join (Path.join i.workspace inputsDirectory)
      (fileName role (entryName role declared))) with fault | ⟨sink, t'⟩
  · left
    refine ⟨Path.join (Path.join i.workspace inputsDirectory)
      (fileName role (entryName role declared)), fault, ?_⟩
    simp only [begin, hnot, Host.note, hmake, hopen]
    exact ⟨_, rfl, rfl, rfl⟩
  · right
    refine ⟨t, sink, Host.note { h with files := t' }
      (.storing (Path.join (Path.join i.workspace inputsDirectory)
        (fileName role (entryName role declared)))), ?_, rfl, rfl, hopen⟩
    simp only [begin, hnot, Host.note, hmake, hopen]
    rfl

/-- An upload that was begun. -/
theorem begin_of_ok {role : Role} {declared : Option String} {u : Upload} {i i' : Intake}
    {h h' : Host} (hbegin : begin role declared (i, h) = .ok u (i', h')) :
    role ∉ i.claimed ∧ i' = { i with claimed := role :: i.claimed } ∧ h'.cwd = h.cwd ∧
      ∃ t sink, u = ⟨role, Path.join (Path.join i.workspace inputsDirectory)
          (fileName role (entryName role declared)), entryName role declared, sink, 0⟩ ∧
        h.files.makeDirectories h.cwd (Path.join i.workspace inputsDirectory) = (.ok (), t) ∧
        t.openWrite h.cwd u.path = .ok (sink, h'.files) := by
  obtain ⟨-, hrefused⟩ | ⟨hfresh, ⟨_, _, _, hfailed, -⟩ | ⟨t, sink, _, hok, hcwd, hmake, hopen⟩⟩ :=
    begin_cases role declared i h
  · rw [hrefused] at hbegin
    cases hbegin
  · rw [hfailed] at hbegin
    cases hbegin
  · rw [hok] at hbegin
    cases hbegin
    exact ⟨hfresh, rfl, hcwd, t, sink, rfl, hmake, hopen⟩

/-- An upload that was refused. -/
theorem begin_of_duplicate {role : Role} {declared : Option String} {part : String}
    {i i' : Intake} {h h' : Host}
    (hbegin : begin role declared (i, h) = .error (.duplicatePart part) (i', h')) :
    role ∈ i.claimed ∧ part = role.partName ∧ i' = i ∧ h' = h := by
  obtain ⟨hclaimed, hrefused⟩ | ⟨-, ⟨_, _, _, hfailed, -⟩ | ⟨_, _, _, hok, -⟩⟩ :=
    begin_cases role declared i h
  · rw [hrefused] at hbegin
    cases hbegin
    exact ⟨hclaimed, rfl, rfl, rfl⟩
  · rw [hfailed] at hbegin
    cases hbegin
  · rw [hok] at hbegin
    cases hbegin

/-- What writing does to the files. -/
theorem files_of_write {u u' : Upload} {piece : Bytes} {i i' : Intake} {h h' : Host}
    (hwrite : write u piece (i, h) = .ok u' (i', h')) :
    h'.cwd = h.cwd ∧ h.files.writeAt u.sink u.written piece = .ok h'.files := by
  simp only [write, Host.note] at hwrite
  split at hwrite
  · cases hwrite
  · next hat =>
    cases hwrite
    exact ⟨rfl, hat⟩

/-- Writing to a file that is open never fails. -/
theorem writeAll_of_file {u : Upload} {serial : Nat} (hsink : u.sink = .file serial)
    (pieces : List Bytes) (s : Intake × Host) : ∃ u' s', writeAll u pieces s = .ok u' s' := by
  induction pieces generalizing u s with
  | nil => exact ⟨u, s, rfl⟩
  | cons piece rest ih =>
    obtain ⟨u₁, s₁, hwrite, hsink₁⟩ : ∃ u₁ s₁, write u piece s = .ok u₁ s₁ ∧
        u₁.sink = .file serial := by
      simp only [write, hsink, writeAt]
      exact ⟨_, _, rfl, rfl⟩
    obtain ⟨u₂, s₂, hrest⟩ := ih hsink₁ s₁
    exact ⟨u₂, s₂, (Service.bind_of_ok hwrite).trans hrest⟩

/-- A write that fails changes nothing. -/
theorem write_of_error {u : Upload} {piece : Bytes} {e : BuildError} {i i' : Intake} {h h' : Host}
    (hwrite : write u piece (i, h) = .error e (i', h')) :
    i' = i ∧ h'.cwd = h.cwd ∧ h'.files = h.files := by
  simp only [write, Host.note] at hwrite
  split at hwrite
  · cases hwrite
    exact ⟨rfl, rfl, rfl⟩
  · cases hwrite

namespace Session

/-- What a session shows of a role. -/
def view (s : Session) (role : Role) : View where
  claimed := s.intake.claimed.contains role
  stored := s.intake.stored? role
  uploads := s.uploads.filter (·.role = role)
  lost := s.lost.filter (·.role = role)
  deeds := deedsOf s.log role

theorem view_eq {s : Session} {role : Role} {v : View}
    (hclaimed : s.intake.claimed.contains role = v.claimed)
    (hstored : s.intake.stored? role = v.stored)
    (huploads : s.uploads.filter (·.role = role) = v.uploads)
    (hlost : s.lost.filter (·.role = role) = v.lost) (hdeeds : deedsOf s.log role = v.deeds) :
    s.view role = v := by
  rw [view, hclaimed, hstored, huploads, hlost, hdeeds]

/-- What is known of a session: the workspace holds the files of the roles for which one was made, and
the upload of each role has come so far. -/
structure Kept (base : Tree) (cwd ws : Place) (path : String) (s : Session) : Prop where
  workspace : s.intake.workspace = path
  cwd_eq : s.host.cwd = cwd
  prepared : Prepared ws base s.host.files
  stocked : ∃ held, Stocked ws s.supply held s.host.files ∧
    ∀ role, held role ≠ none → filesOf (deedsOf s.log role) ≠ []
  phase : ∀ role, Phase s.host.files ws path role (s.view role)

section
variable {base : Tree} {cwd ws : Place} {path : String} {s s' : Session} {role : Role}

/-- The deeds of one role do not show in another one. -/
theorem deedsOf_of_view (hview : s'.view role = s.view role) :
    deedsOf s'.log role = deedsOf s.log role :=
  congrArg View.deeds hview

/-- Files have the names that they had, as long as the names that were sent stay. -/
theorem stocked_of_names {t : Tree} {held : Role → Option Bytes} (h : Stocked ws s.supply held t)
    (hfiles : ∀ role, held role ≠ none → filesOf (deedsOf s.log role) ≠ [])
    (hother : ∀ other, other ≠ role → s'.view other = s.view other)
    (hself : filesOf (deedsOf s.log role) ≠ [] →
      (s'.supply role).declared = (s.supply role).declared ∧
        filesOf (deedsOf s'.log role) ≠ []) :
    Stocked ws s'.supply held t ∧
      ∀ role, held role ≠ none → filesOf (deedsOf s'.log role) ≠ [] := by
  have hsame (other : Role) (hheld : held other ≠ none) :
      (s'.supply other).declared = (s.supply other).declared ∧
        filesOf (deedsOf s'.log other) ≠ [] := by
    by_cases hrole : other = role
    · subst hrole
      exact hself (hfiles other hheld)
    · have hdeeds := deedsOf_of_view (hother other hrole)
      rw [supply, supply, hdeeds]
      exact ⟨rfl, hfiles other hheld⟩
  refine ⟨h.congr fun other hheld => ?_, fun other hheld => (hsame other hheld).2⟩
  simp only [storedNames, Supply.entryName, (hsame other hheld).1]

/-- **A step** that concerns one role keeps what is known of all others. -/
theorem Kept.of_views (role : Role) (h : Kept base cwd ws path s)
    (hworkspace : s'.intake.workspace = s.intake.workspace) (hcwd : s'.host.cwd = s.host.cwd)
    (hprepared : Prepared ws base s'.host.files)
    (hstocked : ∃ held, Stocked ws s'.supply held s'.host.files ∧
      ∀ role, held role ≠ none → filesOf (deedsOf s'.log role) ≠ [])
    (hother : ∀ other, other ≠ role → s'.view other = s.view other ∧
      s'.host.files.get? (placeOf ws other (deedsOf s.log other)) =
        s.host.files.get? (placeOf ws other (deedsOf s.log other)))
    {v : View} (hview : s'.view role = v) (hself : Phase s'.host.files ws path role v) :
    Kept base cwd ws path s' where
  workspace := hworkspace.trans h.workspace
  cwd_eq := hcwd.trans h.cwd_eq
  prepared := hprepared
  stocked := hstocked
  phase other := by
    by_cases hrole : other = role
    · rw [hrole, hview]
      exact hself
    · obtain ⟨hview, hget⟩ := hother other hrole
      rw [hview]
      exact (h.phase other).of_get? hget

/-- A step after which every file is what it was. -/
theorem Kept.of_same_files (role : Role) (h : Kept base cwd ws path s)
    (hworkspace : s'.intake.workspace = s.intake.workspace) (hcwd : s'.host.cwd = s.host.cwd)
    (hfiles : s'.host.files = s.host.files)
    (hother : ∀ other, other ≠ role → s'.view other = s.view other)
    (hnames : filesOf (deedsOf s.log role) ≠ [] →
      (s'.supply role).declared = (s.supply role).declared ∧
        filesOf (deedsOf s'.log role) ≠ [])
    {v : View} (hview : s'.view role = v) (hself : Phase s.host.files ws path role v) :
    Kept base cwd ws path s' := by
  obtain ⟨held, hstocked, hheld⟩ := h.stocked
  refine h.of_views role hworkspace hcwd (hfiles ▸ h.prepared) ⟨held, ?_⟩
    (fun other hrole => ⟨hother other hrole, by rw [hfiles]⟩) hview (hfiles ▸ hself)
  rw [hfiles]
  exact stocked_of_names hstocked hheld hother hnames

/-- A role that is not claimed has no upload at all. -/
theorem Kept.untouched (h : Kept base cwd ws path s) (hrole : role ∉ s.intake.claimed) :
    s.intake.stored? role = none ∧ s.uploads.filter (·.role = role) = [] ∧
      s.lost.filter (·.role = role) = [] ∧ deedsOf s.log role = [] := by
  have hview := (h.phase role).of_unclaimed (by simpa [view] using hrole)
  simp only [view, View.mk.injEq] at hview
  exact ⟨hview.2.1, hview.2.2.1, hview.2.2.2.1, hview.2.2.2.2⟩

/-- Files of different roles are at different places. -/
theorem placeOf_ne {deeds deeds' : List Deed} {other : Role} (hother : other ≠ role) :
    placeOf ws other deeds ≠ placeOf ws role deeds' := by
  intro heq
  have hnames := List.append_cancel_left heq
  have hboth : storedNames (fun r => if r = other then sent deeds else sent deeds') other =
      storedNames (fun r => if r = other then sent deeds else sent deeds') role := by
    simpa [storedNames, Ne.symm hother] using hnames
  exact hother (storedNames_injective _ hboth)

/-- The upload that is open is all that there is of its role. -/
theorem Kept.of_open (h : Kept base cwd ws path s) {u : Upload} {before after : List Upload}
    (hopen : s.uploads = before ++ u :: after) :
    (u.role ∈ s.intake.claimed ∧ s.intake.stored? u.role = none ∧
      before.filter (·.role = u.role) = [] ∧ after.filter (·.role = u.role) = [] ∧
      s.lost.filter (·.role = u.role) = []) ∧
    HasFile path u.role (deedsOf s.log u.role) ∧ .recorded u.role ∉ deedsOf s.log u.role ∧
      u.input = (s.supply u.role).input path u.role ∧
      s.host.files.IsOpenAt (placeOf ws u.role (deedsOf s.log u.role)) u.sink fileMode
        (s.supply u.role).data := by
  have hmem : u ∈ (s.view u.role).uploads := by simp [view, hopen]
  obtain ⟨hview, hknown⟩ := (h.phase u.role).of_upload hmem
  simp only [view, View.mk.injEq, hopen, List.filter_append, List.filter_cons] at hview
  obtain ⟨hclaimed, hstored, huploads, hlost, -⟩ := hview
  refine ⟨⟨by simpa using hclaimed, hstored, ?_, ?_, hlost⟩, hknown⟩
  all_goals
    simp only [decide_true, if_true] at huploads
    generalize before.filter (·.role = u.role) = front at huploads ⊢
    generalize after.filter (·.role = u.role) = back at huploads ⊢
    cases front <;> simp_all

/-- A path behind which a file was opened is not too long. -/
theorem hasRoom_of_openWrite {t t' : Tree} {sink : Sink} (hpath : Path.IsOpen path)
    (hopen : t.openWrite cwd path = .ok (sink, t')) : Path.HasRoom path 0 := by
  obtain ⟨p, hp, -⟩ := openWrite_eq_ok hopen
  obtain ⟨hnul, -, hshort⟩ := (resolve_eq_ok_iff.1 hp).1
  exact ⟨hpath, by simpa using hnul, hshort⟩

/-- **An upload is begun.** -/
theorem Kept.begin (h : Kept base cwd ws path s) (hsite : base.Site cwd path ws)
    (hpath : Path.IsOpen path) {declared : Option String} {u : Upload} {i : Intake} {host : Host}
    (hbegin : Intake.begin role declared (s.intake, s.host) = .ok u (i, host))
    (hs' : s' = { s with
      intake := i, host, uploads := u :: s.uploads
      log := s.log ++ [.began role declared, .made role u.path] }) : Kept base cwd ws path s' := by
  obtain ⟨hfresh, rfl, hcwd, t, sink, rfl, hmake, hopen⟩ := begin_of_ok hbegin
  obtain ⟨hstored, huploads, hlost, hdeeds⟩ := h.untouched hfresh
  obtain rfl := h.workspace
  obtain rfl := h.cwd_eq
  obtain ⟨held, hstocked, hheld⟩ := h.stocked
  have hhost : s'.host = host := by rw [hs']
  have hdeeds' : deedsOf s'.log role = [.began role declared,
      .made role (Path.join (Path.join s.intake.workspace inputsDirectory)
        (fileName role (entryName role declared)))] := by
    rw [hs', deedsOf_append, hdeeds]
    simp [deedsOf, Deed.role]
  have hsupply : s'.supply role = ⟨declared, []⟩ := by
    rw [supply, hdeeds']
    rfl
  have hview (other : Role) (hother : other ≠ role) : s'.view other = s.view other := by
    simp [hs', view, deedsOf, Deed.role, Ne.symm hother, hother, stored?]
  obtain ⟨hstocked', hheld'⟩ := stocked_of_names hstocked hheld hview fun hne => by
    simp [hdeeds, filesOf] at hne
  obtain ⟨⟨hprepared, hstocked'', hopenAt⟩, hagree⟩ :=
    hstocked'.begun role hsite hpath h.prepared hmake (by rw [hsupply]; exact hopen)
  have hfile : HasFile s.intake.workspace role (deedsOf s'.log role) := by
    refine ⟨⟨declared, by simp [hdeeds']⟩, ?_, ?_⟩
    · rw [← supply, hsupply, hdeeds']
      rfl
    · rw [← supply, hsupply]
      exact hasRoom_of_openWrite (Path.isOpen_join (isPlain_fileName role declared).1 _) hopen
  rw [← hhost] at hprepared hstocked'' hopenAt hagree
  refine h.of_views role (by rw [hs']) (by rw [hhost, hcwd]) hprepared ⟨_, hstocked'', ?_⟩ ?_
    (v := ⟨true, none, [⟨role, Path.join (Path.join s.intake.workspace inputsDirectory)
      (fileName role (entryName role declared)), entryName role declared, sink, 0⟩], [],
      deedsOf s'.log role⟩) ?_ ?_
  · intro other hother
    by_cases hrole : other = role
    · rw [hrole, hfile.files]
      exact List.cons_ne_nil _ _
    · rw [Function.update_of_ne hrole] at hother
      exact hheld' other hother
  · intro other hother
    have hreal : IsReal (placeOf ws other (deedsOf s.log other)) :=
      hsite.isReal.append (isReal_storedNames other)
    exact ⟨hview other hother,
      hagree _ hreal (by simp [placeOf, storedNames]) (placeOf_ne hother)⟩
  · rw [hs']
    exact view_eq (by simp) hstored (by simp [huploads]) hlost rfl
  · refine .filling hfile (by simp [hdeeds']) ?_ ?_
    · rw [← supply, hsupply]
      rfl
    · have hdata : (s'.supply role).data = [] := by
        rw [hsupply]
        rfl
      rw [← supply, hdata]
      exact hopenAt

/-- **An upload is refused.** -/
theorem Kept.again (h : Kept base cwd ws path s) {declared : Option String} {part : String}
    {i : Intake} {host : Host}
    (hbegin : Intake.begin role declared (s.intake, s.host) = .error (.duplicatePart part) (i, host))
    (hs' : s' = { s with intake := i, host, log := s.log ++ [.began role declared] }) :
    Kept base cwd ws path s' := by
  obtain ⟨hclaimed, rfl, rfl, rfl⟩ := begin_of_duplicate hbegin
  have hclaims := List.contains_iff_mem.2 hclaimed
  have hbegan : ∃ declared, .began role declared ∈ deedsOf s.log role :=
    (h.phase role).claimed_iff.1 hclaims
  have hdeeds : deedsOf s'.log role = deedsOf s.log role ++ [.began role declared] := by
    rw [hs', deedsOf_append]
    simp [deedsOf, Deed.role]
  refine h.of_same_files role (by rw [hs']) (by rw [hs']) (by rw [hs']) (fun other hother => ?_)
    (fun hfiles => ?_) ?_ ((h.phase role).again hclaims declared)
  · simp [hs', view, deedsOf, Deed.role, Ne.symm hother]
  · rw [supply, supply, hdeeds, sent_append_began role hbegan]
    exact ⟨rfl, by simpa [filesOf, Deed.path?] using hfiles⟩
  · rw [hs'] at hdeeds ⊢
    exact view_eq rfl rfl rfl rfl hdeeds

/-- **An upload is not begun**, as its file is not made. -/
theorem Kept.beginFails (h : Kept base cwd ws path s) (hsite : base.Site cwd path ws)
    {declared : Option String} {host : Host} (hfresh : role ∉ s.intake.claimed)
    (hcwd : host.cwd = s.host.cwd)
    (hfiles : host.files = s.host.files ∨ host.files = (s.host.files.makeDirectories s.host.cwd
      (Path.join s.intake.workspace inputsDirectory)).2)
    (hs' : s' = { s with
      intake := { s.intake with claimed := role :: s.intake.claimed }
      host, log := s.log ++ [.began role declared] }) : Kept base cwd ws path s' := by
  obtain ⟨hstored, huploads, hlost, hdeeds⟩ := h.untouched hfresh
  obtain ⟨held, hstocked, hheld⟩ := h.stocked
  have hhost : s'.host = host := by rw [hs']
  obtain ⟨hprepared, hstocked', hget⟩ : Prepared ws base s'.host.files ∧
      Stocked ws s.supply held s'.host.files ∧
      ∀ q, q ≠ ws ++ [inputsDirectory] → s'.host.files.get? q = s.host.files.get? q := by
    rcases hfiles with hfiles | hfiles
    · rw [hhost, hfiles]
      exact ⟨h.prepared, hstocked, fun _ _ => rfl⟩
    · rw [hhost, hfiles, h.workspace, h.cwd_eq]
      exact hstocked.makeDirectories hsite h.prepared rfl
  have hdeeds' : deedsOf s'.log role = [.began role declared] := by
    rw [hs', deedsOf_append, hdeeds]
    simp [deedsOf, Deed.role]
  have hview (other : Role) (hother : other ≠ role) : s'.view other = s.view other := by
    simp [hs', view, deedsOf, Deed.role, Ne.symm hother, hother, stored?]
  refine h.of_views role (by rw [hs']) (by rw [hhost, hcwd]) hprepared
    ⟨held, stocked_of_names hstocked' hheld hview fun hne => by simp [hdeeds, filesOf] at hne⟩
    (fun other hother => ⟨hview other hother, hget _ (by simp [placeOf, storedNames])⟩)
    (v := ⟨true, none, [], [], [.began role declared]⟩) ?_ (.failed (by simp) (by simp))
  rw [hs'] at hdeeds' ⊢
  exact view_eq (by simp) hstored huploads hlost hdeeds'

/-- **An upload is given up.** -/
theorem Kept.giveUp (h : Kept base cwd ws path s) {u : Upload} {before after : List Upload}
    {host : Host} (hopen : s.uploads = before ++ u :: after) (hcwd : host.cwd = s.host.cwd)
    (hfiles : host.files = s.host.files)
    (hs' : s' = { s with host, uploads := before ++ after, lost := u :: s.lost }) :
    Kept base cwd ws path s' := by
  obtain ⟨⟨hclaimed, hstored, hbefore, hafter, hlost⟩, hfile, hrecorded, -, hopenAt⟩ :=
    h.of_open hopen
  refine h.of_same_files u.role (by rw [hs']) (by rw [hs', hcwd]) (by rw [hs', hfiles])
    (fun other hother => ?_) (fun hne => ?_) (v := ⟨true, none, [], [u], deedsOf s.log u.role⟩) ?_
    (.lost _ hfile hrecorded hopenAt)
  · simp [hs', view, hopen, Ne.symm hother]
  · rw [hs']
    exact ⟨rfl, hne⟩
  · rw [hs']
    exact view_eq (List.contains_iff_mem.2 hclaimed) hstored (by simp [hbefore, hafter])
      (by simp [hlost]) rfl

/-- **An upload is recorded.** -/
theorem Kept.commit (h : Kept base cwd ws path s) {u : Upload} {before after : List Upload}
    {i : Intake} {host : Host} (hopen : s.uploads = before ++ u :: after)
    (hcommit : Intake.commit u (s.intake, s.host) = .ok () (i, host))
    (hs' : s' = { s with
      intake := i, host, uploads := before ++ after, log := s.log ++ [.recorded u.role] }) :
    Kept base cwd ws path s' := by
  cases hcommit
  obtain ⟨⟨hclaimed, -, hbefore, hafter, hlost⟩, hfile, -, hinput, serial, -, hdata⟩ :=
    h.of_open hopen
  have hdeeds : deedsOf s'.log u.role = deedsOf s.log u.role ++ [.recorded u.role] := by
    rw [hs', deedsOf_append]
    simp [deedsOf, Deed.role]
  have hsent := sent_append_recorded (deedsOf s.log u.role) u.role
  have hkept (other : Role) : s'.intake.stored? other =
      if other = u.role then some u.input else s.intake.stored? other := by
    rw [hs']
    exact stored?_record s.intake u.input other
  refine h.of_same_files u.role (by rw [hs']) (by rw [hs']) (by rw [hs']) (fun other hother => ?_)
    (fun hne => ?_)
    (v := ⟨true, some u.input, [], [], deedsOf s.log u.role ++ [.recorded u.role]⟩) ?_ ?_
  · have hother' := hkept other
    rw [if_neg hother] at hother'
    rw [hs'] at hother' ⊢
    exact view_eq rfl hother' (by simp [view, hopen, Ne.symm hother]) rfl
      (by simp [view, deedsOf, Deed.role, Ne.symm hother])
  · rw [supply, supply, hdeeds, hsent]
    exact ⟨rfl, by simpa [filesOf, Deed.path?] using hne⟩
  · have hself := (hkept u.role).trans (if_pos rfl)
    rw [hs'] at hself hdeeds ⊢
    exact view_eq (List.contains_iff_mem.2 hclaimed) hself (by simp [hbefore, hafter]) hlost hdeeds
  · rw [hinput, supply, ← hsent]
    refine .stored serial hfile.append_recorded (by simp) ?_
    rw [placeOf, hsent]
    exact hdata

/-- Writing to the file of a role changes no file of another one. -/
theorem Kept.wrote (h : Kept base cwd ws path s) (hsite : base.Site cwd path ws)
    {sink : Sink} {data new : Bytes} {offset : Nat} {t : Tree}
    (hfile : HasFile path role (deedsOf s.log role))
    (hopen : s.host.files.IsOpenAt (placeOf ws role (deedsOf s.log role)) sink fileMode data)
    (hwrite : s.host.files.writeAt sink offset new = .ok t) :
    (Prepared ws base t ∧ ∃ held, Stocked ws s.supply held t ∧
      ∀ role, held role ≠ none → filesOf (deedsOf s.log role) ≠ []) ∧
    (∀ other, other ≠ role → t.get? (placeOf ws other (deedsOf s.log other)) =
      s.host.files.get? (placeOf ws other (deedsOf s.log other))) ∧
    t.IsOpenAt (placeOf ws role (deedsOf s.log role)) sink fileMode (overwrite data offset new) := by
  obtain ⟨held, hstocked, hheld⟩ := h.stocked
  obtain ⟨⟨hprepared, hstocked', hopenAt⟩, hagree⟩ :=
    hstocked.wrote hsite.isReal h.prepared hopen hwrite
  refine ⟨⟨hprepared, _, hstocked', fun other hother => ?_⟩, fun other hother => ?_, hopenAt⟩
  · by_cases hrole : other = role
    · rw [hrole, hfile.files]
      exact List.cons_ne_nil _ _
    · rw [Function.update_of_ne hrole] at hother
      exact hheld other hother
  · exact hagree _ (hsite.isReal.append (isReal_storedNames other)) (placeOf_ne hother)

/-- **A piece is written.** -/
theorem Kept.write (h : Kept base cwd ws path s) (hsite : base.Site cwd path ws) {u u' : Upload}
    {before after : List Upload} {piece : Bytes} {i : Intake} {host : Host}
    (hopen : s.uploads = before ++ u :: after)
    (hwrite : Intake.write u piece (s.intake, s.host) = .ok u' (i, host))
    (hs' : s' = { s with
      intake := i, host, uploads := before ++ u' :: after, log := s.log ++ [.wrote u.role piece] }) :
    Kept base cwd ws path s' := by
  obtain ⟨⟨hclaimed, hstored, hbefore, hafter, hlost⟩, hfile, hrecorded, hinput, hopenAt⟩ :=
    h.of_open hopen
  obtain ⟨rfl, rfl⟩ := write_eq_ok hwrite
  obtain ⟨hcwd, hat⟩ := files_of_write hwrite
  obtain ⟨⟨hprepared, held, hstocked, hheld⟩, hother, hopenAt'⟩ := h.wrote hsite hfile hopenAt hat
  have hwritten : u.written = (s.supply u.role).data.length := congrArg StoredInput.size hinput
  have hhost : s'.host = host := by rw [hs']
  have hdeeds : deedsOf s'.log u.role = deedsOf s.log u.role ++ [.wrote u.role piece] := by
    rw [hs', deedsOf_append]
    simp [deedsOf, Deed.role]
  have hsent : sent (deedsOf s.log u.role ++ [.wrote u.role piece]) =
      { s.supply u.role with pieces := (s.supply u.role).pieces ++ [piece] } :=
    sent_append_wrote u.role piece
  have hview (other : Role) (hother : other ≠ u.role) : s'.view other = s.view other := by
    simp [hs', hopen, view, deedsOf, Deed.role, Ne.symm hother, stored?]
  have hnames (hne : filesOf (deedsOf s.log u.role) ≠ []) :
      (s'.supply u.role).declared = (s.supply u.role).declared ∧
        filesOf (deedsOf s'.log u.role) ≠ [] := by
    rw [supply, supply, hdeeds, hsent]
    exact ⟨rfl, by simpa [filesOf, Deed.path?] using hne⟩
  rw [← hhost] at hprepared hstocked hother hopenAt'
  refine h.of_views u.role (by rw [hs']) (by rw [hhost, hcwd]) hprepared
    ⟨held, stocked_of_names hstocked hheld hview hnames⟩
    (fun other hne => ⟨hview other hne, hother other hne⟩)
    (v := ⟨true, none, [{ u with written := u.written + piece.length }], [],
      deedsOf s.log u.role ++ [.wrote u.role piece]⟩) ?_
    (.filling (hfile.append_wrote piece) (by simpa using hrecorded) ?_ ?_)
  · rw [hs'] at hdeeds ⊢
    exact view_eq (List.contains_iff_mem.2 hclaimed) hstored (by simp [hbefore, hafter]) hlost hdeeds
  · have hgrown : (sent (deedsOf s.log u.role ++ [.wrote u.role piece])).data.length =
        u.written + piece.length := by
      rw [hsent, hwritten]
      simp [Supply.data, supply]
    have hnamed : u.role = u.role ∧ u.path = ((s.supply u.role).input path u.role).path ∧
        u.entryName = (s.supply u.role).entryName u.role :=
      ⟨rfl, congrArg StoredInput.path hinput, congrArg StoredInput.entryName hinput⟩
    rw [Upload.input, Supply.input, hgrown, hsent]
    exact congr (congr (congrArg _ hnamed.2.1) hnamed.2.2) rfl
  · rw [hwritten, overwrite_end] at hopenAt'
    have hdata : (sent (deedsOf s.log u.role ++ [.wrote u.role piece])).data =
        (s.supply u.role).data ++ piece := by
      rw [hsent]
      simp [Supply.data, supply]
    rw [hdata, placeOf, hsent]
    exact hopenAt'

/-- **Something arrives** in the file of an upload that was given up. -/
theorem Kept.late (h : Kept base cwd ws path s) (hsite : base.Site cwd path ws) {u : Upload}
    {offset : Nat} {new : Bytes} {t : Tree} (hlost : u ∈ s.lost)
    (hwrite : s.host.files.writeAt u.sink offset new = .ok t)
    (hs' : s' = { s with host := { s.host with files := t } }) : Kept base cwd ws path s' := by
  have hmem : u ∈ (s.view u.role).lost := by simp [view, hlost]
  obtain ⟨hview, hfile, hrecorded, data, hopenAt⟩ := (h.phase u.role).of_lost hmem
  obtain ⟨⟨hprepared, hstocked⟩, hother, hopenAt'⟩ := h.wrote hsite hfile hopenAt hwrite
  subst hs'
  refine h.of_views u.role rfl rfl hprepared hstocked (fun other hne => ⟨rfl, hother other hne⟩)
    hview (.lost _ hfile hrecorded hopenAt')

/-- **Each step** keeps what is known of every role. -/
theorem Kept.step (h : Kept base cwd ws path s) (hsite : base.Site cwd path ws)
    (hpath : Path.IsOpen path) (hstep : s.Step s') : Kept base cwd ws path s' := by
  cases hstep with
  | begin hbegin => exact h.begin hsite hpath hbegin rfl
  | again hbegin => exact h.again hbegin rfl
  | beginFails _ hfresh hcwd hfiles => exact h.beginFails hsite hfresh hcwd hfiles rfl
  | write hopen hwrite => exact h.write hsite hopen hwrite rfl
  | commit hopen hcommit => exact h.commit hopen hcommit rfl
  | giveUp hopen hcwd hfiles => exact h.giveUp hopen hcwd hfiles rfl
  | late hlost hwrite => exact h.late hsite hlost hwrite rfl

/-- **Any history** keeps it. -/
theorem Kept.runs (h : Kept base cwd ws path s) (hsite : base.Site cwd path ws)
    (hpath : Path.IsOpen path) (hruns : s.Runs s') : Kept base cwd ws path s' := by
  induction hruns with
  | refl => exact h
  | tail _ hstep ih => exact ih.step hsite hpath hstep

/-- **A recorded role** is left alone. -/
theorem Kept.stored_step (h : Kept base cwd ws path s) {input : StoredInput}
    (hstored : s.intake.stored? role = some input) (hstep : s.Step s') :
    s'.intake.stored? role = some input ∧ s'.supply role = s.supply role := by
  obtain ⟨hview, -, hfile, -⟩ := (h.phase role).of_stored hstored
  simp only [view, View.mk.injEq] at hview
  obtain ⟨hclaimed, -, huploads, -⟩ := hview
  have hclaims : role ∈ s.intake.claimed := by simpa using hclaimed
  have hnone {u : Upload} {before after : List Upload} (hopen : s.uploads = before ++ u :: after) :
      u.role ≠ role := by
    rintro rfl
    simp [hopen] at huploads
  -- the deeds of other roles do not show in what was sent
  have hkeeps {new : List Deed} (hother : ∀ d ∈ new, d.role ≠ role) :
      sent (deedsOf (s.log ++ new) role) = s.supply role := by
    have hnew : deedsOf new role = [] := List.filter_eq_nil_iff.2 fun d hd => by simp [hother d hd]
    rw [deedsOf_append, hnew, List.append_nil, supply]
  cases hstep with
  | begin hbegin =>
    obtain ⟨hfresh, rfl, -⟩ := begin_of_ok hbegin
    have hne := ne_of_mem_of_not_mem hclaims hfresh
    exact ⟨hstored, hkeeps (by simp [Deed.role, Ne.symm hne])⟩
  | @again other declared part i host hbegin =>
    obtain ⟨-, -, rfl, -⟩ := begin_of_duplicate hbegin
    refine ⟨hstored, ?_⟩
    by_cases hrole : other = role
    · have hdeeds : deedsOf [.began other declared] role = [.began role declared] := by
        simp [deedsOf, Deed.role, hrole]
      rw [supply, supply, deedsOf_append, hdeeds]
      exact sent_append_began role hfile.began declared
    · exact hkeeps (by simp [Deed.role, hrole])
  | beginFails _ hfresh _ _ =>
    have hne := ne_of_mem_of_not_mem hclaims hfresh
    exact ⟨hstored, hkeeps (by simp [Deed.role, Ne.symm hne])⟩
  | write hopen hwrite =>
    obtain ⟨rfl, -⟩ := write_eq_ok hwrite
    exact ⟨hstored, hkeeps (by simp [Deed.role, hnone hopen])⟩
  | @commit u before after i host hopen hcommit =>
    cases hcommit
    have hkept : stored? { s.intake with
        stored := u.input :: s.intake.stored.filter (·.role ≠ u.role) } role =
        s.intake.stored? role :=
      (stored?_record s.intake u.input role).trans (if_neg (Ne.symm (hnone hopen)))
    exact ⟨hkept.trans hstored, hkeeps (by simp [Deed.role, hnone hopen])⟩
  | giveUp _ _ _ => exact ⟨hstored, rfl⟩
  | late _ _ => exact ⟨hstored, rfl⟩

/-- **An upload** is begun if nobody has asked for its role, and paths do not get too long. -/
theorem Kept.begin_ok (h : Kept base cwd ws path s) (hsite : base.Site cwd path ws)
    (hroom : Path.HasRoom path 30) (hnormal : Path.normal path = path)
    (hrole : role ∉ s.intake.claimed) (declared : Option String) :
    ∃ u i h', Intake.begin role declared (s.intake, s.host) = .ok u (i, h') ∧
      ∃ serial, u.sink = .file serial := by
  obtain ⟨held, hstocked, hheld⟩ := h.stocked
  have hnone : held role = none := by
    by_contra hsome
    have hfiles := hheld role hsome
    rw [(h.untouched hrole).2.2.2] at hfiles
    exact hfiles rfl
  have hstocked' : Stocked ws (Function.update s.supply role ⟨declared, []⟩) held s.host.files :=
    hstocked.congr fun other hother => by
      have hne : other ≠ role := fun heq => hother (heq ▸ hnone)
      simp only [storedNames, Function.update_of_ne hne]
  obtain ⟨t₁, sink, t₂, hmake, hopen⟩ := hstocked'.canBegin hsite h.prepared hroom hnormal role
  obtain ⟨⟨-, -, serial, rfl, -⟩, -⟩ :=
    hstocked'.begun role hsite hroom.toIsOpen h.prepared hmake hopen
  rw [Function.update_self] at hopen
  rw [← h.cwd_eq, ← h.workspace] at hmake hopen
  obtain ⟨u, ⟨i, h'⟩, hbegin, hsink⟩ := begin_of_made hrole hmake hopen
  exact ⟨u, i, h', hbegin, serial, hsink⟩

/-- **An upload** is stored then. -/
theorem Kept.take_ok (h : Kept base cwd ws path s) (hsite : base.Site cwd path ws)
    (hroom : Path.HasRoom path 30) (hnormal : Path.normal path = path)
    (hrole : role ∉ s.intake.claimed) (supply : Supply) :
    ∃ i h', take role supply (s.intake, s.host) = .ok () (i, h') := by
  obtain ⟨u, i, h', hbegin, serial, hsink⟩ :=
    h.begin_ok hsite hroom hnormal hrole supply.declared
  obtain ⟨u', s₂, hwrite⟩ := writeAll_of_file hsink supply.pieces (i, h')
  exact ⟨_, _, (Service.bind_of_ok hbegin).trans ((Service.bind_of_ok hwrite).trans rfl)⟩

end

/-! ## Uploads from their beginning to their record -/

/-- Pieces that are written one after the other. -/
theorem runs_writeAll {pieces : List Bytes} {s : Session} {u u' : Upload} {rest : List Upload}
    {i : Intake} {h : Host} (hopen : s.uploads = u :: rest)
    (hwrite : writeAll u pieces (s.intake, s.host) = .ok u' (i, h)) :
    ∃ s', s.Runs s' ∧ s'.intake = i ∧ s'.host = h ∧ s'.uploads = u' :: rest ∧
      s'.log = s.log ++ pieces.map (.wrote u.role) := by
  induction pieces generalizing s u with
  | nil =>
    cases hwrite
    exact ⟨s, .refl, rfl, rfl, hopen, by simp⟩
  | cons piece more ih =>
    obtain ⟨v, ⟨i₁, h₁⟩, hfirst, hmore⟩ := Service.bind_eq_ok hwrite
    obtain ⟨s₁, hstep, rfl, rfl, huploads₁, hlog₁⟩ : ∃ s₁, s.Step s₁ ∧ s₁.intake = i₁ ∧
        s₁.host = h₁ ∧ s₁.uploads = v :: rest ∧ s₁.log = s.log ++ [.wrote u.role piece] :=
      have hlast : s.uploads = [] ++ u :: rest := hopen
      ⟨_, .write hlast hfirst, rfl, rfl, rfl, rfl⟩
    obtain ⟨s', hruns, hi, hh, huploads, hlog⟩ := ih huploads₁ hmore
    obtain ⟨-, rfl⟩ := write_eq_ok hfirst
    exact ⟨s', .head hstep hruns, hi, hh, huploads, by simp [hlog, hlog₁]⟩

/-- **One upload** from its beginning to its record. -/
theorem runs_take {s : Session} {role : Role} {supply : Supply} {i : Intake} {h : Host}
    (htake : take role supply (s.intake, s.host) = .ok () (i, h)) :
    ∃ s' path, s.Runs s' ∧ s'.intake = i ∧ s'.host = h ∧ s'.log = s.log ++
      ([.began role supply.declared, .made role path] ++ supply.pieces.map (.wrote role) ++
        [.recorded role]) := by
  obtain ⟨u, ⟨i₁, h₁⟩, hbegin, hrest⟩ := Service.bind_eq_ok htake
  obtain ⟨v, ⟨i₂, h₂⟩, hwrite, hcommit⟩ := Service.bind_eq_ok hrest
  obtain ⟨s₁, hstep, rfl, rfl, huploads₁, hlog₁⟩ : ∃ s₁, s.Step s₁ ∧ s₁.intake = i₁ ∧
      s₁.host = h₁ ∧ s₁.uploads = u :: s.uploads ∧
      s₁.log = s.log ++ [.began role supply.declared, .made role u.path] :=
    ⟨_, .begin hbegin, rfl, rfl, rfl, rfl⟩
  obtain ⟨s₂, hruns, rfl, rfl, huploads₂, hlog₂⟩ := runs_writeAll huploads₁ hwrite
  obtain ⟨s₃, hlast, rfl, rfl, hlog₃⟩ : ∃ s₃, s₂.Step s₃ ∧ s₃.intake = i ∧ s₃.host = h ∧
      s₃.log = s₂.log ++ [.recorded v.role] :=
    have hopen : s₂.uploads = [] ++ v :: s.uploads := huploads₂
    ⟨_, .commit hopen hcommit, rfl, rfl, rfl⟩
  obtain ⟨-, hrole, -⟩ := begin_eq_ok hbegin
  obtain ⟨-, rfl⟩ := writeAll_eq_ok hwrite
  refine ⟨s₃, u.path, .head hstep (hruns.tail hlast), rfl, rfl, ?_⟩
  rw [hlog₃, hlog₂, hlog₁, hrole]
  simp

/-! ## Storing what a reader yields -/

/-- How a computation on an intake ends. -/
def EndsAs {α : Type} (r : EStateM.Result BuildError (Intake × Host) α) (s : Session) : Prop :=
  (∃ a, r = .ok a (s.intake, s.host)) ∨ ∃ e, r = .error e (s.intake, s.host)

/-- **Storing what a reader yields** is a row of steps, whatever fails. -/
theorem runs_store (s : Session) (role : Role) (declared : Option String) (data : Bytes)
    (failure : Option String) : ∃ s', s.Runs s' ∧ s'.uploads = s.uploads ∧
      EndsAs (store role declared data failure (s.intake, s.host)) s' := by
  obtain ⟨-, hrefused⟩ | ⟨hfresh, ⟨_, _, h', hfailed, hcwd, hfiles⟩ | ⟨_, _, _, hok, -⟩⟩ :=
    begin_cases role declared s.intake s.host
  · exact ⟨_, .single (.again hrefused), rfl, .inr ⟨_, Service.bind_of_error hrefused⟩⟩
  · exact ⟨_, .single (.beginFails declared hfresh hcwd (.inr hfiles)), rfl,
      .inr ⟨_, Service.bind_of_error hfailed⟩⟩
  -- from here on there is an upload, which is recorded or given up
  have hbegun := Relation.ReflTransGen.single (Step.begin hok)
  generalize hu : (⟨role, _, _, _, 0⟩ : Upload) = u at hok hbegun
  generalize ({ s.intake with claimed := role :: s.intake.claimed } : Intake) = i at hok hbegun
  rw [store, Service.bind_of_ok hok]
  have hlast : u :: s.uploads = [] ++ u :: s.uploads := rfl
  rcases hwrite : write u data (i, _) with ⟨u', i', h'⟩ | ⟨e, i', h'⟩
  · rw [Service.bind_of_ok hwrite]
    have hwritten := hbegun.tail (.write hlast hwrite)
    have hlast' : u' :: s.uploads = [] ++ u' :: s.uploads := rfl
    cases failure with
    | some detail => exact ⟨_, hwritten.tail (.giveUp hlast' rfl rfl), rfl, .inr ⟨_, rfl⟩⟩
    | none => exact ⟨_, hwritten.tail (.commit hlast' rfl), rfl, .inl ⟨_, rfl⟩⟩
  · rw [Service.bind_of_error hwrite]
    obtain ⟨rfl, hcwd, hfiles⟩ := write_of_error hwrite
    exact ⟨_, hbegun.tail (.giveUp hlast hcwd hfiles), rfl, .inr ⟨_, rfl⟩⟩

/-- **Storing a file** is a row of steps, too; if it cannot be opened there is none. -/
theorem runs_storeFile (s : Session) (role : Role) (source : String) :
    ∃ s', s.Runs s' ∧ s'.uploads = s.uploads ∧
      EndsAs (storeFile role source (s.intake, s.host)) s' := by
  rcases hopen : s.host.files.openRead s.host.cwd source with fault | opened
  · refine ⟨s, .refl, rfl, .inr ⟨.io source fault.message, ?_⟩⟩
    simp only [storeFile, hopen]
  · simp only [storeFile, hopen]
    exact runs_store s role _ _ _

/-! ## Any history -/

/-- Every role has its own upload, which nobody else touches. -/
structure Orderly (s : Session) : Prop where
  /-- What is recorded was claimed. -/
  claimed : ∀ role input, s.intake.stored? role = some input → role ∈ s.intake.claimed
  /-- The record names a file of its own in the directory of the inputs, which holds the pieces. -/
  record : ∀ role input, s.intake.stored? role = some input → input.role = role ∧
    (∃ name, '/' ∉ name.toList ∧
      input.path = Path.join (Path.join s.intake.workspace inputsDirectory) name) ∧
    (∀ other file, .made other file ∈ s.log → other ≠ role → file ≠ input.path) ∧
    input.size = (s.supply role).data.length ∧
    s.host.files.Shows s.host.cwd input.path (s.supply role).data
  /-- It stays as it is, and so does the file. -/
  untouched : ∀ role input s', s.intake.stored? role = some input → s.Runs s' →
    s'.intake.stored? role = some input ∧
      s'.host.files.Shows s'.host.cwd input.path (s.supply role).data
  /-- At most one file was made for a role. -/
  sole : ∀ role, (filesOf (deedsOf s.log role)).length ≤ 1
  /-- There is nothing else in the workspace. -/
  nothing : ∀ ws q, s.host.files.resolve s.host.cwd s.intake.workspace false = .ok ws → IsReal q →
    ws <+: q → s.host.files.get? q ≠ none → q = ws ∨ q = ws ++ [inputsDirectory] ∨
      ∃ role name, .made role (Path.join (Path.join s.intake.workspace inputsDirectory) name) ∈ s.log ∧
        q = ws ++ [inputsDirectory, name]
  /-- Beginning is refused if and only if somebody has asked before. -/
  refused : ∀ role declared, (∃ part s', begin role declared (s.intake, s.host) =
    .error (.duplicatePart part) s') ↔ ∃ first, .began role first ∈ s.log
  /-- Nothing changes then. -/
  again : ∀ role declared part s', begin role declared (s.intake, s.host) =
    .error (.duplicatePart part) s' → part = role.partName ∧ s' = (s.intake, s.host)
  /-- Nothing changes if a file that should be stored cannot be opened. -/
  unopened : ∀ role source fault, s.host.files.openRead s.host.cwd source = .error fault →
    storeFile role source (s.intake, s.host) =
      .error (.io source fault.message) (s.intake, s.host)
  /-- Storing what a reader yields, or a file, comes to nothing that steps do not come to. -/
  stores : (∀ role declared data failure, ∃ s', s.Runs s' ∧ s'.uploads = s.uploads ∧
      EndsAs (store role declared data failure (s.intake, s.host)) s') ∧
    ∀ role source, ∃ s', s.Runs s' ∧ s'.uploads = s.uploads ∧
      EndsAs (storeFile role source (s.intake, s.host)) s'
  /-- The intake is complete if and only if all roles were recorded. -/
  complete : (∃ inputs, s.intake.finish = .ok inputs) ↔ ∀ role, .recorded role ∈ s.log
  /-- Otherwise the first one that was not is reported. -/
  missing : ∀ role, Role.all.find? (fun role => decide (.recorded role ∉ s.log)) = some role →
    s.intake.finish = .error (.missingPart role.partName)

section
variable {base : Tree} {cwd ws : Place} {path : String} {s s' : Session} {role : Role}

/-- Roles that were recorded are stored, and no others. -/
theorem Kept.stored_iff (h : Kept base cwd ws path s) (role : Role) :
    s.intake.stored? role = none ↔ .recorded role ∉ s.log := by
  have hlog : .recorded role ∈ s.log ↔ .recorded role ∈ deedsOf s.log role := by
    rw [mem_deedsOf]
    exact (and_iff_left rfl).symm
  have hphase := h.phase role
  generalize hv : s.view role = v at hphase
  rw [hlog, show s.intake.stored? role = v.stored from congrArg View.stored hv,
    show deedsOf s.log role = v.deeds from congrArg View.deeds hv]
  cases hphase with
  | untouched => simp
  | failed _ hbegan =>
    refine iff_of_true rfl fun hrecorded => ?_
    obtain ⟨_, heq⟩ := hbegan _ hrecorded
    cases heq
  | filling _ hrecorded => exact iff_of_true rfl hrecorded
  | lost _ _ hrecorded => exact iff_of_true rfl hrecorded
  | stored _ _ hrecorded => exact iff_of_false (Option.some_ne_none _) (not_not_intro hrecorded)

/-- A role was claimed if and only if somebody has asked to begin it. -/
theorem Kept.claimed_iff (h : Kept base cwd ws path s) (role : Role) :
    role ∈ s.intake.claimed ↔ ∃ declared, .began role declared ∈ s.log := by
  have hclaimed := (h.phase role).claimed_iff
  simpa [view, mem_deedsOf, Deed.role] using hclaimed

/-- The files that were made have the paths that their names say. -/
theorem Kept.path_of_made (h : Kept base cwd ws path s) {file : String}
    (hmade : .made role file ∈ s.log) : HasFile path role (deedsOf s.log role) ∧
      file = ((s.supply role).input path role).path := by
  have hmem := mem_filesOf.2 hmade
  rcases (h.phase role).filesOf_cases with hnone | ⟨-, hfile⟩
  · have hempty : filesOf (deedsOf s.log role) = [] := hnone
    rw [hempty] at hmem
    cases hmem
  · have hfiles : filesOf (deedsOf s.log role) = [((s.supply role).input path role).path] :=
      hfile.files
    rw [hfiles] at hmem
    exact ⟨hfile, List.mem_singleton.1 hmem⟩

/-- **What a recorded file holds** is what was written to it. -/
theorem Kept.offers (h : Kept base cwd ws path s) (hsite : base.Site cwd path ws)
    (hpath : Path.IsOpen path) {input : StoredInput}
    (hstored : s.intake.stored? role = some input) :
    input = (s.supply role).input path role ∧
      s.host.files.Offers s.host.cwd input.path (s.supply role).data := by
  obtain ⟨-, rfl, hfile, -, serial, hdata⟩ := (h.phase role).of_stored hstored
  obtain ⟨held, hstocked, -⟩ := h.stocked
  refine ⟨rfl, serial, fileMode, ?_, by rw [Node.allows, Node.mode]; decide⟩
  have hsome : s.host.files.get? (placeOf ws role (s.view role).deeds) ≠ none := by
    rw [hdata]
    exact Option.some_ne_none _
  rw [stat_eq_ok_iff, h.cwd_eq]
  exact ⟨_, hstocked.resolve_stored hsite h.prepared.tidy hpath hfile.room hsome, hdata⟩

/-- Two roles never have the same path. -/
theorem input_path_ne (hpath : Path.IsOpen path) (supply : Role → Supply) {other : Role}
    (hother : other ≠ role) :
    ((supply other).input path other).path ≠ ((supply role).input path role).path := by
  intro heq
  have hcontinues (r : Role) : Path.Continues path (storedNames supply r)
      ((supply r).input path r).path := continues_stored hpath r
  have hnames := (hcontinues role).unique (heq ▸ hcontinues other)
  exact hother (storedNames_injective supply hnames)

end

/-- **A new workspace** has no uploads. -/
theorem kept_of_acquireWorkspace {p : Pipeline} {h h₀ : Host} {w : Workspace}
    (hsound : h.files.IsSound) (hcwd : IsReal h.cwd) (hacquire : p.acquireWorkspace h = .ok w h₀) :
    Path.IsOpen w.path ∧ ∃ ws, h.files.Site h.cwd w.path ws ∧
      Kept h.files h.cwd ws w.path { intake := { workspace := w.path }, host := h₀ } := by
  obtain ⟨-, hpath, hcwd₀, ws, hsite, hfiles⟩ := site_of_acquireWorkspace hsound hcwd hacquire
  refine ⟨hpath, ws, hsite, rfl, hcwd₀, ?_, ⟨fun _ => none, ?_, by simp⟩, fun _ => .untouched⟩
  · rw [hfiles]
    exact hsite.prepared (by decide) ⟨by decide, by decide⟩
  · rw [hfiles]
    exact .of_put hsite _

/-- **Whatever happens to an intake** in a new workspace, every role has its own upload. -/
theorem orderly_of_runs {p : Pipeline} {h h₀ : Host} {w : Workspace} {s : Session}
    (hsound : h.files.IsSound) (hcwd : IsReal h.cwd) (hacquire : p.acquireWorkspace h = .ok w h₀)
    (hruns : Runs { intake := { workspace := w.path }, host := h₀ } s) : s.Orderly := by
  obtain ⟨hpath, ws, hsite, hstart⟩ := kept_of_acquireWorkspace hsound hcwd hacquire
  have hkept := hstart.runs hsite hpath hruns
  refine ⟨?claimed, ?record, ?untouched, ?sole, ?nothing, ?refused, ?again, ?unopened, ?stores,
    ?complete, ?missing⟩
  case claimed =>
    intro role input hstored
    obtain ⟨hview, -⟩ := (hkept.phase role).of_stored hstored
    simpa [view] using congrArg View.claimed hview
  case record =>
    intro role input hstored
    obtain ⟨rfl, hoffers⟩ := hkept.offers hsite hpath hstored
    rw [hkept.workspace]
    refine ⟨rfl, ⟨_, (isPlain_fileName role (s.supply role).declared).1.noSlash, rfl⟩, ?_, rfl,
      hoffers.shows⟩
    intro other file hmade hother
    rw [(hkept.path_of_made hmade).2]
    exact input_path_ne hpath s.supply hother
  case untouched =>
    intro role input s' hstored hlater
    have hstays : s'.intake.stored? role = some input ∧ s'.supply role = s.supply role := by
      clear hruns
      induction hlater with
      | refl => exact ⟨hstored, rfl⟩
      | tail hbefore hstep ih =>
        obtain ⟨hstored', hsupply⟩ := ih
        have hnext := (hkept.runs hsite hpath hbefore).stored_step hstored' hstep
        exact ⟨hnext.1, hnext.2.trans hsupply⟩
    obtain ⟨-, hoffers⟩ := (hkept.runs hsite hpath hlater).offers hsite hpath hstays.1
    rw [hstays.2] at hoffers
    exact ⟨hstays.1, hoffers.shows⟩
  case sole =>
    intro role
    rcases (hkept.phase role).filesOf_cases with hnone | ⟨-, hfile⟩
    · rw [show filesOf (deedsOf s.log role) = [] from hnone]
      exact Nat.zero_le 1
    · exact Nat.le_of_eq (congrArg List.length hfile.files)
  case nothing =>
    intro ws' q hleads hq hbelow hsome
    rw [hkept.cwd_eq, hkept.workspace, hsite.leads_of_off hkept.prepared.off] at hleads
    obtain rfl := Except.ok.inj hleads
    obtain ⟨held, hstocked, hheld⟩ := hkept.stocked
    by_cases htop : q = ws
    · exact .inl htop
    by_cases hinputs : q = ws ++ [inputsDirectory]
    · exact .inr (.inl hinputs)
    obtain ⟨role, data, hdata, rfl⟩ : ∃ role data, held role = some data ∧
        q = ws ++ storedNames s.supply role := by
      by_contra hnot
      refine hsome (hstocked.nothing q hq hbelow htop hinputs fun role data hdata heq => ?_)
      exact hnot ⟨role, data, hdata, heq⟩
    rcases (hkept.phase role).filesOf_cases with hnone | ⟨-, hfile⟩
    · exact absurd hnone (hheld role (by simp [hdata]))
    · have hfiles : filesOf (deedsOf s.log role) = [((s.supply role).input w.path role).path] :=
        hfile.files
      have hmade := mem_filesOf.1 (hfiles ▸ List.mem_singleton_self _)
      refine .inr (.inr ⟨role, fileName role ((s.supply role).entryName role), ?_, rfl⟩)
      rw [hkept.workspace]
      exact hmade
  case refused =>
    intro role declared
    rw [← hkept.claimed_iff]
    constructor
    · rintro ⟨part, ⟨i, host⟩, hbegin⟩
      exact (begin_of_duplicate hbegin).1
    · intro hclaimed
      obtain ⟨-, hrefused⟩ | ⟨hfresh, -⟩ := begin_cases role declared s.intake s.host
      · exact ⟨_, _, hrefused⟩
      · exact absurd hclaimed hfresh
  case again =>
    rintro role declared part ⟨i, host⟩ hbegin
    obtain ⟨-, rfl, rfl, rfl⟩ := begin_of_duplicate hbegin
    exact ⟨rfl, rfl⟩
  case unopened =>
    intro role source fault hopen
    simp only [storeFile, hopen]
  case stores => exact ⟨runs_store s, runs_storeFile s⟩
  case complete =>
    rcases s.intake.finish_cases with ⟨inputs, hfinish, hall⟩ | ⟨role, hfinish, hfind⟩
    · refine iff_of_true ⟨inputs, hfinish⟩ fun role => ?_
      have hmem : s.intake.stored? role ∈ inputs.toList.map some :=
        hall ▸ List.mem_map_of_mem role.mem_all
      obtain ⟨input, -, hinput⟩ := List.mem_map.1 hmem
      by_contra hrecorded
      rw [(hkept.stored_iff role).2 hrecorded] at hinput
      cases hinput
    · refine iff_of_false ?_ fun hall => ?_
      · rintro ⟨inputs, hok⟩
        rw [hfinish] at hok
        cases hok
      · have hnone := List.find?_some hfind
        exact (hkept.stored_iff role).1 (by simpa using hnone) (hall role)
  case missing =>
    intro role hfind
    have hsame : (fun role => (s.intake.stored? role).isNone) =
        fun role => decide (.recorded role ∉ s.log) := by
      funext other
      rw [Bool.eq_iff_iff, Option.isNone_iff_eq_none, decide_eq_true_iff, hkept.stored_iff]
    exact finish_of_missing (hsame ▸ hfind)

/-- Two uploads side by side, of which one is recorded and the other one is given up. -/
theorem orderly_of_twoUploads : ∃ w h₀ s, (staleHost.files.IsSound ∧ IsReal staleHost.cwd ∧
      Pipeline.acquireWorkspace ⟨"/", usualTools⟩ staleHost = .ok w h₀ ∧
      Runs { intake := { workspace := w.path }, host := h₀ } s) ∧
    s.intake.stored.map (·.size) = [3] ∧ s.lost.map (·.role) = [.lexer] ∧ s.Orderly := by
  obtain ⟨w, h₀, hacquire, hw⟩ := acquire_staleHost
  have hroom : Path.HasRoom w.path 30 := hw ▸ hasRoom_firstPath
  have hnormal : Path.normal w.path = w.path := by
    rw [hw]
    decide +kernel
  obtain ⟨hpath, ws, hsite, hstart⟩ := kept_of_acquireWorkspace isSound_precious isReal_nil hacquire
  have hfresh : Role.grammar ∉ ({ workspace := w.path } : Intake).claimed := List.not_mem_nil
  obtain ⟨u, i₁, h₁, hfirst, serial, hsink⟩ :=
    hstart.begin_ok hsite hroom hnormal hfresh (some "a.y")
  have hbegun := Relation.ReflTransGen.single (Step.begin hfirst)
  obtain ⟨-, rfl, -, _, _, rfl, -⟩ := begin_of_ok hfirst
  have hfresh : Role.lexer ∉ [Role.grammar] := by decide
  obtain ⟨v, i₂, h₂, hsecond, -⟩ :=
    (hstart.runs hsite hpath hbegun).begin_ok hsite hroom hnormal hfresh none
  have hboth := hbegun.tail (.begin hsecond)
  obtain ⟨-, rfl, -, _, _, rfl, -⟩ := begin_of_ok hsecond
  obtain rfl : _ = Sink.file serial := hsink
  generalize hv : (⟨.lexer, _, _, _, 0⟩ : Upload) = v at hboth
  have hopen (u : Upload) : [v, u] = [v] ++ u :: [] := rfl
  have hwritten := hboth.tail (@Step.write _ _ _ _ _ [1, 2, 3] _ _ (hopen _) rfl)
  have hrecorded := hwritten.tail (.commit (hopen _) rfl)
  have hsole : [v] = [] ++ v :: [] := rfl
  have hruns := hrecorded.tail (.giveUp hsole rfl rfl)
  refine ⟨w, h₀, _, ⟨isSound_precious, isReal_nil, hacquire, hruns⟩, rfl, ?_,
    orderly_of_runs isSound_precious isReal_nil hacquire hruns⟩
  rw [← hv]
  rfl

end Session

end Intake

end LangBundle
