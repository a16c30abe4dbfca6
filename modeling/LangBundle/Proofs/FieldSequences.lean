import Mathlib.Data.List.Induction
import Mathlib.Logic.Relation
import LangBundle.Http.Upload
import LangBundle.Proofs.IntakeHistory

/-!
# The fields of an upload

The fields of an upload may come in any order, their data in any pieces, and there may be fields that
nobody knows.  What comes of them depends on what was sent for each role only.

* `storeParts_eq`: parts are fields whose data comes in one piece.
* `storeFields_cases`: **how storing fields ends.**
* `Intake.Session.runs_storeFields`: storing fields is a row of steps of the intake.
* `Obeys`: **the law** that any row of fields obeys; `Revised`: changes of a row that nobody notices.
* `obeys_of_quiet`: as long as no file operation fails, the law holds, and no revision is noticed.
-/

namespace LangBundle

open Files Files.Tree

/-! ## One upload -/

namespace Intake

/-- A write fails for a reason that concerns the file, or not at all. -/
theorem writeAll_cases (u : Upload) (pieces : List Bytes) (s : Intake × Host) :
    (∃ u' s', writeAll u pieces s = .ok u' s') ∨
      ∃ path fault s', writeAll u pieces s = .error (.io path (Fault.message fault)) s' := by
  induction pieces generalizing u s with
  | nil => exact .inl ⟨u, s, rfl⟩
  | cons piece rest ih =>
    rcases hwrite : write u piece s with ⟨u', s'⟩ | ⟨e, s'⟩
    · rw [writeAll, Service.bind_of_ok hwrite]
      exact ih u' s'
    · rw [writeAll, Service.bind_of_error hwrite]
      simp only [write] at hwrite
      split at hwrite
      · cases hwrite
        exact .inr ⟨_, _, _, rfl⟩
      · cases hwrite

/-- **One upload** is refused, or it fails for a reason that concerns a file, or it is recorded. -/
theorem take_cases (role : Role) (supply : Supply) (i : Intake) (h : Host) :
    (role ∈ i.claimed ∧
      take role supply (i, h) = .error (.duplicatePart role.partName) (i, h)) ∨
    role ∉ i.claimed ∧
      ((∃ i' h', take role supply (i, h) = .ok () (i', h') ∧ i'.claimed = role :: i.claimed) ∨
        ∃ path fault s, take role supply (i, h) = .error (.io path (Fault.message fault)) s) := by
  obtain ⟨hclaimed, hrefused⟩ | ⟨hfresh, ⟨_, _, _, hfailed, -⟩ | ⟨_, _, h₁, hok, -⟩⟩ :=
    begin_cases role supply.declared i h
  · exact .inl ⟨hclaimed, Service.bind_of_error hrefused⟩
  · exact .inr ⟨hfresh, .inr ⟨_, _, _, Service.bind_of_error hfailed⟩⟩
  refine .inr ⟨hfresh, ?_⟩
  rcases writeAll_cases _ supply.pieces _ with ⟨u', ⟨i₂, h₂⟩, hwrite⟩ | ⟨path, fault, s, hwrite⟩
  · have htake : take role supply (i, h) = .ok () _ :=
      (Service.bind_of_ok hok).trans ((Service.bind_of_ok hwrite).trans rfl)
    exact .inl ⟨_, _, htake, by rw [take_eq_ok htake]⟩
  · have htake : take role supply (i, h) = .error (.io path fault.message) s :=
      (Service.bind_of_ok hok).trans (Service.bind_of_error hwrite)
    exact .inr ⟨path, fault, s, htake⟩

namespace Session

/-- What one upload has been sent shows in its deeds, and in nobody else's. -/
theorem deedsOf_of_take {s s' : Session} {role : Role} {supply : Supply} {path : String}
    (hlog : s'.log = s.log ++ ([.began role supply.declared, .made role path] ++
      supply.pieces.map (.wrote role) ++ [.recorded role])) :
    (deedsOf s.log role = [] → s'.supply role = supply) ∧ .recorded role ∈ s'.log ∧
      ∀ other, other ≠ role → deedsOf s'.log other = deedsOf s.log other := by
  generalize hnew : [.began role supply.declared, .made role path] ++
    supply.pieces.map (Deed.wrote role) ++ [.recorded role] = new at hlog
  have hrole : ∀ d ∈ new, d.role = role := by
    intro d hd
    simp only [← hnew, List.mem_append, List.mem_cons, List.not_mem_nil, or_false,
      List.mem_map] at hd
    obtain ((rfl | rfl) | ⟨piece, -, rfl⟩) | rfl := hd <;> rfl
  refine ⟨fun hnone => ?_, by simp [hlog, ← hnew], fun other hother => ?_⟩
  · have hall : deedsOf new role = new :=
      List.filter_eq_self.2 fun d hd => by simpa using hrole d hd
    have hpieces : (supply.pieces.map (Deed.wrote role)).filterMap Deed.piece? = supply.pieces := by
      rw [List.filterMap_map]
      exact List.filterMap_some
    have hsent : new.filterMap Deed.piece? = supply.pieces := by
      rw [← hnew, List.filterMap_append, List.filterMap_append, hpieces]
      exact List.append_nil _
    rw [Session.supply, hlog, deedsOf_append, hnone, hall, List.nil_append, sent, hsent, ← hnew]
    rfl
  · have hnone : deedsOf new other = [] :=
      List.filter_eq_nil_iff.2 fun d hd => by simpa [hrole d hd] using Ne.symm hother
    rw [hlog, deedsOf_append, hnone, List.append_nil]

end Session

end Intake

namespace Http

/-- A part as it arrives: what its headers say, and its data in pieces. -/
structure Field where
  head : PartHead
  chunks : List Bytes
  deriving Repr, DecidableEq

namespace Field

/-- The role that a field is for. -/
def role? (f : Field) : Option Role :=
  Upload.roleOf? f.head

/-- What a field sends. -/
def supply (f : Field) : Supply :=
  ⟨f.head.fileName, f.chunks⟩

/-- A part whose data comes in one piece. -/
def whole (p : Part) : Field :=
  ⟨p.head, [p.data]⟩

/-- The part that a field is once all of it has arrived. -/
def part (f : Field) : Part :=
  ⟨f.head, f.chunks.flatten⟩

end Field

namespace Upload

open Intake (Session deedsOf mem_deedsOf)

/-- Stores one field, piece by piece. -/
def storeField (f : Field) : Intake.Step Unit :=
  match f.role? with
  | none => pure ()
  | some role => Intake.take role f.supply

/-- Stores fields in their order. -/
def storeFields : List Field → Intake.Step Unit
  | [] => pure ()
  | f :: rest => do
    storeField f
    storeFields rest

/-- The roles of fields, in their order. -/
def roles (fields : List Field) : List Role :=
  fields.filterMap Field.role?

/-- **Parts** are fields whose data comes in one piece. -/
theorem storeParts_eq (parts : List Part) : storeParts parts = storeFields (parts.map .whole) := by
  induction parts with
  | nil => rfl
  | cons p rest ih =>
    have hone : storePart p = storeField (.whole p) := by
      rw [storePart, storeField, Field.role?, Field.whole]
      cases roleOf? p.head with
      | none => rfl
      | some role => simp [Intake.take, Field.supply, Intake.writeAll]
    rw [storeParts, List.map_cons, storeFields, hone, ih]

theorem storeFields_append (fields rest : List Field) :
    storeFields (fields ++ rest) = storeFields fields >>= fun _ => storeFields rest := by
  induction fields with
  | nil => simp [storeFields]
  | cons f _ ih => simp [storeFields, ih]

/-! ## The first role that comes again -/

/-- The first role in a row that was seen before. -/
def firstRepeated (seen : List Role) : List Role → Option Role
  | [] => none
  | role :: rest => if role ∈ seen then some role else firstRepeated (role :: seen) rest

theorem firstRepeated_eq_none_iff (seen row : List Role) :
    firstRepeated seen row = none ↔ row.Nodup ∧ ∀ role ∈ row, role ∉ seen := by
  induction row generalizing seen with
  | nil => simp [firstRepeated]
  | cons role rest ih =>
    by_cases hseen : role ∈ seen
    · simp [firstRepeated, hseen]
    · rw [firstRepeated, if_neg hseen, ih, List.nodup_cons]
      constructor
      · rintro ⟨hnodup, hnew⟩
        refine ⟨⟨fun hrole => hnew role hrole (List.mem_cons_self ..), hnodup⟩, fun r hr => ?_⟩
        rcases List.mem_cons.1 hr with rfl | hr
        · exact hseen
        · exact fun hbefore => hnew r hr (List.mem_cons_of_mem _ hbefore)
      · rintro ⟨⟨hrole, hnodup⟩, hnew⟩
        refine ⟨hnodup, fun r hr hbefore => ?_⟩
        rcases List.mem_cons.1 hbefore with rfl | hbefore
        · exact hrole hr
        · exact hnew r (List.mem_cons_of_mem _ hr) hbefore

/-- A role that comes again stands in a field, before which no role does. -/
theorem exists_first_repeated {fields : List Field} (h : ¬ (roles fields).Nodup) :
    ∃ before field after role, fields = before ++ field :: after ∧ field.role? = some role ∧
      (roles before).Nodup ∧ role ∈ roles before := by
  induction fields using List.reverseRecOn with
  | nil => exact absurd List.nodup_nil h
  | append_singleton fields f ih =>
    by_cases hnodup : (roles fields).Nodup
    · have hsplit : roles (fields ++ [f]) = roles fields ++ f.role?.toList := by
        rw [roles, List.filterMap_append]
        cases hrole : f.role? <;> simp [roles, hrole]
      rcases hrole : f.role? with _ | role
      · rw [hsplit, hrole] at h
        simp [hnodup] at h
      · refine ⟨fields, f, [], role, rfl, hrole, hnodup, ?_⟩
        rw [hsplit, hrole] at h
        by_contra hnew
        refine h (List.nodup_append.2 ⟨hnodup, by simp, fun r hr s hs => ?_⟩)
        rw [List.mem_singleton.1 hs]
        exact ne_of_mem_of_not_mem hr hnew
    · obtain ⟨before, field, after, role, rfl, hknown⟩ := ih hnodup
      exact ⟨before, field, after ++ [f], role, by simp, hknown⟩

/-! ## How storing ends -/

/-- **Storing fields** ends with the first role that comes again, or with a file operation that fails,
or all roles are claimed. -/
theorem storeFields_cases (fields : List Field) (i : Intake) (h : Host) :
    (firstRepeated i.claimed (roles fields) = none ∧ ∃ i' h',
      storeFields fields (i, h) = .ok () (i', h') ∧
        i'.claimed = (roles fields).reverse ++ i.claimed) ∨
    (∃ role s, firstRepeated i.claimed (roles fields) = some role ∧
      storeFields fields (i, h) = .error (.duplicatePart role.partName) s) ∨
    ∃ path fault s, storeFields fields (i, h) = .error (.io path (Fault.message fault)) s := by
  induction fields generalizing i h with
  | nil => exact .inl ⟨rfl, i, h, rfl, rfl⟩
  | cons f rest ih =>
    rcases hrole : f.role? with _ | role
    · have hskip : storeFields (f :: rest) = storeFields rest := by
        simp [storeFields, storeField, hrole]
      have hroles : roles (f :: rest) = roles rest := List.filterMap_cons_none hrole
      rw [hskip, hroles]
      exact ih i h
    have hroles : roles (f :: rest) = role :: roles rest := List.filterMap_cons_some hrole
    have hfirst : storeField f = Intake.take role f.supply := by rw [storeField, hrole]
    rw [hroles, firstRepeated, storeFields, hfirst]
    obtain ⟨hclaimed, hrefused⟩ | ⟨hfresh, ⟨i', h', hok, hclaims⟩ | ⟨path, detail, s, hfailed⟩⟩ :=
      Intake.take_cases role f.supply i h
    · rw [if_pos hclaimed]
      exact .inr (.inl ⟨role, _, rfl, Service.bind_of_error hrefused⟩)
    · rw [if_neg hfresh, Service.bind_of_ok hok, ← hclaims]
      rcases ih i' h' with ⟨hnone, i₂, h₂, hrest, hall⟩ | hrest | hrest
      · refine .inl ⟨hnone, i₂, h₂, hrest, ?_⟩
        rw [hall, hclaims]
        simp
      · exact .inr (.inl hrest)
      · exact .inr (.inr hrest)
    · exact .inr (.inr ⟨path, detail, s, Service.bind_of_error hfailed⟩)

/-- **Fields** that are stored are uploads from their beginning to their record. -/
theorem runs_storeFields {fields : List Field} {s : Session} {i : Intake} {h : Host}
    (hnew : ∀ role ∈ roles fields, deedsOf s.log role = []) (hnodup : (roles fields).Nodup)
    (hstore : storeFields fields (s.intake, s.host) = .ok () (i, h)) :
    ∃ s', s.Runs s' ∧ s'.intake = i ∧ s'.host = h ∧
      (∀ f ∈ fields, ∀ role, f.role? = some role →
        s'.supply role = f.supply ∧ .recorded role ∈ s'.log) ∧
      ∀ role ∉ roles fields, deedsOf s'.log role = deedsOf s.log role := by
  induction fields generalizing s with
  | nil =>
    cases hstore
    exact ⟨s, .refl, rfl, rfl, by simp, fun _ _ => rfl⟩
  | cons f rest ih =>
    rcases hrole : f.role? with _ | role
    · have hskip : storeFields (f :: rest) = storeFields rest := by
        simp [storeFields, storeField, hrole]
      have hroles : roles (f :: rest) = roles rest := List.filterMap_cons_none hrole
      rw [hskip] at hstore
      rw [hroles] at hnew hnodup ⊢
      obtain ⟨s', hruns, hi, hh, hall, hother⟩ := ih hnew hnodup hstore
      refine ⟨s', hruns, hi, hh, fun g hg r hr => ?_, hother⟩
      rcases List.mem_cons.1 hg with rfl | hg
      · rw [hrole] at hr
        cases hr
      · exact hall g hg r hr
    have hroles : roles (f :: rest) = role :: roles rest := List.filterMap_cons_some hrole
    have hfirst : storeField f = Intake.take role f.supply := by rw [storeField, hrole]
    rw [hroles] at hnew hnodup ⊢
    obtain ⟨hfresh, hnodup⟩ := List.nodup_cons.1 hnodup
    obtain ⟨_, ⟨i₁, h₁⟩, htake, hrest⟩ := Service.bind_eq_ok hstore
    rw [hfirst] at htake
    obtain ⟨s₁, path, hruns₁, rfl, rfl, hlog⟩ := Intake.Session.runs_take htake
    obtain ⟨hsupply, hrecorded, hkept⟩ := Intake.Session.deedsOf_of_take hlog
    have hnew₁ : ∀ r ∈ roles rest, deedsOf s₁.log r = [] := by
      intro r hr
      rw [hkept r (ne_of_mem_of_not_mem hr hfresh)]
      exact hnew r (List.mem_cons_of_mem _ hr)
    obtain ⟨s', hruns, hi, hh, hall, hother⟩ := ih hnew₁ hnodup hrest
    refine ⟨s', hruns₁.trans hruns, hi, hh, fun g hg r hr => ?_, fun r hr => ?_⟩
    · rcases List.mem_cons.1 hg with rfl | hg
      · rw [hrole] at hr
        obtain rfl := Option.some.inj hr
        have hsame := hother role hfresh
        refine ⟨?_, ?_⟩
        · rw [Intake.Session.supply, hsame]
          exact hsupply (hnew role (List.mem_cons_self ..))
        · have hmem : .recorded role ∈ deedsOf s'.log role :=
            hsame ▸ mem_deedsOf.2 ⟨hrecorded, rfl⟩
          exact (mem_deedsOf.1 hmem).1
      · exact hall g hg r hr
    · rw [List.mem_cons, not_or] at hr
      rw [hother r hr.2, hkept r hr.1]

/-! ## The law -/

/-- What comes of storing fields and ending the intake: the five inputs and what their files hold. -/
def outcome (r : EStateM.Result BuildError (Intake × Host) Unit) :
    Except BuildError (Inputs × List (Except Fault Bytes)) :=
  match r with
  | .ok _ (i, h) => i.finish.map fun inputs =>
      (inputs, inputs.toList.map fun input => h.files.read h.cwd input.path)
  | .error e _ => .error e

/-- No file operation fails while fields are stored. -/
def Quiet (start : Intake × Host) (fields : List Field) : Prop :=
  ∀ path detail s, storeFields fields start ≠ .error (.io path detail) s

/-- **The law** that a row of fields obeys. -/
structure Obeys (path : String) (start : Intake × Host) (fields : List Field) : Prop where
  /-- The first role that comes again is reported, and nothing is stored from there on. -/
  repeated : ¬ (roles fields).Nodup → ∃ before field after role s,
    fields = before ++ field :: after ∧ field.role? = some role ∧
      (roles before).Nodup ∧ role ∈ roles before ∧
      storeFields before start = .ok () s ∧
      storeFields fields start = .error (.duplicatePart role.partName) s
  /-- Otherwise the first role that no field is for is reported. -/
  missing : (roles fields).Nodup → ∀ role,
    Role.all.find? (fun role => decide (role ∉ roles fields)) = some role →
    outcome (storeFields fields start) = .error (.missingPart role.partName)
  /-- Otherwise every file holds what was sent for its role, and its record says so. -/
  complete : (roles fields).Nodup → (∀ role, role ∈ roles fields) → ∀ supply : Role → Supply,
    (∀ f ∈ fields, ∀ role, f.role? = some role → supply role = f.supply) →
    outcome (storeFields fields start) =
      .ok (.ofSupplies path supply, Role.all.map fun role => .ok (supply role).data)

/-- A change of a row of fields that nobody should notice. -/
inductive Revision : List Field → List Field → Prop
  /-- The data of a field is cut into other pieces. -/
  | recut {before after : List Field} {head : PartHead} {chunks chunks' : List Bytes}
      (hdata : chunks.flatten = chunks'.flatten) :
      Revision (before ++ ⟨head, chunks⟩ :: after) (before ++ ⟨head, chunks'⟩ :: after)
  /-- A field gets another name of the same role. -/
  | rename {before after : List Field} {head head' : PartHead} {chunks : List Bytes} {role : Role}
      (hrole : roleOf? head = some role) (hrole' : roleOf? head' = some role)
      (hname : head.fileName = head'.fileName) :
      Revision (before ++ ⟨head, chunks⟩ :: after) (before ++ ⟨head', chunks⟩ :: after)
  /-- A field that has no name, or one that nobody knows, is put in. -/
  | insert {before after : List Field} {field : Field} (hrole : field.role? = none) :
      Revision (before ++ after) (before ++ field :: after)
  /-- Fields for different roles come in another order. -/
  | permute {fields fields' : List Field} (hperm : fields.Perm fields')
      (hnodup : (roles fields).Nodup) : Revision fields fields'

/-- Some revisions, or their reversals, one after the other. -/
abbrev Revised : List Field → List Field → Prop :=
  Relation.EqvGen Revision

/-- What is sent for the roles, in the order of the fields. -/
def sends (fields : List Field) : List (Role × Option String × Bytes) :=
  fields.filterMap fun f => f.role?.map fun role => (role, f.head.fileName, f.supply.data)

theorem map_sends (fields : List Field) : (sends fields).map (·.1) = roles fields := by
  rw [sends, List.map_filterMap, roles]
  congr 1
  funext f
  cases f.role? <;> rfl

/-- **Revisions** change what is sent for the roles in nothing but the order. -/
theorem Revised.sends {fields fields' : List Field} (h : Revised fields fields') :
    sends fields = sends fields' ∨ (roles fields).Nodup ∧ (sends fields).Perm (sends fields') := by
  induction h with
  | rel fields fields' hrevision =>
    cases hrevision with
    | recut hdata =>
      left
      simp [Upload.sends, List.filterMap_append, List.filterMap_cons, Field.role?, Field.supply,
        Supply.data, hdata]
    | rename hrole hrole' hname =>
      left
      simp [Upload.sends, List.filterMap_append, Field.role?, Field.supply, hrole, hrole', hname]
    | insert hrole =>
      left
      simp [Upload.sends, List.filterMap_append, hrole]
    | permute hperm hnodup => exact .inr ⟨hnodup, hperm.filterMap _⟩
  | refl fields => exact .inl rfl
  | symm fields fields' _ ih =>
    rcases ih with heq | ⟨hnodup, hperm⟩
    · exact .inl heq.symm
    · refine .inr ⟨?_, hperm.symm⟩
      rw [← map_sends] at hnodup ⊢
      exact (hperm.map _).nodup_iff.1 hnodup
  | trans fields fields' fields'' _ _ ih ih' =>
    rcases ih with heq | ⟨hnodup, hperm⟩
    · rcases ih' with heq' | ⟨hnodup', hperm'⟩
      · exact .inl (heq.trans heq')
      · refine .inr ⟨?_, heq ▸ hperm'⟩
        rw [← map_sends, heq, map_sends]
        exact hnodup'
    · rcases ih' with heq' | ⟨-, hperm'⟩
      · exact .inr ⟨hnodup, heq' ▸ hperm⟩
      · exact .inr ⟨hnodup, hperm.trans hperm'⟩

/-- As long as no role comes again, every role is sent one thing. -/
theorem exists_supply {fields : List Field} (hnodup : (roles fields).Nodup) :
    ∃ supply : Role → Supply, ∀ f ∈ fields, ∀ role, f.role? = some role →
      supply role = f.supply := by
  induction fields with
  | nil => exact ⟨fun _ => ⟨none, []⟩, by simp⟩
  | cons f rest ih =>
    rcases hrole : f.role? with _ | first
    · have hroles : roles (f :: rest) = roles rest := List.filterMap_cons_none hrole
      obtain ⟨supply, hsupply⟩ := ih (hroles ▸ hnodup)
      refine ⟨supply, fun g hg role hr => ?_⟩
      rcases List.mem_cons.1 hg with rfl | hg
      · rw [hrole] at hr
        cases hr
      · exact hsupply g hg role hr
    · have hroles : roles (f :: rest) = first :: roles rest := List.filterMap_cons_some hrole
      rw [hroles] at hnodup
      obtain ⟨hfresh, hnodup⟩ := List.nodup_cons.1 hnodup
      obtain ⟨supply, hsupply⟩ := ih hnodup
      refine ⟨Function.update supply first f.supply, fun g hg role hr => ?_⟩
      rcases List.mem_cons.1 hg with rfl | hg
      · rw [hrole] at hr
        obtain rfl := Option.some.inj hr
        exact Function.update_self ..
      · have hmem : role ∈ roles rest := List.mem_filterMap.2 ⟨g, hg, hr⟩
        rw [Function.update_of_ne (ne_of_mem_of_not_mem hmem hfresh)]
        exact hsupply g hg role hr

/-- As long as no file operation fails, fields for different roles are stored. -/
theorem storeFields_ok {fields : List Field} {path : String} {h : Host}
    (hquiet : Quiet ({ workspace := path }, h) fields) (hnodup : (roles fields).Nodup) :
    ∃ i h', storeFields fields ({ workspace := path }, h) = .ok () (i, h') ∧
      i.claimed = (roles fields).reverse := by
  have hnone : firstRepeated [] (roles fields) = none :=
    (firstRepeated_eq_none_iff _ _).2 ⟨hnodup, by simp⟩
  obtain ⟨-, i, h', hok, hclaimed⟩ | ⟨role, s, hsome, -⟩ | ⟨_, _, s, hfailed⟩ :=
    storeFields_cases fields { workspace := path } h
  · exact ⟨i, h', hok, by simpa using hclaimed⟩
  · rw [hnone] at hsome
    cases hsome
  · exact absurd hfailed (hquiet _ _ s)

/-- Otherwise the first role that comes again is reported. -/
theorem storeFields_duplicate {fields : List Field} {path : String} {h : Host}
    (hquiet : Quiet ({ workspace := path }, h) fields) (hdup : ¬ (roles fields).Nodup) :
    ∃ role s, firstRepeated [] (roles fields) = some role ∧
      storeFields fields ({ workspace := path }, h) = .error (.duplicatePart role.partName) s := by
  obtain ⟨hnone, -⟩ | hfound | ⟨_, _, s, hfailed⟩ :=
    storeFields_cases fields { workspace := path } h
  · exact absurd ((firstRepeated_eq_none_iff _ _).1 hnone).1 hdup
  · exact hfound
  · exact absurd hfailed (hquiet _ _ s)

/-- Nothing fails while the first ones of some fields are stored, if nothing fails for all. -/
theorem Quiet.left {start : Intake × Host} {before after : List Field}
    (h : Quiet start (before ++ after)) : Quiet start before := by
  intro path detail s hfailed
  refine h path detail s ?_
  rw [storeFields_append, Service.bind_of_error hfailed]

section
variable {p : Pipeline} {h h₀ : Host} {w : Workspace} {fields fields' : List Field}
  (hsound : h.files.IsSound) (hcwd : IsReal h.cwd) (hacquire : p.acquireWorkspace h = .ok w h₀)
include hsound hcwd hacquire

/-- **What is stored** of fields for different roles. -/
theorem offers_of_storeFields (hnodup : (roles fields).Nodup) {i : Intake} {h' : Host}
    (hstore : storeFields fields ({ workspace := w.path }, h₀) = .ok () (i, h')) :
    (∀ f ∈ fields, ∀ role, f.role? = some role →
      i.stored? role = some (f.supply.input w.path role) ∧
        h'.files.read h'.cwd (f.supply.input w.path role).path = .ok f.supply.data) ∧
    ∀ role ∉ roles fields, i.stored? role = none := by
  obtain ⟨hpath, ws, hsite, hstart⟩ :=
    Session.kept_of_acquireWorkspace hsound hcwd hacquire
  obtain ⟨s, hruns, rfl, rfl, hall, hother⟩ := runs_storeFields
    (s := { intake := { workspace := w.path }, host := h₀ }) (fun _ _ => rfl) hnodup hstore
  have hkept := hstart.runs hsite hpath hruns
  refine ⟨fun f hf role hrole => ?_, fun role hrole => ?_⟩
  · obtain ⟨hsupply, hrecorded⟩ := hall f hf role hrole
    rcases hstored : s.intake.stored? role with _ | input
    · exact absurd hrecorded ((hkept.stored_iff role).1 hstored)
    · obtain ⟨rfl, hoffers⟩ := hkept.offers hsite hpath hstored
      rw [hsupply] at hoffers ⊢
      obtain ⟨source, hopen, hread⟩ := hoffers.read_ok hkept.prepared.sound
      refine ⟨rfl, ?_⟩
      rw [Tree.read, hopen]
      exact hread
  · refine (hkept.stored_iff role).2 fun hrecorded => ?_
    have hmem := mem_deedsOf.2 ⟨hrecorded, rfl⟩
    rw [show (Intake.Deed.recorded role).role = role from rfl, hother role hrole] at hmem
    cases hmem

/-- **The law** holds as long as no file operation fails. -/
theorem obeys (hquiet : Quiet ({ workspace := w.path }, h₀) fields) :
    Obeys w.path ({ workspace := w.path }, h₀) fields := by
  refine ⟨fun hdup => ?_, fun hnodup role hfind => ?_, fun hnodup hall supply hsupply => ?_⟩
  · obtain ⟨before, field, after, role, rfl, hrole, hnodup, hrepeated⟩ := exists_first_repeated hdup
    obtain ⟨i, h', hbefore, hclaimed⟩ := storeFields_ok hquiet.left hnodup
    refine ⟨before, field, after, role, (i, h'), rfl, hrole, hnodup, hrepeated, hbefore, ?_⟩
    have hagain : role ∈ i.claimed := by
      rw [hclaimed]
      exact List.mem_reverse.2 hrepeated
    obtain ⟨-, hrefused⟩ | ⟨hfresh, -⟩ := Intake.take_cases role field.supply i h'
    · rw [storeFields_append, Service.bind_of_ok hbefore, storeFields, storeField, hrole]
      exact Service.bind_of_error hrefused
    · exact absurd hagain hfresh
  · obtain ⟨i, h', hok, -⟩ := storeFields_ok hquiet hnodup
    obtain ⟨hstored, hnone⟩ := offers_of_storeFields hsound hcwd hacquire hnodup hok
    have hsame : (fun role => (i.stored? role).isNone) =
        fun role => decide (role ∉ roles fields) := by
      funext other
      rw [Bool.eq_iff_iff, Option.isNone_iff_eq_none, decide_eq_true_iff]
      refine ⟨fun hother hmem => ?_, hnone other⟩
      obtain ⟨f, hf, hrole⟩ := List.mem_filterMap.1 hmem
      rw [(hstored f hf other hrole).1] at hother
      cases hother
    rw [hok, outcome]
    rw [Intake.finish_of_missing (hsame ▸ hfind)]
    rfl
  · obtain ⟨i, h', hok, -⟩ := storeFields_ok hquiet hnodup
    obtain ⟨hstored, -⟩ := offers_of_storeFields hsound hcwd hacquire hnodup hok
    have hkept (role : Role) : i.stored? role = some ((supply role).input w.path role) ∧
        h'.files.read h'.cwd ((supply role).input w.path role).path = .ok (supply role).data := by
      obtain ⟨f, hf, hrole⟩ := List.mem_filterMap.1 (hall role)
      rw [hsupply f hf role hrole]
      exact hstored f hf role hrole
    have hread (role : Role) := (hkept role).2
    rw [hok, outcome, Intake.finish_of_stored fun role => (hkept role).1]
    simp only [Except.map, Inputs.toList, Inputs.ofSupplies, List.map_cons, List.map_nil, hread,
      Role.all]

/-- **What is sent** for the roles decides, and if no role comes again the order does not count. -/
theorem outcome_eq (hquiet : Quiet ({ workspace := w.path }, h₀) fields)
    (hquiet' : Quiet ({ workspace := w.path }, h₀) fields')
    (hsends : sends fields = sends fields' ∨
      (roles fields).Nodup ∧ (sends fields).Perm (sends fields')) :
    outcome (storeFields fields' ({ workspace := w.path }, h₀)) =
      outcome (storeFields fields ({ workspace := w.path }, h₀)) := by
  have hperm : (sends fields).Perm (sends fields') := by
    rcases hsends with heq | ⟨-, hperm⟩
    · rw [heq]
    · exact hperm
  have hroles : (roles fields).Perm (roles fields') := by
    rw [← map_sends, ← map_sends]
    exact hperm.map _
  by_cases hnodup : (roles fields).Nodup
  · have hlaw := obeys hsound hcwd hacquire hquiet
    have hlaw' := obeys hsound hcwd hacquire hquiet'
    have hnodup' := hroles.nodup_iff.1 hnodup
    have hsame : (fun role => decide (role ∉ roles fields)) =
        fun role => decide (role ∉ roles fields') := by
      funext role
      simp only [hroles.mem_iff]
    rcases hfind : Role.all.find? (fun role => decide (role ∉ roles fields)) with _ | role
    · have hall (role : Role) : role ∈ roles fields := by
        simpa using List.find?_eq_none.1 hfind role role.mem_all
      have hall' (role : Role) : role ∈ roles fields' := hroles.mem_iff.1 (hall role)
      obtain ⟨supply, hsupply⟩ := exists_supply hnodup
      obtain ⟨supply', hsupply'⟩ := exists_supply hnodup'
      have halike (role : Role) : (supply' role).declared = (supply role).declared ∧
          (supply' role).data = (supply role).data := by
        obtain ⟨f, hf, hrole⟩ := List.mem_filterMap.1 (hall role)
        have hsent : (role, f.head.fileName, f.supply.data) ∈ sends fields :=
          List.mem_filterMap.2 ⟨f, hf, by simp [hrole]⟩
        obtain ⟨f', hf', hsent'⟩ := List.mem_filterMap.1 (hperm.mem_iff.1 hsent)
        obtain ⟨role', hrole', heq⟩ := Option.map_eq_some_iff.1 hsent'
        simp only [Prod.mk.injEq] at heq
        obtain ⟨rfl, hname, hdata⟩ := heq
        rw [hsupply f hf role' hrole, hsupply' f' hf' role' hrole']
        exact ⟨hname, hdata⟩
      have hinput (role : Role) :
          (supply' role).input w.path role = (supply role).input w.path role := by
        simp only [Supply.input, Supply.entryName, halike role]
      rw [hlaw.complete hnodup hall supply hsupply, hlaw'.complete hnodup' hall' supply' hsupply']
      simp only [Inputs.ofSupplies, hinput, halike]
    · rw [hlaw.missing hnodup role hfind, hlaw'.missing hnodup' role (hsame ▸ hfind)]
  · have heq : roles fields' = roles fields := by
      rcases hsends with heq | ⟨hnot, -⟩
      · rw [← map_sends, ← map_sends, heq]
      · exact absurd hnot hnodup
    obtain ⟨role, s, hsome, hfailed⟩ := storeFields_duplicate hquiet hnodup
    obtain ⟨role', s', hsome', hfailed'⟩ := storeFields_duplicate hquiet' (heq ▸ hnodup)
    rw [heq, hsome] at hsome'
    obtain rfl := Option.some.inj hsome'
    rw [hfailed, hfailed', outcome, outcome]

omit hsound hcwd hacquire in
/-- Fields whose data comes in one piece send the same. -/
theorem sends_whole (fields : List Field) :
    sends ((fields.map Field.part).map .whole) = sends fields := by
  rw [sends, sends, List.map_map, List.filterMap_map]
  congr 1
  funext f
  simp [Field.part, Field.whole, Field.role?, Field.supply, Supply.data]

omit hsound hcwd hacquire in
/-- A body that ends well is stored if its parts are. -/
theorem store_of_ok {boundary : String} {body : Bytes} {parts : List Part} {i : Intake} {h' : Host}
    (hread : Multipart.read boundary body = (parts, none))
    (hstore : storeParts parts ({ workspace := w.path }, h₀) = .ok () (i, h')) :
    Upload.store boundary body w h₀ = (.ok i, h') := by
  simp only [Upload.store, hread]
  split
  · next hfailed =>
    cases hfailed.symm.trans (Service.bind_of_ok hstore)
  · next hnone => cases hnone
  · next hok _ =>
    cases hok.symm.trans (Service.bind_of_ok hstore)
    rfl

omit hsound hcwd hacquire in
/-- A body is not stored if its parts are not. -/
theorem store_of_error {boundary : String} {body : Bytes} {parts : List Part}
    {fault : Option Multipart.Fault} {e : BuildError} {i : Intake} {h' : Host}
    (hread : Multipart.read boundary body = (parts, fault))
    (hstore : storeParts parts ({ workspace := w.path }, h₀) = .error e (i, h')) :
    Upload.store boundary body w h₀ = (.error (.build e), h') := by
  simp only [Upload.store, hread]
  split
  · next hfailed =>
    cases hfailed.symm.trans (Service.bind_of_error hstore)
    rfl
  · next hok => cases hok.symm.trans (Service.bind_of_error hstore)
  · next hok => cases hok.symm.trans (Service.bind_of_error hstore)

/-- What comes of storing a body and ending the intake. -/
def outcomeOfBody (r : Except Error Intake × Host) :
    Except Error (Inputs × List (Except Fault Bytes)) :=
  match r with
  | (.ok i, h) => (outcome (.ok () (i, h))).mapError .build
  | (.error e, _) => .error e

/-- **As long as no file operation fails**, storing fields obeys the law, no revision of the fields is
noticed, and neither is it whether a body comes in pieces. -/
theorem obeys_of_quiet (hquiet : Quiet ({ workspace := w.path }, h₀) fields) :
    Obeys w.path ({ workspace := w.path }, h₀) fields ∧
    (∀ fields', Revised fields fields' → Quiet ({ workspace := w.path }, h₀) fields' →
      outcome (storeFields fields' ({ workspace := w.path }, h₀)) =
        outcome (storeFields fields ({ workspace := w.path }, h₀))) ∧
    ∀ boundary body, Multipart.read boundary body = (fields.map Field.part, none) →
      Quiet ({ workspace := w.path }, h₀) ((fields.map Field.part).map .whole) →
      outcomeOfBody (Upload.store boundary body w h₀) =
        (outcome (storeFields fields ({ workspace := w.path }, h₀))).mapError .build := by
  refine ⟨obeys hsound hcwd hacquire hquiet, fun fields' hrevised hquiet' => ?_,
    fun boundary body hread hwhole => ?_⟩
  · exact outcome_eq hsound hcwd hacquire hquiet hquiet' hrevised.sends
  · rw [← outcome_eq hsound hcwd hacquire hquiet hwhole (.inl (sends_whole fields).symm),
      ← storeParts_eq]
    rcases hstore : storeParts (fields.map Field.part) ({ workspace := w.path }, h₀) with
      ⟨_, i, h'⟩ | ⟨e, i, h'⟩
    · rw [store_of_ok hread hstore]
      rfl
    · rw [store_of_error hread hstore]
      rfl

end

/-- **No file operation fails** where paths do not get too long. -/
theorem quiet_of_hasRoom {p : Pipeline} {h h₀ : Host} {w : Workspace} (hsound : h.files.IsSound)
    (hcwd : IsReal h.cwd) (hacquire : p.acquireWorkspace h = .ok w h₀)
    (hroom : Path.HasRoom w.path 30) (hnormal : Path.normal w.path = w.path)
    (fields : List Field) : Quiet ({ workspace := w.path }, h₀) fields := by
  obtain ⟨hpath, ws, hsite, hstart⟩ :=
    Session.kept_of_acquireWorkspace hsound hcwd hacquire
  suffices hall : ∀ s : Session, Session.Kept h.files h.cwd ws w.path s →
      Quiet (s.intake, s.host) fields from hall _ hstart
  intro s hkept
  induction fields generalizing s with
  | nil => exact fun _ _ _ hfailed => nomatch hfailed
  | cons f rest ih =>
    intro path detail stop hfailed
    rw [storeFields, storeField] at hfailed
    rcases hrole : f.role? with _ | role
    · rw [hrole] at hfailed
      exact ih s hkept path detail stop hfailed
    · rw [hrole] at hfailed
      by_cases hclaimed : role ∈ s.intake.claimed
      · obtain ⟨-, hrefused⟩ | ⟨hfresh, -⟩ := Intake.take_cases role f.supply s.intake s.host
        · rw [Service.bind_of_error hrefused] at hfailed
          cases hfailed
        · exact hfresh hclaimed
      · obtain ⟨i, h', htake⟩ := hkept.take_ok hsite hroom hnormal hclaimed f.supply
        obtain ⟨s', -, hruns, rfl, rfl, -⟩ := Session.runs_take htake
        rw [Service.bind_of_ok htake] at hfailed
        exact ih s' (hkept.runs hsite hpath hruns) path detail stop hfailed

/-- Five fields under old and new names, in pieces, with a field that nobody knows among them. -/
def mixedFields : List Field :=
  [⟨⟨some "README", some "../a.md"⟩, [[1], [2]]⟩, ⟨⟨some "parser", none⟩, [[3]]⟩,
    ⟨⟨some "comment", none⟩, [[4]]⟩, ⟨⟨some "example", none⟩, []⟩, ⟨⟨none, none⟩, [[5]]⟩,
    ⟨⟨some "lexer", some "b.ll"⟩, [[], [6]]⟩, ⟨⟨some "interpreter", some "c"⟩, [[7]]⟩]

/-- They are stored, and so is every revision of them. -/
theorem obeys_of_mixedFields : ∃ w h₀, (staleHost.files.IsSound ∧ IsReal staleHost.cwd ∧
      Pipeline.acquireWorkspace ⟨"/", usualTools⟩ staleHost = .ok w h₀ ∧
      Quiet ({ workspace := w.path }, h₀) mixedFields) ∧
    Obeys w.path ({ workspace := w.path }, h₀) mixedFields ∧
    (∃ files, outcome (storeFields mixedFields ({ workspace := w.path }, h₀)) = .ok files) ∧
    ∀ fields', Revised mixedFields fields' → Quiet ({ workspace := w.path }, h₀) fields' →
      outcome (storeFields fields' ({ workspace := w.path }, h₀)) =
        outcome (storeFields mixedFields ({ workspace := w.path }, h₀)) := by
  obtain ⟨w, h₀, hacquire, hw⟩ := acquire_staleHost
  have hnormal : Path.normal w.path = w.path := by
    rw [hw]
    decide +kernel
  have hquiet := quiet_of_hasRoom isSound_precious isReal_nil hacquire (hw ▸ hasRoom_firstPath)
    hnormal mixedFields
  obtain ⟨hlaw, hrevised, -⟩ := obeys_of_quiet isSound_precious isReal_nil hacquire hquiet
  have hnodup : (roles mixedFields).Nodup := by decide
  have hall (role : Role) : role ∈ roles mixedFields := by
    cases role <;> decide
  obtain ⟨supply, hsupply⟩ := exists_supply hnodup
  exact ⟨w, h₀, ⟨isSound_precious, isReal_nil, hacquire, hquiet⟩, hlaw,
    ⟨_, hlaw.complete hnodup hall supply hsupply⟩, hrevised⟩

end Upload

end Http

end LangBundle
