import LangBundle.Proofs.FrontEnds

/-!
# Inputs under other names

Two uploads whose fields differ in nothing but the declared names, which give the same extensions,
are stored in the same files and leave the same host; the inputs that come of them differ in nothing
but the names of their entries.

* `Field.Renamed`: two fields that differ in their declared names only.
* `Intake.couples_take`: **one upload** under two names.
* `Http.Upload.couples_storeFields`: **all fields** under two names each.
* `Intake.Renamed.finish`: the inputs that come of them.
* `Http.Upload.storedBy`: **what has been stored** once all inputs are there.
-/

namespace LangBundle

open Files Files.Tree
open Http (Field)

/-! ## Records that differ in names -/

/-- Two stored inputs are the same but for the names of their entries. -/
def StoredInput.Renamed (a b : StoredInput) : Prop :=
  b = { a with entryName := b.entryName }

/-- Two uploads are the same but for the names of their entries. -/
def Upload.Renamed (u v : Upload) : Prop :=
  v = { u with entryName := v.entryName }

/-- Two intakes are the same but for the names of entries. -/
structure Intake.Renamed (i j : Intake) : Prop where
  workspace : j.workspace = i.workspace
  claimed : j.claimed = i.claimed
  stored : List.Forall₂ StoredInput.Renamed i.stored j.stored

/-- The inputs of two builds are the same but for the names of their entries. -/
structure Inputs.Renamed (i j : Inputs) : Prop where
  grammar : i.grammar.Renamed j.grammar
  lexer : i.lexer.Renamed j.lexer
  interpreter : i.interpreter.Renamed j.interpreter
  documentation : i.documentation.Renamed j.documentation
  sample : i.sample.Renamed j.sample

/-- Two fields are the same but for the declared names, which give the same extension. -/
structure Http.Field.Renamed (f g : Field) : Prop where
  name : g.head.name = f.head.name
  chunks : g.chunks = f.chunks
  extension : ∀ role, f.role? = some role →
    g.supply.extension role = f.supply.extension role

theorem Http.Field.Renamed.role_eq {f g : Field} (h : f.Renamed g) : g.role? = f.role? := by
  rw [Field.role?, Field.role?, Http.Upload.roleOf?, Http.Upload.roleOf?, h.name]

theorem Http.Field.Renamed.symm {f g : Field} (h : f.Renamed g) : g.Renamed f :=
  ⟨h.name.symm, h.chunks.symm, fun role hrole => (h.extension role (h.role_eq ▸ hrole)).symm⟩

theorem StoredInput.Renamed.role_eq {a b : StoredInput} (h : a.Renamed b) : b.role = a.role := by
  rw [h]

theorem StoredInput.Renamed.path_eq {a b : StoredInput} (h : a.Renamed b) : b.path = a.path := by
  rw [h]

theorem Upload.Renamed.fields_eq {u v : Upload} (h : u.Renamed v) :
    v.role = u.role ∧ v.path = u.path ∧ v.sink = u.sink ∧ v.written = u.written := by
  rw [h]
  exact ⟨rfl, rfl, rfl, rfl⟩

/-- Two states of taking in that differ in names: nothing on the host does. -/
def Intake.RenamedStates (s t : Intake × Host) : Prop :=
  s.1.Renamed t.1 ∧ t.2 = s.2

namespace Intake

/-! ## One upload -/

section
variable {path : String} {role : Role}

/-- **Beginning** an upload under two names. -/
theorem couples_begin {declared declared' : Option String}
    (hextension : Supply.extension role ⟨declared', []⟩ = Supply.extension role ⟨declared, []⟩) :
    Couples False path path RenamedStates (begin role declared) (begin role declared')
      fun u v s t => u.Renamed v ∧ RenamedStates s t := by
  have hfile : fileName role (entryName role declared') = fileName role (entryName role declared) :=
    congrArg (role.partName ++ "." ++ ·) hextension
  constructor
  rintro ⟨i, _⟩ ⟨⟨workspace, claimed, stored⟩, h⟩ ⟨⟨hworkspace, hclaimed, hstored⟩, rfl⟩
  dsimp only at hworkspace hclaimed hstored
  subst hworkspace hclaimed
  unfold begin
  dsimp only
  rw [hfile]
  generalize h.note (.storing _) = h
  by_cases hclaimed : i.claimed.contains role = true
  · rw [if_pos hclaimed, if_pos hclaimed]
    exact .inr (.inl ⟨_, _, _, _, rfl, rfl, rfl⟩)
  · rw [if_neg hclaimed, if_neg hclaimed]
    rcases h.files.makeDirectories h.cwd _ with ⟨fault | _, t⟩
    · exact .inr (.inl ⟨_, _, _, _, rfl, rfl, .refl path path _, rfl⟩)
    · dsimp only
      rcases t.openWrite h.cwd _ with fault | ⟨sink, t⟩
      · exact .inr (.inl ⟨_, _, _, _, rfl, rfl, .refl path path _, rfl⟩)
      · exact .inl ⟨_, _, _, _, rfl, rfl, rfl, ⟨rfl, rfl, hstored⟩, rfl⟩

/-- **Writing** a piece of an upload under two names. -/
theorem couples_write {u v : Upload} (hupload : u.Renamed v) (piece : Bytes) :
    Couples False path path RenamedStates (write u piece) (write v piece)
      fun u v s t => u.Renamed v ∧ RenamedStates s t := by
  constructor
  rintro ⟨i, _⟩ ⟨j, h⟩ ⟨hrenamed, rfl⟩
  obtain ⟨hrole, hpath, hsink, hwritten⟩ := hupload.fields_eq
  unfold write
  dsimp only
  rw [hpath, hsink, hwritten]
  generalize h.note (.storing _) = h
  rcases h.files.writeAt u.sink u.written piece with fault | t
  · exact .inr (.inl ⟨_, _, _, _, rfl, rfl, .refl path path _, rfl⟩)
  · refine .inl ⟨_, _, _, _, rfl, rfl, ?_, hrenamed, rfl⟩
    rw [Upload.Renamed, hupload]

theorem couples_writeAll {u v : Upload} (hupload : u.Renamed v) (pieces : List Bytes) :
    Couples False path path RenamedStates (writeAll u pieces) (writeAll v pieces)
      fun u v s t => u.Renamed v ∧ RenamedStates s t := by
  induction pieces generalizing u v with
  | nil => exact .pure fun _ _ hs => ⟨hupload, hs⟩
  | cons piece rest ih =>
    refine (couples_write hupload piece).bind fun u' v' => ?_
    exact ⟨fun s t hst => (ih hst.1).ends s t hst.2⟩

/-- **Recording** an upload under two names. -/
theorem couples_commit {u v : Upload} (hupload : u.Renamed v) :
    Couples False path path RenamedStates (commit u) (commit v) fun _ _ => RenamedStates := by
  constructor
  rintro ⟨i, h⟩ ⟨j, _⟩ ⟨hrenamed, rfl⟩
  obtain ⟨hrole, hpath, -, hwritten⟩ := hupload.fields_eq
  refine .inl ⟨(), (), _, _, rfl, rfl, ⟨hrenamed.workspace, hrenamed.claimed, .cons ?_ ?_⟩, rfl⟩
  · simp only [StoredInput.Renamed, hrole, hpath, hwritten]
  · rw [hrole]
    exact List.rel_filter (fun a b hab => by simp only [hab.role_eq]) hrenamed.stored

/-- **One upload** under two names. -/
theorem couples_take {supply supply' : Supply} (hpieces : supply'.pieces = supply.pieces)
    (hextension : supply'.extension role = supply.extension role) :
    Couples False path path RenamedStates (take role supply) (take role supply')
      fun _ _ => RenamedStates := by
  unfold take
  rw [hpieces]
  refine (couples_begin hextension).bind fun u v => ⟨fun s t hst => ?_⟩
  refine (Couples.bind (couples_writeAll hst.1 supply.pieces) fun u' v' => ?_).ends s t hst.2
  exact ⟨fun s t hst => (couples_commit hst.1).ends s t hst.2⟩

end

/-! ## All inputs -/

theorem Renamed.stored? {i j : Intake} (h : i.Renamed j) (role : Role) :
    Option.Rel StoredInput.Renamed (i.stored? role) (j.stored? role) := by
  have hstored := h.stored
  unfold Intake.stored?
  generalize i.stored = row at hstored
  generalize j.stored = row' at hstored
  induction hstored with
  | nil => exact .none
  | @cons a b _ _ hab _ ih =>
    simp only [List.find?_cons, hab.role_eq]
    cases decide (a.role = role) with
    | true => exact .some hab
    | false => exact ih

/-- **The inputs** that come of two intakes that differ in names, or the same role is missing. -/
theorem Renamed.finish {i j : Intake} (h : i.Renamed j) :
    (∃ inputs inputs', i.finish = .ok inputs ∧ j.finish = .ok inputs' ∧ inputs.Renamed inputs') ∨
      ∃ e, i.finish = .error e ∧ j.finish = .error e := by
  have hmissing : (fun role => (j.stored? role).isNone) = fun role => (i.stored? role).isNone := by
    funext role
    have hrole := h.stored? role
    generalize i.stored? role = a at hrole ⊢
    generalize j.stored? role = b at hrole ⊢
    cases hrole <;> rfl
  obtain ⟨inputs, hok, hall⟩ | ⟨role, herror, hfind⟩ := i.finish_cases
  · obtain ⟨inputs', hok', hall'⟩ | ⟨role, -, hfind⟩ := j.finish_cases
    · refine .inl ⟨inputs, inputs', hok, hok', ?_⟩
      simp only [Inputs.toList, Role.all, List.map_cons, List.map_nil, List.cons.injEq,
        and_true] at hall hall'
      have hrenamed {role : Role} {a b : StoredInput} (ha : some a = i.stored? role)
          (hb : some b = j.stored? role) : a.Renamed b := by
        have hab := h.stored? role
        rw [← ha, ← hb] at hab
        exact Option.rel_some_some.1 hab
      exact ⟨hrenamed hall.1 hall'.1, hrenamed hall.2.1 hall'.2.1,
        hrenamed hall.2.2.1 hall'.2.2.1, hrenamed hall.2.2.2.1 hall'.2.2.2.1,
        hrenamed hall.2.2.2.2 hall'.2.2.2.2⟩
    · rw [finish_of_missing (hmissing ▸ hfind)] at hok
      cases hok
  · exact .inr ⟨_, herror, finish_of_missing (hmissing ▸ hfind)⟩

end Intake

namespace Http.Upload

open Intake (RenamedStates)

/-- **All fields** under two names each. -/
theorem couples_storeFields {path : String} {fields fields' : List Field}
    (hrenamed : List.Forall₂ Field.Renamed fields fields') :
    Couples False path path RenamedStates (storeFields fields) (storeFields fields')
      fun _ _ => RenamedStates := by
  induction hrenamed with
  | nil => exact .pure fun _ _ hs => hs
  | @cons f g _ _ hfg _ ih =>
    refine Couples.bind ?_ fun _ _ => ih
    unfold storeField
    rw [hfg.role_eq]
    cases hf : f.role? with
    | none => exact .pure fun _ _ hs => hs
    | some role => exact Intake.couples_take hfg.chunks (hfg.extension role hf)

/-- **Fields that are stored** are stored under other names, on the same host. -/
theorem storeFields_of_renamed {fields fields' : List Field} {path : String} {h₀ h₁ : Host}
    {i : Intake} (hrenamed : List.Forall₂ Field.Renamed fields fields')
    (hstore : storeFields fields ({ workspace := path }, h₀) = .ok () (i, h₁)) :
    ∃ j, storeFields fields' ({ workspace := path }, h₀) = .ok () (j, h₁) ∧ i.Renamed j := by
  have hstates : RenamedStates ({ workspace := path }, h₀) ({ workspace := path }, h₀) :=
    ⟨⟨rfl, rfl, .nil⟩, rfl⟩
  obtain ⟨_, _, s, ⟨j, h₂⟩, hok, hok', hrenamed', hhost⟩ | ⟨e, e', s, s', herror, -⟩ | ⟨hfalse, -⟩ :=
    (@couples_storeFields path _ _ hrenamed).ends _ _ hstates
  · rw [hstore] at hok
    cases hok
    obtain rfl : h₂ = h₁ := hhost
    exact ⟨j, hok', hrenamed'⟩
  · rw [hstore] at herror
    cases herror
  · exact hfalse.elim

/-- What is sent for a role: what its first field sends. -/
def sent (fields : List Field) (role : Role) : Supply :=
  ((fields.find? (·.role? = some role)).map Field.supply).getD ⟨none, []⟩

theorem exists_sent {fields : List Field} {role : Role} (h : role ∈ roles fields) :
    ∃ f ∈ fields, f.role? = some role ∧ sent fields role = f.supply := by
  obtain ⟨g, hg, hrole⟩ := List.mem_filterMap.1 h
  have hsome : (fields.find? (·.role? = some role)).isSome := by
    rw [List.find?_isSome]
    exact ⟨g, hg, decide_eq_true hrole⟩
  obtain ⟨f, hfind⟩ := Option.isSome_iff_exists.1 hsome
  have hmatch := List.find?_some hfind
  refine ⟨f, List.mem_of_find?_eq_some hfind, of_decide_eq_true hmatch, ?_⟩
  rw [sent, hfind]
  rfl

/-- What a build finds whose inputs have been taken in from some fields. -/
structure StoredBy (p : Pipeline) (h : Host) (fields : List Field) (w : Workspace) (ws : Place)
    (inputs : Inputs) (h₁ : Host) : Prop where
  path : w.path = p.nextWorkspace h
  isOpen : Path.IsOpen w.path
  site : h.files.Site h.cwd w.path ws
  cwd : h₁.cwd = h.cwd
  inputs : inputs = .ofSupplies w.path (sent fields)
  prepared : Prepared ws h.files h₁.files
  stocked : Stocked ws (sent fields) (fun role => some (sent fields role).data) h₁.files
  calls : ∀ f, h.CallsOnly f → h₁.CallsOnly f

/-- **What has been stored** once all inputs are there. -/
theorem storedBy {p : Pipeline} {h h₀ h₁ : Host} {w : Workspace} {fields : List Field} {i : Intake}
    {inputs : Inputs} (hsound : h.files.IsSound) (hcwd : IsReal h.cwd)
    (hacquire : p.acquireWorkspace h = .ok w h₀)
    (hstore : storeFields fields ({ workspace := w.path }, h₀) = .ok () (i, h₁))
    (hfinish : i.finish = .ok inputs) : ∃ ws, StoredBy p h fields w ws inputs h₁ := by
  obtain ⟨hpath, ws, hsite, hstart⟩ := Intake.Session.kept_of_acquireWorkspace hsound hcwd hacquire
  have hw := (site_of_acquireWorkspace hsound hcwd hacquire).1.1
  have hnodup : (roles fields).Nodup := by
    obtain ⟨hnone, -⟩ | ⟨role, s, -, herror⟩ | ⟨path, fault, s, herror⟩ :=
      storeFields_cases fields { workspace := w.path } h₀
    · exact ((firstRepeated_eq_none_iff _ _).1 hnone).1
    · rw [hstore] at herror
      cases herror
    · rw [hstore] at herror
      cases herror
  obtain ⟨hstored, hnone⟩ := offers_of_storeFields hsound hcwd hacquire hnodup hstore
  have hall (role : Role) : role ∈ roles fields := by
    by_contra hmissing
    obtain ⟨inputs', -, hsome⟩ | ⟨role, herror, -⟩ := i.finish_cases
    · have hmem : i.stored? role ∈ inputs'.toList.map some := by
        rw [hsome]
        exact List.mem_map_of_mem role.mem_all
      rw [hnone role hmissing] at hmem
      obtain ⟨input, -, hinput⟩ := List.mem_map.1 hmem
      cases hinput
    · rw [hfinish] at herror
      cases herror
  obtain ⟨s, hruns, rfl, rfl, hfields, -⟩ := runs_storeFields
    (s := { intake := { workspace := w.path }, host := h₀ }) (fun _ _ => rfl) hnodup hstore
  have hkept := hstart.runs hsite hpath hruns
  have hsent (role : Role) : s.supply role = sent fields role ∧ .recorded role ∈ s.log ∧
      s.intake.stored? role = some ((sent fields role).input w.path role) := by
    obtain ⟨f, hf, hrole, hsupply⟩ := exists_sent (hall role)
    rw [hsupply]
    exact ⟨(hfields f hf role hrole).1, (hfields f hf role hrole).2, (hstored f hf role hrole).1⟩
  refine ⟨ws, hw, hpath, hsite, hkept.cwd_eq, ?_, hkept.prepared, ?_, fun f hcalls => ?_⟩
  · rw [Intake.finish_of_stored fun role => (hsent role).2.2] at hfinish
    exact (Except.ok.inj hfinish).symm
  · rw [← show s.supply = sent fields from funext fun role => (hsent role).1]
    exact hkept.stocked_all hsite.isReal fun role => (hsent role).2.1
  · obtain ⟨-, -, ws', hsite', hworks, hprepared⟩ :=
      acquireWorkspace_eq_ok hcalls hsound hcwd hacquire
    obtain rfl : ws' = ws := Except.ok.inj (hsite'.leads.symm.trans hsite.leads)
    exact ((ensures_storeFields (f := f) hsite hpath fields).of_ok
      ⟨rfl, hworks, hprepared⟩ hstore).works.calls

end Http.Upload

end LangBundle
