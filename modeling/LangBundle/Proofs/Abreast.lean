import LangBundle.Proofs.BuildSteps
import LangBundle.Proofs.Neighbours

/-!
# One build on two hosts

A build goes the same way on two hosts whose workspaces for it hold the same, whatever else is on
them, as long as its tools keep to the workspace and leave no way out of it.  What others do outside
the workspace does not matter to it.

* `ToolFunction.WorksBelow`, `ToolFunction.LeavesNoWayOut`: **tools** that keep to a workspace.
* `Houses`: a host on which a build is at work.
* `ensures_run_houses`, `ensures_writeArchive_houses`: **what a build does** keeps to its workspace.
* `Abreast`: **how far a build has come** on both hosts, and what is the same on both then.
* `Abreast.elsewhere`: changes elsewhere do not matter.
* `Abreast.step`: **each step** leads to the same on both.
-/

namespace LangBundle

open Files Files.Tree
open Http (Field Download)

/-! ## Tools that keep to a workspace -/

/-- The same answer of a tool that is called on two trees: it is refused alike, or it says and ends
the same and leaves the same in the workspace. -/
inductive AnswersAlike (ws : Place) : Except Fault Deed → Except Fault Deed → Prop
  | refused (fault : Fault) : AnswersAlike ws (.error fault) (.error fault)
  | done {d d' : Deed} (said : d'.said = d.said) (ending : d'.ending = d.ending)
      (files : Twins ws ws d.files d'.files) : AnswersAlike ws (.ok d) (.ok d')

/-- A tool writes only below the directory that it is called in, and it reads only there and what was
there at the beginning: called on two trees that agree in this it answers the same.  `P` says on
which trees. -/
structure ToolFunction.WorksBelow (f : ToolFunction) (p : Pipeline) (b : Berth) (P : Tree → Prop) :
    Prop where
  writes : ∀ t c d, P t → p.Calls b.path c → f t b.cwd b.path c.program c.args = .ok d →
    d.files.IsSound ∧ ∀ q, IsReal q → ¬ b.ws <+: q → d.files.get? q = t.get? q
  reads : ∀ t t' c, P t → P t' → p.Calls b.path c → Twins b.ws b.ws t t' →
    AnswersAlike b.ws (f t b.cwd b.path c.program c.args) (f t' b.cwd b.path c.program c.args)

/-- A tool leaves no way out of the directory that it is called in: no link that leads out of it in the
place of what a build looks at, and no file that has a second name elsewhere. -/
def ToolFunction.LeavesNoWayOut (f : ToolFunction) (p : Pipeline) (base : Tree) (b : Berth) : Prop :=
  ∀ t c d, Lodges base b t → p.Calls b.path c → f t b.cwd b.path c.program c.args = .ok d →
    Enclosed b.ws d.files

/-- A tool keeps to a workspace out of which there is no way. -/
structure ToolFunction.KeepsInside (f : ToolFunction) (p : Pipeline) (base : Tree) (b : Berth) :
    Prop where
  works : f.WorksBelow p b (Lodges base b)
  encloses : f.LeavesNoWayOut p base b

/-! ## A host on which a build is at work -/

/-- What has become of a tree by changes in a workspace. -/
structure Moves (base : Tree) (b : Berth) (t u : Tree) : Prop where
  sound : u.IsSound
  retains : base.Retains u
  changed : ChangedBelow b.ws t u

/-- A host on which a build is at work, and whose tree was `t` at first. -/
structure Houses (f : ToolFunction) (base : Tree) (b : Berth) (t : Tree) (h : Host) : Prop where
  calls : h.CallsOnly f
  cwd : h.cwd = b.cwd
  lodges : Lodges base b h.files
  changed : ChangedBelow b.ws t h.files

section
variable {f : ToolFunction} {base : Tree} {b : Berth}

theorem Moves.refl {t : Tree} (hsound : t.IsSound) (hretains : base.Retains t) :
    Moves base b t t :=
  ⟨hsound, hretains, .refl _ _⟩

theorem Houses.moves {t : Tree} {h : Host} (hhouses : Houses f base b t h) :
    Moves base b t h.files :=
  ⟨hhouses.lodges.sound, hhouses.lodges.retains, hhouses.changed⟩

theorem Houses.of_files {t u : Tree} {h : Host} (hhouses : Houses f base b t h)
    (hlodges : Lodges base b u) (hchanged : ChangedBelow b.ws h.files u) :
    Houses f base b t { h with files := u } :=
  ⟨⟨hhouses.calls.launch, hhouses.calls.leftovers, hhouses.calls.members⟩, hhouses.cwd, hlodges,
    hhouses.changed.trans hchanged⟩

variable (hlies : b.Lies base) {p : Pipeline}
include hlies

/-- **A tool** keeps to the workspace. -/
theorem Lodges.leftBy {t : Tree} (h : Lodges base b t) (hkeeps : f.KeepsInside p base b)
    {c : Stage.Command} (hc : p.Calls b.path c) (limit : Nat) :
    Lodges base b (Stage.leftBy f b.cwd b.path limit c t) ∧
      ChangedBelow b.ws t (Stage.leftBy f b.cwd b.path limit c t) := by
  unfold Stage.leftBy
  rcases hd : f t b.cwd b.path c.program c.args with fault | d
  · exact ⟨h, .refl _ _⟩
  · dsimp only [Deed.filesAfter]
    split
    · exact ⟨h, .refl _ _⟩
    · obtain ⟨hsound, hoff⟩ := hkeeps.works.writes t c d h hc hd
      exact Lodges.changed hlies h.retains hsound hoff (hkeeps.encloses t c d h hc hd)

/-- **A stage** keeps to the workspace. -/
theorem ensures_run_houses (hkeeps : f.KeepsInside p base b) {c : Stage.Command}
    (hc : p.Calls b.path c) (limit : Nat) (t : Tree) :
    Ensures (Houses f base b t) (c.run b.path limit) (fun _ => Houses f base b t)
      (Houses f base b t) where
  ends h hhouses := by
    obtain ⟨h', hran, hends⟩ := Stage.run_of_calls hhouses.calls c b.path limit
    obtain ⟨hlodges, hchanged⟩ := hhouses.lodges.leftBy hlies hkeeps hc limit
    have hafter : Houses f base b t h' := by
      refine ⟨hran.calls, hran.cwd.trans hhouses.cwd, ?_, hhouses.changed.trans ?_⟩
      · rw [hran.files, hhouses.cwd]
        exact hlodges
      · rw [hran.files, hhouses.cwd]
        exact hchanged
    rcases hends with ⟨-, o, hrun⟩ | ⟨-, failure, hrun⟩
    · rw [hrun]
      exact hafter
    · rw [hrun]
      exact hafter

/-- **An archive** is written in the workspace. -/
theorem ensures_writeArchive_houses {supply : Role → Supply} {names : List String}
    (hnames : names ∈ lookedAt supply) (artifacts : List Artifact) (t : Tree) :
    Ensures (Houses f base b t) (Bundle.writeArchive (Path.below b.path names) artifacts)
      (fun _ => Houses f base b t) (Houses f base b t) := by
  refine Ensures.bind
    (Q := fun sink h => Houses f base b t h ∧ StaysInside b.ws h.files sink)
    (.onFiles (fun _ h => h) fun h sink u hhouses hopen => ?_) fun sink => ?_
  · rw [hhouses.cwd] at hopen
    obtain ⟨⟨hlodges, hchanged⟩, hinside, -⟩ := hhouses.lodges.opened hlies
      (leadDown_of_mem_lookedAt hnames) (hhouses.lodges.enclosed.stays supply names hnames) hopen
    exact ⟨hhouses.of_files hlodges hchanged, hinside⟩
  refine ((ensures_entriesOf _).imp (fun _ h => h) (fun _ _ h => h) fun _ h => h.1).bind
    fun entries => ?_
  refine .onFiles (fun _ h => h.1) fun h _ u ⟨hhouses, hinside⟩ hwrite => ?_
  obtain ⟨u', hwrite, heq⟩ := Tree.bind_eq_ok hwrite
  cases heq
  obtain ⟨hlodges, hchanged⟩ := hhouses.lodges.written hlies hinside hwrite
  exact hhouses.of_files hlodges hchanged

end

/-! ## The same on both hosts -/

/-- What is recorded of an upload when it is complete. -/
def Upload.record (u : Upload) : StoredInput :=
  ⟨u.role, u.path, u.entryName, u.written⟩

/-- What an intake has recorded are inputs in a workspace. -/
structure Intake.StoresIn (i : Intake) (path : String) : Prop where
  workspace : i.workspace = path
  stored : ∀ input ∈ i.stored, ∃ s : Supply, input = s.input path input.role

/-- Uploads that have begun in a workspace on both hosts, if any have. -/
inductive CurrentAlike (b : Berth) (t t' : Tree) :
    Option (Upload × List Bytes) → Option (Upload × List Bytes) → Prop
  | none : CurrentAlike b t t' none none
  | some {u : Upload} {sink' : Sink} (pieces : List Bytes) (s : Supply)
      (hrecord : u.record = s.input b.path u.role)
      (hsinks : SinksAlike b.ws b.ws t t' u.sink sink') :
      CurrentAlike b t t' (some (u, pieces)) (some ({ u with sink := sink' }, pieces))

open Build (Phase)

/-- A build that is at work has come equally far on both hosts. -/
inductive Working (base : Tree) (b : Berth) : Phase → Phase → Tree → Tree → Prop
  | storing {w : Workspace} {i : Intake} {current current' : Option (Upload × List Bytes)}
      {fields : List Field} {t t' : Tree} (hw : w.path = b.path) (hfresh : Fresh base b t t')
      (hstores : i.StoresIn b.path) (hcurrent : CurrentAlike b t t' current current') :
      Working base b (.storing w i current fields) (.storing w i current' fields) t t'
  | running {w : Workspace} {supply : Role → Supply} {stages : List Stage} {t t' : Tree}
      (hw : w.path = b.path) (hshared : Shared base b t t') :
      Working base b (.running w (.ofSupplies b.path supply) stages)
        (.running w (.ofSupplies b.path supply) stages) t t'
  | packing {w : Workspace} {supply : Role → Supply} {t t' : Tree} (hw : w.path = b.path)
      (hshared : Shared base b t t') :
      Working base b (.packing w (Stage.artifacts b.path (.ofSupplies b.path supply)))
        (.packing w (Stage.artifacts b.path (.ofSupplies b.path supply))) t t'
  | wrapping {w : Workspace} {supply : Role → Supply} {t t' : Tree} (hw : w.path = b.path)
      (hshared : Shared base b t t') :
      Working base b (.wrapping w (Stage.artifacts b.path (.ofSupplies b.path supply)))
        (.wrapping w (Stage.artifacts b.path (.ofSupplies b.path supply))) t t'
  | opening {w : Workspace} {t t' : Tree} (hw : w.path = b.path) (hshared : Shared base b t t') :
      Working base b (.opening w (Path.join b.path Bundle.resultArchive))
        (.opening w (Path.join b.path Bundle.resultArchive)) t t'
  | sending {w : Workspace} {source source' : Source} {offset : Nat} {sent : Bytes} {t t' : Tree}
      (hw : w.path = b.path) (hshared : Shared base b t t')
      (hsources : SourcesAlike b.ws b.ws t t' source source') :
      Working base b (.sending ⟨source, offset, w⟩ sent) (.sending ⟨source', offset, w⟩ sent) t t'
  | closing {w : Workspace} {outcome : Build.Outcome} {t t' : Tree} (hw : w.path = b.path) :
      Working base b (.closing w outcome) (.closing w outcome) t t'

/-- A build has come equally far on both hosts, of which nobody else is at work on the second one. -/
inductive Abreast (base : Tree) (b : Berth) : Phase → Phase → Tree → Tree → Prop
  | waiting {t : Tree} (hvacant : ∀ q, IsReal q → b.ws <+: q → t.get? q = base.get? q) :
      Abreast base b .waiting .waiting t base
  | working {phase phase' : Phase} {t t' : Tree} (hlies : b.Lies base)
      (hworking : Working base b phase phase' t t') : Abreast base b phase phase' t t'
  | ended {outcome : Build.Outcome} {t t' : Tree} :
      Abreast base b (.ended outcome) (.ended outcome) t t'

/-- Where a build has come to on both hosts, of which the first one had the tree `t` before. -/
structure Goes (f : ToolFunction) (base : Tree) (b : Berth) (t : Tree) (r r' : Phase × Host) :
    Prop where
  pair : Paired f b b (Abreast base b r.1 r'.1) r.2 r'.2
  moves : Moves base b t r.2.files

/-! ## Changes elsewhere -/

section
variable {base : Tree} {b : Berth} {ws' : Place} {t t' u : Tree}
  (hchanged : ChangedBelow ws' t u) (hapart : ∀ q, b.ws <+: q → ¬ ws' <+: q) (hsound : u.IsSound)
  (hretains : base.Retains u)
include hchanged hapart

theorem Files.Tree.SourcesAlike.elsewhere (hws : IsReal b.ws) {source source' : Source}
    (h : SourcesAlike b.ws b.ws t t' source source') :
    SourcesAlike b.ws b.ws u t' source source' := by
  cases h with
  | file hq hat hat' =>
    exact .file hq ((hchanged.get?_eq hapart (hws.append hq) (List.prefix_append _ _)).trans hat)
      hat'
  | directory => exact .directory
  | device kind => exact .device kind
  | pipe serial serial' => exact .pipe serial serial'
  | empty => exact .empty

theorem CurrentAlike.elsewhere (hws : IsReal b.ws) {current current' : Option (Upload × List Bytes)}
    (h : CurrentAlike b t t' current current') : CurrentAlike b u t' current current' := by
  cases h with
  | none => exact .none
  | some pieces s hrecord hsinks =>
    exact .some pieces s hrecord (hsinks.of_serials
      (fun q hq => hchanged.serialAt?_eq hapart hws hq) fun q _ => rfl)

include hsound hretains

/-- **Changes elsewhere** do not matter to a build. -/
theorem Abreast.elsewhere {phase phase' : Phase} (h : Abreast base b phase phase' t t') :
    Abreast base b phase phase' u t' := by
  cases h with
  | waiting hvacant =>
    exact .waiting fun q hq hbelow =>
      (hchanged.get?_eq hapart hq hbelow).trans (hvacant q hq hbelow)
  | working hlies hworking =>
    have hshared (h : Shared base b t t') : Shared base b u t' :=
      h.elsewhere hlies hchanged hapart hsound hretains
    refine .working hlies ?_
    cases hworking with
    | storing hw hfresh hstores hcurrent =>
      exact .storing hw (hfresh.elsewhere hlies hchanged hapart hsound hretains) hstores
        (hcurrent.elsewhere hchanged hapart hlies.real)
    | running hw h => exact .running hw (hshared h)
    | packing hw h => exact .packing hw (hshared h)
    | wrapping hw h => exact .wrapping hw (hshared h)
    | opening hw h => exact .opening hw (hshared h)
    | sending hw h hsources =>
      exact .sending hw (hshared h) (hsources.elsewhere hchanged hapart hlies.real)
    | closing hw => exact .closing hw
  | ended => exact .ended

end

/-! ## Storing inputs -/

/-- The inputs of a finished intake are what was sent. -/
theorem Intake.StoresIn.finish {i : Intake} {path : String} (h : i.StoresIn path) {inputs : Inputs}
    (hfinish : i.finish = .ok inputs) : ∃ supply, inputs = .ofSupplies path supply := by
  obtain ⟨inputs', hfinish', hall⟩ | ⟨role, hfinish', -⟩ := i.finish_cases
  swap
  · rw [hfinish'] at hfinish
    cases hfinish
  rw [hfinish'] at hfinish
  obtain rfl := Except.ok.inj hfinish
  have hrole (role : Role) : ∃ s : Supply, i.stored? role = some (s.input path role) := by
    have hmem : i.stored? role ∈ inputs'.toList.map some := hall ▸ List.mem_map_of_mem role.mem_all
    obtain ⟨input, -, hinput⟩ := List.mem_map.1 hmem
    have hfind : i.stored.find? (·.role = role) = some input := hinput.symm
    have hkind : input.role = role := by simpa using List.find?_some hfind
    obtain ⟨s, hs⟩ := h.stored input (List.mem_of_find?_eq_some hfind)
    exact ⟨s, by rw [← hinput, hs, hkind]⟩
  choose supply hsupply using hrole
  have heq := finish_of_stored hsupply
  rw [hfinish'] at heq
  exact ⟨supply, Except.ok.inj heq⟩

theorem Intake.StoresIn.commit {i : Intake} {path : String} (h : i.StoresIn path) {u : Upload}
    {s : Supply} (hrecord : u.record = s.input path u.role) :
    Intake.StoresIn { i with stored := u.record :: i.stored.filter (·.role ≠ u.role) } path where
  workspace := h.workspace
  stored input hinput := by
    rcases List.mem_cons.1 hinput with rfl | hkept
    · exact ⟨s, hrecord⟩
    · exact h.stored input (List.mem_filter.1 hkept).1

section
variable {f : ToolFunction} {base : Tree} {b : Berth} {h h' : Host}

theorem Host.CallsOnly.note (hcalls : h.CallsOnly f) (e : Event) : (h.note e).CallsOnly f :=
  ⟨hcalls.launch, hcalls.leftovers, hcalls.members⟩

theorem Paired.note {R : Tree → Tree → Prop} (hpair : Paired f b b R h h') (e : Event) :
    Paired f b b R (h.note e) (h'.note e) :=
  ⟨hpair.calls.note e, hpair.calls'.note e, hpair.cwd, hpair.cwd', hpair.files⟩

theorem Fresh.moves {t u u' : Tree} (hfresh : Fresh base b u u') (hchanged : ChangedBelow b.ws t u) :
    Moves base b t u :=
  ⟨hfresh.left.sound, hfresh.left.retains, hchanged⟩

theorem Shared.moves {t u u' : Tree} (hshared : Shared base b u u')
    (hchanged : ChangedBelow b.ws t u) : Moves base b t u :=
  ⟨hshared.left.sound, hshared.left.retains, hchanged⟩

variable (hlies : b.Lies base)
include hlies

/-- A build that gives up does so on both hosts. -/
theorem Goes.giveUp {R : Tree → Tree → Prop} (hpair : Paired f b b R h h') {t : Tree}
    (hmoves : Moves base b t h.files) {w : Workspace} (hw : w.path = b.path) (e : BuildError) :
    Goes f base b t (.giveUp w e, h) (.giveUp w e, h') :=
  ⟨hpair.imp fun _ _ _ => .working hlies (.closing hw), hmoves⟩

/-- **An upload** begins on both hosts, or on none. -/
theorem Intake.begin_alike {i : Intake} (hpair : Paired f b b (Fresh base b) h h')
    (hstores : i.StoresIn b.path) (role : Role) (declared : Option String) :
    (∃ u sink' i' k k', Intake.begin role declared (i, h) = .ok u (i', k) ∧
      Intake.begin role declared (i, h') = .ok { u with sink := sink' } (i', k') ∧
      i'.StoresIn b.path ∧ u.record = Supply.input b.path u.role ⟨declared, []⟩ ∧
      Paired f b b (fun t t' => Fresh base b t t' ∧ SinksAlike b.ws b.ws t t' u.sink sink') k k' ∧
      ChangedBelow b.ws h.files k.files) ∨
    ∃ e i' k k', Intake.begin role declared (i, h) = .error e (i', k) ∧
      Intake.begin role declared (i, h') = .error e (i', k') ∧
      Paired f b b (Fresh base b) k k' ∧ ChangedBelow b.ws h.files k.files := by
  have hnames : Path.LeadDown (storedNames (fun _ => ⟨declared, []⟩) role) :=
    leadDown_storedNames role
  unfold Intake.begin
  dsimp only
  rw [hstores.workspace]
  by_cases hclaimed : i.claimed.contains role = true
  · rw [if_pos hclaimed, if_pos hclaimed]
    exact .inr ⟨_, _, _, _, rfl, rfl, hpair, .refl _ _⟩
  rw [if_neg hclaimed, if_neg hclaimed]
  have hnoted := hpair.note (.storing (Path.below b.path (storedNames (fun _ => ⟨declared, []⟩) role)))
  obtain ⟨r, t, t', hmake, hmake', hfresh, hchanged⟩ := hpair.files.makeDirectories hlies
  rw [← hpair.cwd] at hmake
  rw [← hpair.cwd'] at hmake'
  dsimp only [Host.note]
  rw [hmake, hmake']
  rcases r with fault | _
  · exact .inr ⟨_, _, _, _, rfl, rfl, hnoted.of_files hfresh, hchanged⟩
  dsimp only
  obtain ⟨sink, sink', u, u', hopen, hopen', hfresh', hsinks, hchanged'⟩ | ⟨fault, hopen, hopen'⟩ :=
    hfresh.openWrite hlies hnames
  · rw [← hpair.cwd] at hopen
    rw [← hpair.cwd'] at hopen'
    dsimp only [Path.below, storedNames, Supply.entryName, List.foldl_cons, List.foldl_nil]
      at hopen hopen'
    rw [hopen, hopen']
    exact .inl ⟨_, sink', _, _, _, rfl, rfl, ⟨rfl, hstores.stored⟩, rfl,
      hnoted.of_files ⟨hfresh', hsinks⟩, hchanged.trans hchanged'⟩
  · rw [← hpair.cwd] at hopen
    rw [← hpair.cwd'] at hopen'
    dsimp only [Path.below, storedNames, Supply.entryName, List.foldl_cons, List.foldl_nil]
      at hopen hopen'
    rw [hopen, hopen']
    exact .inr ⟨_, _, _, _, rfl, rfl, hnoted.of_files hfresh, hchanged⟩

/-- **A piece** of an upload is written on both hosts, or on none. -/
theorem Intake.write_alike {i : Intake} {u : Upload} {sink' : Sink} {s : Supply}
    (hpair : Paired f b b
      (fun t t' => Fresh base b t t' ∧ SinksAlike b.ws b.ws t t' u.sink sink') h h')
    (hrecord : u.record = s.input b.path u.role) (piece : Bytes) :
    (∃ v k k', Intake.write u piece (i, h) = .ok v (i, k) ∧
      Intake.write { u with sink := sink' } piece (i, h') = .ok { v with sink := sink' } (i, k') ∧
      v.record = Supply.input b.path v.role { s with pieces := s.pieces ++ [piece] } ∧
      Paired f b b (fun t t' => Fresh base b t t' ∧ SinksAlike b.ws b.ws t t' v.sink sink') k k' ∧
      ChangedBelow b.ws h.files k.files) ∨
    ∃ e k k', Intake.write u piece (i, h) = .error e (i, k) ∧
      Intake.write { u with sink := sink' } piece (i, h') = .error e (i, k') ∧
      Paired f b b (Fresh base b) k k' ∧ ChangedBelow b.ws h.files k.files := by
  have hnoted := hpair.note (.storing u.path)
  obtain ⟨hfresh, hsinks⟩ := hpair.files
  unfold Intake.write
  dsimp only [Host.note]
  obtain ⟨t, t', hwrite, hwrite', hfresh', hsinks', hchanged⟩ | ⟨fault, hwrite, hwrite'⟩ :=
    hfresh.writeAt hlies hsinks u.written piece
  · rw [hwrite, hwrite']
    refine .inl ⟨{ u with written := u.written + piece.length }, _, _, rfl, rfl, ?_,
      hnoted.of_files ⟨hfresh', hsinks'⟩, hchanged⟩
    have hsize : u.written = s.data.length := congrArg StoredInput.size hrecord
    have hpath : u.path = (s.input b.path u.role).path := congrArg StoredInput.path hrecord
    have hentry : u.entryName = s.entryName u.role := congrArg StoredInput.entryName hrecord
    simp only [Upload.record, Supply.input, Supply.entryName, Supply.data, hpath, hentry, hsize,
      List.flatten_append, List.flatten_singleton, List.length_append]
  · rw [hwrite, hwrite']
    exact .inr ⟨_, _, _, rfl, rfl, hnoted.imp fun _ _ h => h.1, .refl _ _⟩

/-- **Each step** of an intake leads to the same on both hosts. -/
theorem goes_stepStoring {w : Workspace} {i : Intake} {current current' : Option (Upload × List Bytes)}
    (fields : List Field) (hw : w.path = b.path) (hstores : i.StoresIn b.path)
    (hpair : Paired f b b
      (fun t t' => Fresh base b t t' ∧ CurrentAlike b t t' current current') h h') :
    Goes f base b h.files (Build.stepStoring w i h current fields)
      (Build.stepStoring w i h' current' fields) := by
  obtain ⟨hfresh, hcurrent⟩ := hpair.files
  have hfreshes : Paired f b b (Fresh base b) h h' := hpair.imp fun _ _ h => h.1
  have hstays : Moves base b h.files h.files := hfresh.moves (.refl _ _)
  cases hcurrent with
  | none =>
    rcases fields with _ | ⟨field, fields⟩
    · rw [Build.stepStoring, Build.stepStoring]
      rcases hfinish : i.finish with e | inputs
      · exact .giveUp hlies hfreshes hstays hw e
      · obtain ⟨supply, rfl⟩ := hstores.finish hfinish
        exact ⟨hfreshes.imp fun _ _ h => .working hlies (.running hw (h.shared hlies)), hstays⟩
    · rw [Build.stepStoring, Build.stepStoring]
      rcases field.role? with _ | role
      · exact ⟨hfreshes.imp fun _ _ h => .working hlies (.storing hw h hstores .none), hstays⟩
      · obtain ⟨u, sink', i', k, k', hbegin, hbegin', hstores', hrecord, hpair', hchanged⟩ |
          ⟨e, i', k, k', hbegin, hbegin', hpair', hchanged⟩ :=
          Intake.begin_alike hlies hfreshes hstores role field.head.fileName
        · dsimp only
          rw [hbegin, hbegin']
          exact ⟨hpair'.imp fun _ _ h => .working hlies
            (.storing hw h.1 hstores' (.some field.chunks _ hrecord h.2)),
            hpair'.files.1.moves hchanged⟩
        · dsimp only
          rw [hbegin, hbegin']
          exact .giveUp hlies hpair' (hpair'.files.moves hchanged) hw e
  | @some u sink' pieces s hrecord hsinks =>
    rcases pieces with _ | ⟨piece, more⟩
    · rw [Build.stepStoring, Build.stepStoring]
      exact ⟨hfreshes.imp fun _ _ h => .working hlies
        (.storing hw h (hstores.commit hrecord) .none), hstays⟩
    · rw [Build.stepStoring, Build.stepStoring]
      have hsunk : Paired f b b
          (fun t t' => Fresh base b t t' ∧ SinksAlike b.ws b.ws t t' u.sink sink') h h' :=
        ⟨hpair.calls, hpair.calls', hpair.cwd, hpair.cwd', hfresh, hsinks⟩
      obtain ⟨v, k, k', hwrite, hwrite', hrecord', hpair', hchanged⟩ |
        ⟨e, k, k', hwrite, hwrite', hpair', hchanged⟩ :=
        Intake.write_alike (i := i) hlies hsunk hrecord piece
      · rw [hwrite, hwrite']
        exact ⟨hpair'.imp fun _ _ h => .working hlies
          (.storing hw h.1 hstores (.some more _ hrecord' h.2)), hpair'.files.1.moves hchanged⟩
      · rw [hwrite, hwrite']
        exact .giveUp hlies hpair' (hpair'.files.moves hchanged) hw e

/-! ## Tools and archives -/

/-- **What is done in the workspace** with the same result leads to the same on both hosts. -/
theorem goes_settle {α : Type} {x : Service α} {P Q : Tree → Tree → Prop} {w : Workspace}
    {phase : Phase}
    (hcouples : Couples False b.path b.path (Paired f b b P) x x fun _ _ => Paired f b b Q)
    (hensures : ∀ t, Ensures (Houses f base b t) x (fun _ => Houses f base b t)
      (Houses f base b t))
    (hpair : Paired f b b P h h') (hshared : Shared base b h.files h'.files)
    (hw : w.path = b.path)
    (hnext : ∀ t t', Q t t' → Lodges base b t → Lodges base b t' →
      Working base b phase phase t t') :
    Goes f base b h.files (Build.settle (fun h => h) (.giveUp w) (fun _ _ => phase) (x h))
      (Build.settle (fun h => h) (.giveUp w) (fun _ _ => phase) (x h')) := by
  have hhouses : Houses f base b h.files h := ⟨hpair.calls, hpair.cwd, hshared.left, .refl _ _⟩
  have hhouses' : Houses f base b h'.files h' := ⟨hpair.calls', hpair.cwd', hshared.right, .refl _ _⟩
  obtain ⟨a, a', k, k', hx, hx', hafter⟩ | ⟨e, e', k, k', hx, hx', hsame⟩ | ⟨hslack, -⟩ :=
    hcouples.ends h h' hpair
  · have hkept := (hensures _).of_ok hhouses hx
    have hkept' := (hensures _).of_ok hhouses' hx'
    rw [hx, hx']
    exact ⟨⟨hafter.calls, hafter.calls', hafter.cwd, hafter.cwd',
      .working hlies (hnext _ _ hafter.files hkept.lodges hkept'.lodges)⟩, hkept.moves⟩
  · have hkept := (hensures _).of_error hhouses hx
    have hkept' := (hensures _).of_error hhouses' hx'
    obtain rfl := hsame.eq
    rw [hx, hx']
    exact .giveUp hlies (R := fun _ _ => True)
      ⟨hkept.calls, hkept'.calls, hkept.cwd, hkept'.cwd, trivial⟩ hkept.moves hw _
  · exact hslack.elim

/-- **An archive** of artifacts in the workspace leads to the same on both hosts. -/
theorem goes_writeArchive {supply : Role → Supply} {name : String} {artifacts : List Artifact}
    {w : Workspace} {phase : Phase} (hname : name ∈ archiveNames)
    (halike : List.Forall₂ (ArtifactsAlike b b (lookedAt supply)) artifacts artifacts)
    (hpair : Paired f b b (Shared base b) h h') (hw : w.path = b.path)
    (hnext : ∀ t t', Shared base b t t' → Working base b phase phase t t') :
    Goes f base b h.files
      (Build.settle (fun h => h) (.giveUp w) (fun _ _ => phase)
        (Bundle.writeArchive (Path.join b.path name) artifacts h))
      (Build.settle (fun h => h) (.giveUp w) (fun _ _ => phase)
        (Bundle.writeArchive (Path.join b.path name) artifacts h')) := by
  have hmem : [name] ∈ lookedAt supply := archive_mem_lookedAt hname
  have hcouples : Couples False b.path b.path
      (Paired f b b (Beside False b b (lookedAt supply))) _ _ fun _ _ =>
        Paired f b b (Beside False b b (lookedAt supply)) :=
    couples_writeArchive hlies.isOpen hlies.isOpen (fun _ hn => leadDown_of_mem_lookedAt hn)
      hlies.cwd hlies.cwd hmem halike
  exact goes_settle hlies hcouples
    (ensures_writeArchive_houses hlies hmem artifacts)
    (hpair.imp fun _ _ h => h.beside hlies (h.left.enclosed.stays supply)) hpair.files hw
    fun t t' hbeside hlodges hlodges' => hnext t t' ⟨hlodges, hlodges', hbeside.twins⟩

omit hlies in
/-- **The end** of a workspace: nothing happens to the host, or its directory is removed. -/
theorem drop_cases (w : Workspace) (hcalls : h.CallsOnly f) :
    (w.drop h).CallsOnly f ∧ (w.drop h).cwd = h.cwd ∧
      ((w.drop h).files = h.files ∨
        (w.drop h).files = (h.files.removeDirectoryTree h.cwd w.path).2) := by
  unfold Workspace.drop Workspace.release
  split
  · exact ⟨hcalls, rfl, .inl rfl⟩
  · dsimp only
    generalize h.files.removeDirectoryTree h.cwd w.path = removed
    obtain ⟨fault | _, t⟩ := removed
    · cases fault <;> exact ⟨⟨hcalls.launch, hcalls.leftovers, hcalls.members⟩, rfl, .inr rfl⟩
    · exact ⟨⟨hcalls.launch, hcalls.leftovers, hcalls.members⟩, rfl, .inr rfl⟩

/-- **The removal** of the workspace changes nothing elsewhere. -/
theorem moves_drop {w : Workspace} (hw : w.path = b.path) (hcalls : h.CallsOnly f)
    (hcwd : h.cwd = b.cwd) (hsound : h.files.IsSound) (hretains : base.Retains h.files) :
    Moves base b h.files (w.drop h).files := by
  have hleads := hlies.leads h.files hretains
  have hchanged := removeDirectoryTree_changedBelow hleads hlies.ne_nil
  obtain ⟨-, -, hsame | hremoved⟩ := drop_cases w hcalls
  · rw [hsame]
    exact .refl hsound hretains
  · rw [hremoved, hcwd, hw]
    exact ⟨isSound_removeDirectoryTree hsound hlies.cwd hleads hlies.ne_nil,
      hlies.retains hretains hchanged, hchanged⟩

/-- **The bundle** is opened on both hosts, or on none. -/
theorem goes_opening {w : Workspace} {bundle : String} (hw : w.path = b.path)
    (hbundle : bundle = Path.below b.path [Bundle.resultArchive])
    (hpair : Paired f b b (Shared base b) h h') :
    Goes f base b h.files (Build.opened w bundle (h.files.openRead h.cwd bundle), h)
      (Build.opened w bundle (h'.files.openRead h'.cwd bundle), h') := by
  let supply : Role → Supply := fun _ => ⟨none, []⟩
  have hshared := hpair.files
  have hbeside := hshared.beside hlies (hshared.left.enclosed.stays supply)
  have harchive : [Bundle.resultArchive] ∈ lookedAt supply :=
    archive_mem_lookedAt (by simp [archiveNames])
  have hlead := hbeside.resolve hlies.isOpen hlies.isOpen (fun _ => leadDown_of_mem_lookedAt) harchive
  have hmoves : Moves base b h.files h.files := hshared.moves (.refl _ _)
  rw [hpair.cwd, hpair.cwd', hbundle]
  obtain ⟨source, source', hopen, hopen', hsources⟩ | ⟨fault, hopen, hopen'⟩ | ⟨hslack, -⟩ :=
    hshared.twins.openRead hlead
  · rw [hopen, hopen']
    exact ⟨⟨hpair.calls, hpair.calls', hpair.cwd, hpair.cwd',
      .working hlies (.sending hw hshared hsources)⟩, hmoves⟩
  · rw [hopen, hopen']
    exact .giveUp hlies hpair hmoves hw _
  · exact hslack.elim

/-- **A piece** of the bundle is read on both hosts. -/
theorem goes_sending {w : Workspace} {source source' : Source} {offset : Nat} (size : Nat)
    (sent : Bytes) (hw : w.path = b.path)
    (hpair : Paired f b b (fun t t' => Shared base b t t' ∧
      SourcesAlike b.ws b.ws t t' source source') h h') :
    Goes f base b h.files
      (Build.pieceRead ⟨source, offset, w⟩ sent (Download.next ⟨source, offset, w⟩ size h), h)
      (Build.pieceRead ⟨source', offset, w⟩ sent (Download.next ⟨source', offset, w⟩ size h'), h') := by
  obtain ⟨hshared, hsources⟩ := hpair.files
  have hread := hsources.readAll hshared.left.sound hshared.right.sound
  have hmoves : Moves base b h.files h.files := hshared.moves (.refl _ _)
  have hclosing (outcome : Build.Outcome) :
      Goes f base b h.files (.closing w outcome, h) (.closing w outcome, h') :=
    ⟨hpair.imp fun _ _ _ => .working hlies (.closing hw), hmoves⟩
  unfold Download.next
  dsimp only
  rw [← hread]
  rcases h.files.readAll source with fault | data
  · exact hclosing (.broken fault)
  · dsimp only [bind, Except.bind]
    split
    · exact hclosing (.delivered sent)
    · exact ⟨hpair.imp fun _ _ h => .working hlies (.sending hw h.1 h.2), hmoves⟩

variable {p : Pipeline} (hkeeps : f.KeepsInside p base b)
include hkeeps

/-- **Tools** that keep inside do the same in workspaces that hold the same. -/
theorem keepsBeside_shared (supply : Role → Supply) :
    KeepsBeside f False p.tools supply b b (Shared base b) where
  beside t t' h := h.beside hlies (h.left.enclosed.stays supply)
  does t t' h s := by
    have hanswers := hkeeps.works.reads t t' _ h.left h.right
      (.inl ⟨.ofSupplies b.path supply, s, rfl⟩) h.twins
    rcases hd : f t b.cwd b.path _ _ with fault | d <;>
      rcases hd' : f t' b.cwd b.path _ _ with fault' | d' <;> rw [hd, hd'] at hanswers
    · cases hanswers
      simp only [DoAlike, hd, hd']
    · cases hanswers
    · cases hanswers
    · cases hanswers with
      | done hsaid hending _ => exact doAlike_of_same hd hd' hsaid hending
  goes_on t t' h s := by
    have hc : p.Calls b.path (Stage.commandFor p.tools b.path (.ofSupplies b.path supply) s) :=
      .inl ⟨.ofSupplies b.path supply, s, rfl⟩
    refine ⟨(h.left.leftBy hlies hkeeps hc _).1, (h.right.leftBy hlies hkeeps hc _).1, ?_⟩
    have hanswers := hkeeps.works.reads t t' _ h.left h.right hc h.twins
    unfold Berth.after Stage.leftBy
    rcases hd : f t b.cwd b.path _ _ with fault | d <;>
      rcases hd' : f t' b.cwd b.path _ _ with fault' | d' <;> rw [hd, hd'] at hanswers
    · exact h.twins
    · cases hanswers
    · cases hanswers
    · cases hanswers with
      | done _ _ htwins =>
        dsimp only [Deed.filesAfter]
        split
        · exact h.twins
        · exact htwins
  clear hslack := hslack.elim

/-- **Each step** of a build that is at work leads to the same on both hosts. -/
theorem Working.step (build : Build) {phase phase' : Phase}
    (hpair : Paired f b b (Working base b phase phase') h h') (hsound : h.files.IsSound)
    (hretains : base.Retains h.files) :
    Goes f base b h.files (build.step p phase h) (build.step p phase' h') := by
  have hfiles := hpair.files
  have hhosts {R : Tree → Tree → Prop} (hR : R h.files h'.files) : Paired f b b R h h' :=
    ⟨hpair.calls, hpair.calls', hpair.cwd, hpair.cwd', hR⟩
  cases hfiles with
  | storing hw hfresh hstores hcurrent =>
    rw [Build.step, Build.step]
    exact goes_stepStoring hlies _ hw hstores (hhosts ⟨hfresh, hcurrent⟩)
  | @running w supply stages _ _ hw hshared =>
    rcases stages with _ | ⟨s, stages⟩
    · rw [Build.step, Build.step, hw]
      exact ⟨hhosts (.working hlies (.packing hw hshared)), hshared.moves (.refl _ _)⟩
    · rw [Build.step, Build.step, hw]
      exact goes_settle hlies
        (couples_stage hlies.isOpen hlies.isOpen (keepsBeside_shared hlies hkeeps supply) s)
        (ensures_run_houses hlies hkeeps (.inl ⟨.ofSupplies b.path supply, s, rfl⟩) _)
        (hhosts hshared) hshared hw fun _ _ h _ _ => .running hw h
  | @packing w supply _ _ hw hshared =>
    rw [Build.step, Build.step, hw]
    exact goes_writeArchive hlies (by simp [archiveNames]) (artifacts_alike b b).1
      (hhosts hshared) hw fun _ _ h => .wrapping hw h
  | @wrapping w supply _ _ hw hshared =>
    rw [Build.step, Build.step, hw]
    exact goes_writeArchive hlies (by simp [archiveNames])
      (.cons (artifactsAlike_made b b (archive_mem_lookedAt (by simp [archiveNames])))
        (artifacts_alike b b).2)
      (hhosts hshared) hw fun _ _ h => .opening hw h
  | opening hw hshared =>
    rw [Build.step, Build.step]
    exact goes_opening hlies hw rfl (hhosts hshared)
  | sending hw hshared hsources =>
    rw [Build.step, Build.step]
    exact goes_sending hlies _ _ hw (hhosts ⟨hshared, hsources⟩)
  | closing hw =>
    rw [Build.step, Build.step]
    obtain ⟨hcalls, hcwd, -⟩ := drop_cases _ hpair.calls
    obtain ⟨hcalls', hcwd', -⟩ := drop_cases _ hpair.calls'
    exact ⟨⟨hcalls, hcalls', hcwd.trans hpair.cwd, hcwd'.trans hpair.cwd', .ended⟩,
      moves_drop hlies hw hpair.calls hpair.cwd hsound hretains⟩

end

end LangBundle
