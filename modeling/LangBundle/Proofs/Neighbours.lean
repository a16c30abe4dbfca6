import LangBundle.Proofs.SameInputs

/-!
# Neighbouring workspaces

What a build does below its own directory leaves alone what is below another one, as long as no file
has names in both.  So what holds of two trees in which the same workspace holds the same goes on to
hold while other builds are at work on one of them.

* `ChangedBelow`: a tree has changed below a directory only.
* `Enclosed`: nothing below a directory leads out of it.
* `Berth.Lies`: where a workspace is, as long as what was there at the beginning stays.
* `Shared`: two trees in which a workspace holds the same; `Fresh`: the same before any tool.
* `Shared.elsewhere`, `Fresh.elsewhere`: **changes elsewhere** do not matter.
* `Fresh.makeDirectories`: **the directory of the inputs** is made in both, or in none.
* `Fresh.openWrite`, `Fresh.writeAt`: **a file** is opened and written in both, or in none.
* `removeDirectoryTree_changedBelow`: **a removal** changes its own directory only.
-/

namespace LangBundle

open Files Files.Tree

namespace Files.Tree

/-! ## Changes below one directory -/

/-- A tree has changed below a directory only, and no file that is new there has a name elsewhere. -/
structure ChangedBelow (ws : Place) (t u : Tree) : Prop where
  off : ∀ q, IsReal q → ¬ ws <+: q → u.get? q = t.get? q
  linked : ∀ p q serial, IsReal p → IsReal q → ws <+: p → ¬ ws <+: q →
    u.serialAt? p = some serial → u.serialAt? q = some serial → t.serialAt? p = some serial

/-- Files below a directory have no names elsewhere. -/
def Sole (ws : Place) (t : Tree) : Prop :=
  ∀ p q serial, IsReal p → IsReal q → ws <+: p → t.serialAt? p = some serial →
    t.serialAt? q = some serial → ws <+: q

/-- There is no way for a build out of a directory: it is no link itself, no link in the place of what
the build looks at leads out of it, and no file below it has a second name elsewhere. -/
structure Enclosed (ws : Place) (t : Tree) : Prop where
  here : ∀ target, t.get? ws ≠ some (.link target)
  stays : ∀ supply, ∀ names ∈ lookedAt supply, StaysIn (t.view ws) names
  sole : Sole ws t

theorem ChangedBelow.refl (ws : Place) (t : Tree) : ChangedBelow ws t t :=
  ⟨fun _ _ _ => rfl, fun _ _ _ _ _ _ _ hp _ => hp⟩

theorem ChangedBelow.of_sole {ws : Place} {t u : Tree}
    (hoff : ∀ q, IsReal q → ¬ ws <+: q → u.get? q = t.get? q) (hsole : Sole ws u) :
    ChangedBelow ws t u :=
  ⟨hoff, fun p q serial hp hq hbelow hnot hps hqs =>
    absurd (hsole p q serial hp hq hbelow hps hqs) hnot⟩

/-- Without links nothing leads out. -/
theorem Unlinked.enclosed {ws : Place} {t : Tree} (hws : IsReal ws) (h : Unlinked ws t) :
    Enclosed ws t where
  here target hlink := by
    rcases h.plain ws _ hws List.prefix_rfl hlink with hdir | ⟨_, _, _, heq⟩
    · cases hdir
    · cases heq
  stays _ _ hnames := staysIn_of_unlinked h hws (leadDown_of_mem_lookedAt hnames).2
  sole p q serial hp hq hbelow hps hqs := by
    rwa [h.sole p q serial hp hq hbelow hps hqs]

/-- One change after another. -/
theorem ChangedBelow.trans {ws : Place} {t u v : Tree} (h : ChangedBelow ws t u)
    (h' : ChangedBelow ws u v) : ChangedBelow ws t v := by
  refine ⟨fun q hq hnot => (h'.off q hq hnot).trans (h.off q hq hnot), ?_⟩
  intro p q serial hp hq hbelow hnot hps hqs
  have hqs' : u.serialAt? q = some serial := by
    rwa [serialAt?, ← h'.off q hq hnot, ← serialAt?]
  exact h.linked p q serial hp hq hbelow hnot
    (h'.linked p q serial hp hq hbelow hnot hps hqs) hqs'

/-- Opening a file below the directory gives no file there a name elsewhere. -/
theorem Sole.opened {ws p : Place} {t u : Tree} {sink : Sink} (h : Sole ws t) (hsound : t.IsSound)
    (hp : ws <+: p) (hopen : t.Opened p sink u) : Sole ws u := by
  intro q r serial hq hr hbelow hqs hrs
  rcases hopen.serialAt? r with hrsame | ⟨rfl, -⟩
  · rcases hopen.serialAt? q with hqsame | ⟨-, hnew, -⟩
    · rw [hqsame] at hqs
      rw [hrsame] at hrs
      exact h q r serial hq hr hbelow hqs hrs
    · -- a new number is nobody else's
      rw [hnew] at hqs
      cases hqs
      rw [hrsame] at hrs
      exact absurd (hsound.serialAt?_lt hrs) (Nat.lt_irrefl _)
  · exact hp

theorem Sole.writeAt {ws : Place} {t u : Tree} {sink : Sink} {offset : Nat} {new : Bytes}
    (h : Sole ws t) (hwrite : t.writeAt sink offset new = .ok u) : Sole ws u := by
  intro p q serial hp hq hbelow hps hqs
  rw [serialAt?_writeAt hwrite] at hps hqs
  exact h p q serial hp hq hbelow hps hqs

/-- Changes of files keep a directory enclosed. -/
theorem Enclosed.of_sameShape {ws : Place} {t u : Tree} (h : Enclosed ws t) (hshape : t.SameShape u)
    (hsole : Sole ws u) : Enclosed ws u where
  here target hlink := h.here target (hshape.symm.link hlink)
  stays supply names hnames := (h.stays supply names hnames).of_sameShape hshape
  sole := hsole

theorem SinksAlike.symm {ws ws' : Place} {t t' : Tree} {sink sink' : Sink}
    (h : SinksAlike ws ws' t t' sink sink') : SinksAlike ws' ws t' t sink' sink := by
  cases h with
  | file hq hat hat' => exact .file hq hat' hat
  | device kind => exact .device kind
  | pipe serial serial' => exact .pipe serial' serial

/-- Open files stay alike as long as the files below the directories keep their numbers. -/
theorem SinksAlike.of_serials {ws ws' : Place} {t t' u u' : Tree} {sink sink' : Sink}
    (h : SinksAlike ws ws' t t' sink sink')
    (hserial : ∀ q, IsReal q → u.serialAt? (ws ++ q) = t.serialAt? (ws ++ q))
    (hserial' : ∀ q, IsReal q → u'.serialAt? (ws' ++ q) = t'.serialAt? (ws' ++ q)) :
    SinksAlike ws ws' u u' sink sink' := by
  cases h with
  | file hq hat hat' => exact .file hq ((hserial _ hq).trans hat) ((hserial' _ hq).trans hat')
  | device kind => exact .device kind
  | pipe serial serial' => exact .pipe serial serial'

/-- **A removal** changes its own directory only. -/
theorem removeDirectoryTree_changedBelow {t : Tree} {cwd ws : Place} {path : String}
    (hleads : t.resolve cwd path false = .ok ws) (hroot : ws ≠ []) :
    ChangedBelow ws t (t.removeDirectoryTree cwd path).2 := by
  refine ⟨fun q _ hnot => removeDirectoryTree_off hleads hroot hnot, ?_⟩
  intro p q serial hp _ _ _ hps _
  -- nothing is added, so the file had its name before
  rw [serialAt?, Option.bind_eq_some_iff] at hps
  obtain ⟨n, hn, hserial⟩ := hps
  rw [serialAt?, retains_removeDirectoryTree t cwd path p n hp hn]
  exact hserial

theorem isSound_removeDirectoryTree {t : Tree} {cwd ws : Place} {path : String} (h : t.IsSound)
    (hcwd : IsReal cwd) (hleads : t.resolve cwd path false = .ok ws) (hroot : ws ≠ []) :
    (t.removeDirectoryTree cwd path).2.IsSound := by
  have hws := isReal_of_resolve hcwd hleads
  rw [removeDirectoryTree, hleads]
  dsimp only
  split
  · exact h
  · split
    · exact h.erase hroot
    · exact h
  · next mode hdir =>
    split
    · exact h
    split
    · exact h.erase hroot
    -- what could not be removed is put back empty
    · obtain ⟨above, name, mode', rfl, habove⟩ := h.hasAbove hws hroot (by simp [hdir])
      refine (h.erase hroot).insert (n := .directory mode) hws ?_ ⟨above, name, mode', rfl, ?_⟩
        (Nat.le_refl _) fun _ hserial => by cases hserial
      · rw [get?_erase t hroot, if_pos List.prefix_rfl]
      · rw [get?_erase t hroot, if_neg, habove]
        intro hbelow
        have hlength := hbelow.length_le
        rw [List.length_append, List.length_singleton] at hlength
        omega
  · exact h

section
variable {ws ws' q : Place} {base t t' u : Tree} (hchanged : ChangedBelow ws' t u)
include hchanged

/-- What was there at the beginning stays, if nothing was there where the changes are. -/
theorem ChangedBelow.retains (hnew : ∀ q, IsReal q → ws' <+: q → base.get? q = none)
    (h : base.Retains t) : base.Retains u := by
  intro q n hq hn
  have hnot : ¬ ws' <+: q := by
    intro hbelow
    rw [hnew q hq hbelow] at hn
    cases hn
  rw [hchanged.off q hq hnot]
  exact h q n hq hn

variable (hapart : ∀ q, ws <+: q → ¬ ws' <+: q)
include hapart

theorem ChangedBelow.get?_eq (hq : IsReal q) (hbelow : ws <+: q) : u.get? q = t.get? q :=
  hchanged.off q hq (hapart q hbelow)

/-- Two names of one file, of which one is elsewhere, were its names before. -/
theorem ChangedBelow.names {p : Place} {serial : Nat} (hp : IsReal p) (hq : IsReal q)
    (hbelow : ws <+: p) (hps : u.serialAt? p = some serial) (hqs : u.serialAt? q = some serial) :
    t.serialAt? p = some serial ∧ t.serialAt? q = some serial := by
  have hnot := hapart p hbelow
  have hps' : t.serialAt? p = some serial := by
    rwa [serialAt?, ← hchanged.off p hp hnot, ← serialAt?]
  refine ⟨hps', ?_⟩
  by_cases hother : ws' <+: q
  · exact hchanged.linked q p serial hq hp hother hnot hqs hps
  · rwa [serialAt?, ← hchanged.off q hq hother, ← serialAt?]

theorem ChangedBelow.sole (h : Sole ws t) : Sole ws u := by
  intro p q serial hp hq hbelow hps hqs
  obtain ⟨hps', hqs'⟩ := hchanged.names hapart hp hq hbelow hps hqs
  exact h p q serial hp hq hbelow hps' hqs'

theorem ChangedBelow.unlinked (h : Unlinked ws t) : Unlinked ws u where
  plain p n hp hbelow hn := by
    rw [hchanged.get?_eq hapart hp hbelow] at hn
    exact h.plain p n hp hbelow hn
  sole p q serial hp hq hbelow hps hqs := by
    obtain ⟨hps', hqs'⟩ := hchanged.names hapart hp hq hbelow hps hqs
    exact h.sole p q serial hp hq hbelow hps' hqs'

variable (hws : IsReal ws)
include hws

theorem ChangedBelow.view_eq : u.view ws = t.view ws :=
  view_eq_iff.2 fun r hr => by
    rw [hchanged.get?_eq hapart (hws.append hr) (List.prefix_append ws r)]

theorem ChangedBelow.enclosed (h : Enclosed ws t) : Enclosed ws u where
  here target := by
    rw [hchanged.get?_eq hapart hws List.prefix_rfl]
    exact h.here target
  stays supply names hnames := by
    rw [hchanged.view_eq hapart hws]
    exact h.stays supply names hnames
  sole := hchanged.sole hapart h.sole

theorem ChangedBelow.serialAt?_eq (hq : IsReal q) : u.serialAt? (ws ++ q) = t.serialAt? (ws ++ q) := by
  rw [serialAt?, hchanged.get?_eq hapart (hws.append hq) (List.prefix_append ws q), ← serialAt?]

theorem ChangedBelow.twins (h : Twins ws ws t t') : Twins ws ws u t' where
  view := (hchanged.view_eq hapart hws).trans h.view
  names p q hp hq := by
    rw [hchanged.serialAt?_eq hapart hws hp, hchanged.serialAt?_eq hapart hws hq]
    exact h.names p q hp hq

end

end Files.Tree

/-! ## Where a workspace is -/

/-- Nothing was where a build works, and its path leads there as long as all that was there at the
beginning stays. -/
structure Berth.Lies (base : Tree) (b : Berth) : Prop where
  sound : base.IsSound
  cwd : IsReal b.cwd
  isOpen : Path.IsOpen b.path
  real : IsReal b.ws
  new : base.get? b.ws = none
  leads : ∀ t, base.Retains t → t.resolve b.cwd b.path false = .ok b.ws
  reaches : ∃ left, ∀ t, base.Retains t → (∀ target, t.get? b.ws ≠ some (.link target)) →
    t.Reaches b.cwd b.path b.ws left

/-- A tree has all that was there at the beginning, and nothing leads out of the workspace. -/
structure Lodges (base : Tree) (b : Berth) (t : Tree) : Prop where
  sound : t.IsSound
  retains : base.Retains t
  enclosed : Enclosed b.ws t

/-- The workspace holds the same in two trees. -/
structure Shared (base : Tree) (b : Berth) (t t' : Tree) : Prop where
  left : Lodges base b t
  right : Lodges base b t'
  twins : Twins b.ws b.ws t t'

/-- A tree as it is before any tool is called: there are no links in the workspace. -/
structure Bare (base : Tree) (b : Berth) (t : Tree) : Prop where
  sound : t.IsSound
  retains : base.Retains t
  unlinked : Unlinked b.ws t
  directory : t.get? b.ws = some (.directory Workspace.mode)

/-- The workspace holds the same in two trees, and no tool has been called. -/
structure Fresh (base : Tree) (b : Berth) (t t' : Tree) : Prop where
  left : Bare base b t
  right : Bare base b t'
  view : t.view b.ws = t'.view b.ws

section
variable {base : Tree} {b : Berth} (hlies : b.Lies base)
include hlies

theorem Berth.Lies.ne_nil : b.ws ≠ [] :=
  ne_nil_of_get?_eq_none hlies.new

/-- Nothing was there. -/
theorem Berth.Lies.nothing {q : Place} (hq : IsReal q) (hbelow : b.ws <+: q) :
    base.get? q = none :=
  hlies.sound.nothing_below hq hbelow hlies.new

theorem Bare.lodges {t : Tree} (h : Bare base b t) : Lodges base b t :=
  ⟨h.sound, h.retains, h.unlinked.enclosed hlies.real⟩

theorem Fresh.shared {t t' : Tree} (h : Fresh base b t t') : Shared base b t t' where
  left := h.left.lodges hlies
  right := h.right.lodges hlies
  twins := twins_of_unlinked hlies.real hlies.real h.left.unlinked h.right.unlinked h.view

/-- **The same names** come to the same in both trees. -/
theorem Shared.beside {t t' : Tree} (h : Shared base b t t') {names : List (List String)}
    (hstays : ∀ n ∈ names, StaysIn (t.view b.ws) n) : Beside False b b names t t' := by
  obtain ⟨left, hreaches⟩ := hlies.reaches
  exact ⟨h.twins, h.left.sound, h.right.sound,
    ⟨left, left, hreaches t h.left.retains h.left.enclosed.here,
      hreaches t' h.right.retains h.right.enclosed.here, .inr ⟨rfl, rfl⟩⟩,
    hstays⟩

/-! ## Changes elsewhere -/

section
variable {ws' : Place} {t t' u : Tree} (hchanged : ChangedBelow ws' t u)
  (hapart : ∀ q, b.ws <+: q → ¬ ws' <+: q) (hsound : u.IsSound) (hretains : base.Retains u)
include hchanged hapart hsound hretains

theorem Lodges.elsewhere (h : Lodges base b t) : Lodges base b u :=
  ⟨hsound, hretains, hchanged.enclosed hapart hlies.real h.enclosed⟩

/-- **Changes elsewhere** leave the workspace as it is. -/
theorem Shared.elsewhere (h : Shared base b t t') : Shared base b u t' where
  left := h.left.elsewhere hlies hchanged hapart hsound hretains
  right := h.right
  twins := hchanged.twins hapart hlies.real h.twins

/-- **Changes elsewhere** before any tool is called. -/
theorem Fresh.elsewhere (h : Fresh base b t t') : Fresh base b u t' where
  left := by
    refine ⟨hsound, hretains, hchanged.unlinked hapart h.left.unlinked, ?_⟩
    rw [hchanged.get?_eq hapart hlies.real List.prefix_rfl, h.left.directory]
  right := h.right
  view := (hchanged.view_eq hapart hlies.real).trans h.view

end

/-! ## Changes in the workspace -/

/-- What is changed in the workspace leaves what was there at the beginning. -/
theorem Berth.Lies.retains {t u : Tree} (h : base.Retains t) (hchanged : ChangedBelow b.ws t u) :
    base.Retains u :=
  hchanged.retains (fun _ hq => hlies.nothing hq) h

/-- A tree that a build comes to by changes in its workspace. -/
theorem Lodges.changed {t u : Tree} (h : base.Retains t) (hsound : u.IsSound)
    (hoff : ∀ q, IsReal q → ¬ b.ws <+: q → u.get? q = t.get? q) (henclosed : Enclosed b.ws u) :
    Lodges base b u ∧ ChangedBelow b.ws t u := by
  have hchanged := ChangedBelow.of_sole hoff henclosed.sole
  exact ⟨⟨hsound, hlies.retains h hchanged, henclosed⟩, hchanged⟩

/-- A tree that a build comes to so before any tool is called. -/
theorem Bare.changed {t u : Tree} (h : base.Retains t) (hsound : u.IsSound)
    (hoff : ∀ q, IsReal q → ¬ b.ws <+: q → u.get? q = t.get? q) (hunlinked : Unlinked b.ws u)
    (hdirectory : u.get? b.ws = some (.directory Workspace.mode)) :
    Bare base b u ∧ ChangedBelow b.ws t u := by
  obtain ⟨hlodges, hchanged⟩ := Lodges.changed hlies h hsound hoff (hunlinked.enclosed hlies.real)
  exact ⟨⟨hsound, hlodges.retains, hunlinked, hdirectory⟩, hchanged⟩

/-- A directory is put into the workspace. -/
theorem Bare.put {t : Tree} (h : Bare base b t) {name : String} (hname : Path.IsPlain name)
    (hnone : t.get? (b.ws ++ [name]) = none) :
    Bare base b (t.put (b.ws ++ [name]) (.directory directoryMode)) ∧
      ChangedBelow b.ws t (t.put (b.ws ++ [name]) (.directory directoryMode)) := by
  have hsound : (t.put (b.ws ++ [name]) (.directory directoryMode)).IsSound :=
    h.sound.insert (n := .directory directoryMode) (hlies.real.snoc hname.noSlash) hnone
      ⟨b.ws, name, _, rfl, h.directory⟩ (Nat.le_refl _) fun _ hserial => by cases hserial
  have hunlinked : Unlinked b.ws (t.put (b.ws ++ [name]) (.directory directoryMode)) :=
    h.unlinked.insert (n := .directory directoryMode) h.sound (by simp) (.inl rfl)
  refine Bare.changed hlies h.retains hsound (fun q _ hnot => get?_put_of_ne t _ ?_) hunlinked ?_
  · rintro rfl
    exact hnot (List.prefix_append b.ws [name])
  · rw [get?_put_of_ne t _ (by simp), h.directory]

/-- **The directory of the inputs** is made in both trees, or in none. -/
theorem Fresh.makeDirectories {t t' : Tree} (h : Fresh base b t t') :
    ∃ r u u', t.makeDirectories b.cwd (Path.join b.path inputsDirectory) = (r, u) ∧
      t'.makeDirectories b.cwd (Path.join b.path inputsDirectory) = (r, u') ∧
      Fresh base b u u' ∧ ChangedBelow b.ws t u := by
  obtain ⟨hplain, hup⟩ := isPlain_inputsDirectory
  have hreal : IsReal (b.ws ++ [inputsDirectory]) := hlies.real.snoc hplain.noSlash
  have hmake {t : Tree} (h : Bare base b t) := makeDirectories_join_eq hplain hup (by decide)
    (hlies.leads t h.retains) h.directory (by decide) fun target hlink => by
      rcases h.unlinked.plain _ _ hreal (List.prefix_append _ _) hlink with hdir | ⟨_, _, _, heq⟩
      · cases hdir
      · cases heq
  rw [hmake h.left, hmake h.right]
  have hsame (r : Except Fault Unit) : ∃ r₁ u u', (r, t) = (r₁, u) ∧ (r, t') = (r₁, u') ∧
      Fresh base b u u' ∧ ChangedBelow b.ws t u :=
    ⟨r, t, t', rfl, rfl, h, .refl _ _⟩
  by_cases hnul : (Path.join b.path inputsDirectory).toList.contains '\x00' = true
  · rw [if_pos hnul, if_pos hnul]
    exact hsame _
  rw [if_neg hnul, if_neg hnul]
  generalize pathFault? (Path.normal (Path.join b.path inputsDirectory)) = fault?
  have hbare := view_eq_iff.1 h.view [inputsDirectory] (isReal_nil.snoc hplain.noSlash)
  have habove : t.requireAbove (b.ws ++ [inputsDirectory]) =
      t'.requireAbove (b.ws ++ [inputsDirectory]) := by
    rw [requireAbove, requireAbove, List.dropLast_concat, h.left.directory, h.right.directory]
  rw [habove]
  rcases fault? with _ | fault
  swap
  · exact hsame _
  rcases hn : t.get? (b.ws ++ [inputsDirectory]) with _ | n <;>
    rcases hn' : t'.get? (b.ws ++ [inputsDirectory]) with _ | n' <;>
    rw [hn, hn'] at hbare
  · rcases t'.requireAbove (b.ws ++ [inputsDirectory]) with fault | _
    · exact hsame _
    -- the directory is made in both
    obtain ⟨hleft, hchanged⟩ := h.left.put hlies hplain hn
    obtain ⟨hright, -⟩ := h.right.put hlies hplain hn'
    refine ⟨_, _, _, rfl, rfl, ⟨hleft, hright, view_eq_iff.2 fun r hr => ?_⟩, hchanged⟩
    by_cases hself : r = [inputsDirectory]
    · subst hself
      rw [get?_put_self t _ (by simp), get?_put_self t' _ (by simp)]
    · rw [get?_put_of_ne t _ (by simpa using hself), get?_put_of_ne t' _ (by simpa using hself)]
      exact view_eq_iff.1 h.view r hr
  · cases hbare
  · cases hbare
  · have hdirectory : n.isDirectory = n'.isDirectory := by
      cases nodesAlike_of_bare (Option.some.inj hbare) <;> rfl
    dsimp only
    rw [hdirectory]
    exact hsame _

/-! ## Opening and writing -/

/-- A path that goes on behind that of the workspace leads below it. -/
theorem Lodges.place {t : Tree} (h : Lodges base b t) {names : List String}
    (hnames : Path.LeadDown names) (hstays : StaysIn (t.view b.ws) names) {p : Place}
    (hp : t.resolve b.cwd (Path.below b.path names) = .ok p) : IsReal p ∧ b.ws <+: p := by
  refine ⟨isReal_of_resolve hlies.cwd hp, ?_⟩
  obtain ⟨left, hreaches⟩ := hlies.reaches
  obtain ⟨res, -, -, heq⟩ := resolve_within (hreaches t h.retains h.enclosed.here)
    (hnames.continues hlies.isOpen) hstays
  rw [heq] at hp
  split at hp
  · cases hp
  split at hp
  · cases hp
  · rcases res with fault | q
    · cases hp
    · obtain rfl := Except.ok.inj hp
      exact List.prefix_append b.ws q

/-- What such a path leads to has no names elsewhere. -/
theorem Lodges.leadsInside {t : Tree} (h : Lodges base b t) {names : List String}
    (hnames : Path.LeadDown names) (hstays : StaysIn (t.view b.ws) names) :
    LeadsInside b.ws t b.cwd (Path.below b.path names) := by
  intro p q hp hq halias
  obtain ⟨hreal, hbelow⟩ := h.place hlies hnames hstays hp
  obtain rfl | ⟨serial, hps, hqs⟩ := halias
  · exact hbelow
  · exact h.enclosed.sole p q serial hreal hq hbelow hps hqs

/-- **Opening** a file in the workspace. -/
theorem Lodges.opened {t u : Tree} (h : Lodges base b t) {names : List String}
    (hnames : Path.LeadDown names) (hstays : StaysIn (t.view b.ws) names) {sink : Sink}
    (hopen : t.openWrite b.cwd (Path.below b.path names) = .ok (sink, u)) :
    (Lodges base b u ∧ ChangedBelow b.ws t u) ∧ StaysInside b.ws u sink ∧ t.SameShape u ∧
      (Unlinked b.ws t → Unlinked b.ws u) := by
  obtain ⟨p, hp, hopened⟩ := openWrite_eq_ok hopen
  obtain ⟨-, hbelow⟩ := h.place hlies hnames hstays hp
  have hinside := h.leadsInside hlies hnames hstays
  have hsole := h.enclosed.sole.opened h.sound hbelow hopened
  refine ⟨Lodges.changed hlies h.retains (hopened.isSound h.sound hlies.cwd hp) ?_
    (h.enclosed.of_sameShape hopened.sameShape hsole), .opened h.sound hp hopened hinside,
    hopened.sameShape, fun hunlinked => hunlinked.opened h.sound hopened⟩
  intro q hq hnot
  exact hopened.get?_of_not_aliases fun halias => hnot (hinside p q hp hq halias)

/-- **Writing** to an open file in the workspace. -/
theorem Lodges.written {t u : Tree} (h : Lodges base b t) {sink : Sink} {offset : Nat} {new : Bytes}
    (hinside : StaysInside b.ws t sink) (hwrite : t.writeAt sink offset new = .ok u) :
    Lodges base b u ∧ ChangedBelow b.ws t u := by
  refine Lodges.changed hlies h.retains (writeAt_isSound hwrite h.sound) ?_
    (h.enclosed.of_sameShape (writeAt_sameShape hwrite) (h.enclosed.sole.writeAt hwrite))
  intro q hq hnot
  exact get?_writeAt hwrite fun serial hsink hserial => hnot (hinside serial q hsink hq hserial)

/-- **Opening** a file before any tool is called. -/
theorem Bare.opened {t u : Tree} (h : Bare base b t) {names : List String}
    (hnames : Path.LeadDown names) {sink : Sink}
    (hopen : t.openWrite b.cwd (Path.below b.path names) = .ok (sink, u)) :
    Bare base b u ∧ ChangedBelow b.ws t u := by
  have hstays := staysIn_of_unlinked h.unlinked hlies.real hnames.2
  obtain ⟨⟨hlodges, hchanged⟩, -, hshape, hunlinked⟩ :=
    (h.lodges hlies).opened hlies hnames hstays hopen
  exact ⟨⟨hlodges.sound, hlodges.retains, hunlinked h.unlinked, hshape.directory h.directory⟩,
    hchanged⟩

/-- **Writing** before any tool is called. -/
theorem Bare.written {t u : Tree} (h : Bare base b t) {sink : Sink} {offset : Nat} {new : Bytes}
    (hinside : StaysInside b.ws t sink) (hwrite : t.writeAt sink offset new = .ok u) :
    Bare base b u ∧ ChangedBelow b.ws t u := by
  obtain ⟨hlodges, hchanged⟩ := (h.lodges hlies).written hlies hinside hwrite
  exact ⟨⟨hlodges.sound, hlodges.retains, h.unlinked.writeAt hwrite,
    (writeAt_sameShape hwrite).directory h.directory⟩, hchanged⟩

/-- An open file that has a name in the workspace has none elsewhere. -/
theorem Lodges.staysInside {t t' : Tree} (h : Lodges base b t) {sink sink' : Sink}
    (hsinks : SinksAlike b.ws b.ws t t' sink sink') : StaysInside b.ws t sink := by
  intro serial q hsink hq hserial
  cases hsinks with
  | file hp hat _ =>
    cases hsink
    exact h.enclosed.sole _ q serial (hlies.real.append hp) hq (List.prefix_append _ _) hat hserial
  | device => cases hsink
  | pipe => cases hsink

/-- **The same file** is opened in both trees, or in none. -/
theorem Fresh.openWrite {t t' : Tree} (h : Fresh base b t t') {names : List String}
    (hnames : Path.LeadDown names) :
    (∃ sink sink' u u', t.openWrite b.cwd (Path.below b.path names) = .ok (sink, u) ∧
      t'.openWrite b.cwd (Path.below b.path names) = .ok (sink', u') ∧ Fresh base b u u' ∧
      SinksAlike b.ws b.ws u u' sink sink' ∧ ChangedBelow b.ws t u) ∨
    ∃ fault, t.openWrite b.cwd (Path.below b.path names) = .error fault ∧
      t'.openWrite b.cwd (Path.below b.path names) = .error fault := by
  have hbeside : Beside False b b [names] t t' :=
    (h.shared hlies).beside hlies fun n hn =>
      List.mem_singleton.1 hn ▸ staysIn_of_unlinked h.left.unlinked hlies.real hnames.2
  have hleads := hbeside.resolve hlies.isOpen hlies.isOpen
    (fun n hn => List.mem_singleton.1 hn ▸ hnames) (List.mem_singleton_self names)
  obtain ⟨⟨sink, u⟩, ⟨sink', u'⟩, hx, hy, htwins, hsinks⟩ | ⟨fault, hx, hy⟩ | ⟨hslack, -⟩ :=
    hbeside.twins.openWrite hleads h.left.sound h.right.sound hnames.isOpen hnames.isOpen
  · obtain ⟨hleft, hchanged⟩ := h.left.opened hlies hnames hx
    obtain ⟨hright, -⟩ := h.right.opened hlies hnames hy
    exact .inl ⟨sink, sink', u, u', hx, hy, ⟨hleft, hright, htwins.view⟩, hsinks, hchanged⟩
  · exact .inr ⟨fault, hx, hy⟩
  · exact hslack.elim

/-- **The same bytes** are written in both trees, or in none. -/
theorem Fresh.writeAt {t t' : Tree} (h : Fresh base b t t') {sink sink' : Sink}
    (hsinks : SinksAlike b.ws b.ws t t' sink sink') (offset : Nat) (new : Bytes) :
    (∃ u u', t.writeAt sink offset new = .ok u ∧ t'.writeAt sink' offset new = .ok u' ∧
      Fresh base b u u' ∧ SinksAlike b.ws b.ws u u' sink sink' ∧ ChangedBelow b.ws t u) ∨
    ∃ fault, t.writeAt sink offset new = .error fault ∧
      t'.writeAt sink' offset new = .error fault := by
  have hshared := h.shared hlies
  have hwritten : EndAlike False _ _ _ := hshared.twins.writeAt hsinks offset new
  obtain ⟨u, u', hx, hy, htwins⟩ | ⟨fault, hx, hy⟩ | ⟨hslack, -⟩ := hwritten
  · obtain ⟨hleft, hchanged⟩ := h.left.written hlies (hshared.left.staysInside hlies hsinks) hx
    obtain ⟨hright, -⟩ := h.right.written hlies (hshared.right.staysInside hlies hsinks.symm) hy
    exact .inl ⟨u, u', hx, hy, ⟨hleft, hright, htwins.view⟩,
      hsinks.of_serials (fun _ _ => serialAt?_writeAt hx _) fun _ _ => serialAt?_writeAt hy _,
      hchanged⟩
  · exact .inr ⟨fault, hx, hy⟩
  · exact hslack.elim

end

end LangBundle
