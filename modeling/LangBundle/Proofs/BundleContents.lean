import LangBundle.Proofs.WritingTools

/-!
# What a bundle holds

A build whose tools keep to regular files below the workspace either fails, or gives the path of an
archive that reads back as what the stages left.

* `ToolFunction.KeepsTidy`: the tools make no links.
* `tidy_leftByAll`: **the stages** leave the workspace tidy.
* `build_isBundle`: **a build** gives a bundle of what they left, or fails.
-/

namespace LangBundle

open Files Files.Tree
open Stage (leftBy commandFor)

/-- The tools make, change and remove directories and regular files of the workspace, but no
links. -/
def ToolFunction.KeepsTidy (f : ToolFunction) (p : Pipeline) (h : Host) : Prop :=
  ∀ ws t c, h.files.Site h.cwd (p.nextWorkspace h) ws → p.Calls (p.nextWorkspace h) c →
    Tidy ws h.files t →
    Tidy ws h.files (leftBy f h.cwd (p.nextWorkspace h) p.tools.stageTimeout c t)

/-- The tools leave the inputs alone. -/
def ToolFunction.SparesInputs (f : ToolFunction) (p : Pipeline) (h : Host) : Prop :=
  ∀ ws t c q, h.files.Site h.cwd (p.nextWorkspace h) ws → p.Calls (p.nextWorkspace h) c →
    Tidy ws h.files t → IsReal q → ws ++ [inputsDirectory] <+: q →
    (leftBy f h.cwd (p.nextWorkspace h) p.tools.stageTimeout c t).get? q = t.get? q

section
variable {p : Pipeline} {f : ToolFunction} {h : Host} {ws : Place} {t : Tree}
  (hsite : h.files.Site h.cwd (p.nextWorkspace h) ws) (hkeeps : f.KeepsTidy p h)
  (htidy : Tidy ws h.files t) (inputs : Inputs)
include hsite hkeeps htidy

/-- **The stages** leave the workspace tidy. -/
theorem tidy_leftByAll :
    Tidy ws h.files (Stage.leftByAll f h.cwd (p.nextWorkspace h) p.tools.stageTimeout
      (commandFor p.tools (p.nextWorkspace h) inputs) t) := by
  have hcalls (s : Stage) : p.Calls (p.nextWorkspace h)
      (commandFor p.tools (p.nextWorkspace h) inputs s) := .inl ⟨inputs, s, rfl⟩
  have hgrammar := hkeeps ws _ _ hsite (hcalls .grammar) htidy
  have hlexer := hkeeps ws _ _ hsite (hcalls .lexer) hgrammar
  exact hkeeps ws _ _ hsite (hcalls .link) hlexer

/-- The stages leave the inputs as they are if the tools do. -/
theorem get?_leftByAll (hspares : f.SparesInputs p h) {q : Place} (hq : IsReal q)
    (hbelow : ws ++ [inputsDirectory] <+: q) :
    (Stage.leftByAll f h.cwd (p.nextWorkspace h) p.tools.stageTimeout
      (commandFor p.tools (p.nextWorkspace h) inputs) t).get? q = t.get? q := by
  have hcalls (s : Stage) : p.Calls (p.nextWorkspace h)
      (commandFor p.tools (p.nextWorkspace h) inputs s) := .inl ⟨inputs, s, rfl⟩
  have hgrammar := hkeeps ws _ _ hsite (hcalls .grammar) htidy
  have hlexer := hkeeps ws _ _ hsite (hcalls .lexer) hgrammar
  exact (hspares ws _ _ q hsite (hcalls .link) hlexer hq hbelow).trans
    ((hspares ws _ _ q hsite (hcalls .lexer) hgrammar hq hbelow).trans
      (hspares ws _ _ q hsite (hcalls .grammar) htidy hq hbelow))

end

/-- **A build** of five uploads fails, or gives the path of an archive of what the stages left,
whatever was at the paths of the archives.  If the tools leave the inputs alone, the interpreter, the
documentation and the example in it are what was uploaded. -/
theorem build_isBundle {p : Pipeline} {f : ToolFunction} {h h₀ h₁ : Host} {w : Workspace}
    {supply : Role → Supply} {order : List Role} {i : Intake} {inputs : Inputs}
    (hcalls : h.CallsOnly f) (hsound : h.files.IsSound) (hcwd : IsReal h.cwd)
    (hkeeps : f.KeepsTidy p h) (hacquire : p.acquireWorkspace h = .ok w h₀)
    (horder : order.Perm Role.all)
    (htake : Intake.takeAll supply order ({ workspace := w.path }, h₀) = .ok () (i, h₁))
    (hfinish : i.finish = .ok inputs) :
    let a := Stage.artifacts w.path inputs
    let left := Stage.leftByAll f h.cwd w.path p.tools.stageTimeout
      (commandFor p.tools w.path inputs) h₁.files
    (∃ e h₂, p.build w.path inputs h₁ = .error e h₂) ∨
    ∃ h₂ bytes c, p.build w.path inputs h₁ = .ok (Path.join w.path Bundle.resultArchive) h₂ ∧
      h₂.files.Shows h.cwd (Path.join w.path Bundle.resultArchive) bytes ∧
      Bundle.IsBundle a w.path c bytes ∧ c.AreOf left h.cwd a ∧
      (f.SparesInputs p h → c.interpreter = (supply .interpreter).data ∧
        c.documentation = (supply .documentation).data ∧ c.sample = (supply .example).data) := by
  intro a left
  rw [Intake.finish_of_takeAll horder htake] at hfinish
  cases hfinish
  obtain ⟨⟨hw, -⟩, -⟩ := acquireWorkspace_eq_ok hcalls hsound hcwd hacquire
  obtain ⟨hopen, ws, hsite, hstocks⟩ :=
    stocks_of_takeAll hcalls hsound hcwd hacquire horder htake
  have htidy : Tidy ws h.files h₁.files := hstocks.prepared.tidy
  have hleft : Tidy ws h.files left := by
    have hleft := tidy_leftByAll (hw ▸ hsite) hkeeps htidy (.ofSupplies w.path supply)
    rwa [← hw] at hleft
  rcases hbuild : p.build w.path (.ofSupplies w.path supply) h₁ with ⟨bundle, h₂⟩ | ⟨e, h₂⟩
  · right
    obtain ⟨a', h', hrun, hassemble⟩ := Service.bind_eq_ok hbuild
    obtain ⟨rfl, hcwd', hfiles⟩ := Stage.runAll_eq_ok hstocks.works.calls hrun
    have hcwd₁ : h₁.cwd = h.cwd := hstocks.works.cwd
    rw [hcwd₁] at hcwd' hfiles
    have htidy' : Tidy ws h.files h'.files := hfiles ▸ hleft
    obtain ⟨rfl, bytes, c, hshows, hbundle, hcontents⟩ :=
      isBundle_of_assemble hsite hopen htidy' hcwd' supply hassemble
    have hcontents : c.AreOf left h.cwd a := by rwa [hfiles] at hcontents
    refine ⟨h₂, bytes, c, rfl, hshows, hbundle, hcontents, fun hspares => ?_⟩
    have hstored (role : Role) {stored : Artifact} {data : Bytes}
        (hpath : stored.path = ((supply role).input w.path role).path)
        (hdata : left.Shows h.cwd stored.path data) : data = (supply role).data := by
      rw [hpath] at hdata
      have hreal : IsReal (ws ++ storedNames supply role) :=
        hsite.isReal.append (isReal_storedNames role)
      have hbelow : ws ++ [inputsDirectory] <+: ws ++ storedNames supply role :=
        ⟨[_], by rw [List.append_assoc]; rfl⟩
      have hkept := get?_leftByAll (hw ▸ hsite) hkeeps htidy (.ofSupplies w.path supply) hspares
        hreal hbelow
      rw [← hw] at hkept
      obtain ⟨serial, hfile⟩ := hstocks.stocked.file role _ rfl
      obtain ⟨serial', mode, hstat⟩ := hdata
      obtain ⟨q, hq, hn⟩ := stat_eq_ok_iff.1 hstat
      obtain rfl := hleft.resolve_continues hsite (continues_stored hopen role) hq
      rw [hkept, hfile] at hn
      cases hn
      rfl
    refine ⟨hstored .interpreter ?_ hcontents.interpreter,
      hstored .documentation ?_ hcontents.documentation, hstored .example ?_ hcontents.sample⟩
    all_goals simp only [a, Stage.artifacts, Artifact.ofInput, Inputs.ofSupplies]
  · exact .inl ⟨e, h₂, rfl⟩

/-- Files for the paths of the archives, too. -/
def staleFiles : List (String × Bytes) :=
  (Bundle.sourcesArchive, [1]) :: (Bundle.resultArchive, [2]) :: usualOutputs "interpreter"

/-- A tool that leaves files at the paths of the archives. -/
def staleTool : ToolFunction :=
  writer fun _ => staleFiles

def staleHost : Host :=
  ({ files := precious } : Host).withTools staleTool

/-- The same two pieces for each role. -/
def twoPieces (_ : Role) : Supply :=
  ⟨none, [[3], [4]]⟩

/-- The path of the first workspace. -/
def firstPath : String :=
  "/idiogen-00000000-0000-4000-8000-000000000000"

theorem site_staleHost : staleHost.files.Site staleHost.cwd firstPath firstPlace := by
  refine ⟨isSound_precious, isReal_nil, ?_, rfl, rfl⟩
  decide +kernel

theorem hasRoom_firstPath : Path.HasRoom firstPath 30 :=
  ⟨⟨by decide +kernel, by decide +kernel⟩, by decide +kernel, by decide +kernel⟩

theorem suitsBuild_staleFiles : SuitsBuild firstPath twoPieces staleFiles where
  nodup := by decide +kernel
  takes file hfile := by
    simp only [staleFiles, usualOutputs, List.map_cons, List.map_nil, List.mem_cons,
      List.not_mem_nil, or_false] at hfile
    obtain rfl | rfl | rfl | rfl | rfl | rfl | rfl := hfile <;>
      exact ⟨hasRoom_firstPath.takes (Path.isPlain_of_head rfl (by decide) (by decide)) (by decide)
        (by decide), by decide⟩
  archives name hname := by
    simp only [archiveNames, List.mem_cons, List.not_mem_nil, or_false] at hname
    obtain rfl | rfl := hname <;>
      exact hasRoom_firstPath.takes (Path.isPlain_of_head rfl (by decide) (by decide)) (by decide)
        (by decide)
  outputs name hname := by
    have hstem : (Naming.ofSupplies twoPieces).stem = "interpreter" := by decide +kernel
    rw [hstem] at hname
    have hfile : (name, [7]) ∈ usualOutputs "interpreter" := List.mem_map_of_mem hname
    exact ⟨[7], .tail _ (.tail _ hfile), by simp⟩
  fit := ⟨by decide +kernel, by decide +kernel⟩

theorem acquire_staleHost : ∃ w h₀,
    Pipeline.acquireWorkspace ⟨"/", usualTools⟩ staleHost = .ok w h₀ ∧ w.path = firstPath := by
  have hnext : Pipeline.nextWorkspace ⟨"/", usualTools⟩ staleHost = firstPath := by decide +kernel
  obtain ⟨w, h₀, hacquire⟩ := acquireWorkspace_ok (p := ⟨"/", usualTools⟩)
    (h := staleHost) (hnext ▸ site_staleHost)
  have hcalls : staleHost.CallsOnly staleTool := Host.callsOnly_withTools _ _
  exact ⟨w, h₀, hacquire,
    (acquireWorkspace_eq_ok hcalls isSound_precious isReal_nil hacquire).1.1.trans hnext⟩

/-- What is at the paths of the archives does not get into the bundle. -/
theorem isBundle_of_staleTool : ∃ w h₀ i h₁ inputs,
    (staleHost.CallsOnly staleTool ∧ staleHost.files.IsSound ∧ IsReal staleHost.cwd ∧
      staleTool.KeepsTidy ⟨"/", usualTools⟩ staleHost ∧
      Pipeline.acquireWorkspace ⟨"/", usualTools⟩ staleHost = .ok w h₀ ∧
      Role.all.reverse.Perm Role.all ∧
      Intake.takeAll twoPieces Role.all.reverse ({ workspace := w.path }, h₀) = .ok () (i, h₁) ∧
      i.finish = .ok inputs) ∧
    ∃ h₂ bytes c, Pipeline.build ⟨"/", usualTools⟩ w.path inputs h₁ =
        .ok (Path.join w.path Bundle.resultArchive) h₂ ∧
      h₂.files.Shows staleHost.cwd (Path.join w.path Bundle.resultArchive) bytes ∧
      Bundle.IsBundle (Stage.artifacts w.path inputs) w.path c bytes ∧
      c.interpreter = [3, 4] ∧ c.documentation = [3, 4] ∧ c.sample = [3, 4] := by
  have hplain (file : String × Bytes) (hfile : file ∈ staleFiles) :=
    (suitsBuild_staleFiles.takes file hfile).1.plain
  have hcalls : staleHost.CallsOnly staleTool := Host.callsOnly_withTools _ _
  obtain ⟨w, h₀, hacquire, hw⟩ := acquire_staleHost
  have hnext : Pipeline.nextWorkspace ⟨"/", usualTools⟩ staleHost = firstPath :=
    (acquireWorkspace_eq_ok hcalls isSound_precious isReal_nil hacquire).1.1.symm.trans hw
  have hopen := hasRoom_firstPath.toIsOpen
  have hkeeps : staleTool.KeepsTidy ⟨"/", usualTools⟩ staleHost := by
    intro ws t c hsite _ htidy
    rw [hnext] at hsite ⊢
    exact (htidy.leftBy_writer hsite hopen _ _ c hplain).1
  have hspares : staleTool.SparesInputs ⟨"/", usualTools⟩ staleHost := by
    intro ws t c q hsite _ htidy hq hbelow
    rw [hnext] at hsite ⊢
    exact (htidy.leftBy_writer hsite hopen _ _ c hplain).2 inputsDirectory q hq hbelow
      fun file hfile => (suitsBuild_staleFiles.takes file hfile).2
  have horder := List.reverse_perm Role.all
  obtain ⟨-, ws, hsite, hstart⟩ :=
    stocks_of_acquireWorkspace twoPieces hcalls isSound_precious isReal_nil hacquire
  obtain ⟨⟨i, h₁⟩, htake⟩ := takeAll_ok hsite (hw ▸ hasRoom_firstPath)
    (by rw [hw]; decide +kernel) (horder.nodup_iff.2 Role.nodup_all) hstart fun role _ => by simp
  have hfinish := Intake.finish_of_takeAll horder htake
  obtain ⟨h₂, hbuild⟩ := build_writer_ok hcalls isSound_precious isReal_nil hacquire horder htake
    (hw ▸ hasRoom_firstPath) (hw ▸ suitsBuild_staleFiles) (by decide)
  refine ⟨w, h₀, i, h₁, _, ⟨hcalls, isSound_precious, isReal_nil, hkeeps, hacquire, horder, htake,
    hfinish⟩, ?_⟩
  obtain ⟨e, h₃, hfail⟩ | ⟨h₃, bytes, c, hok, hshows, hbundle, -, hsent⟩ :=
    build_isBundle hcalls isSound_precious isReal_nil hkeeps hacquire horder htake hfinish
  · rw [hbuild] at hfail
    cases hfail
  · exact ⟨h₃, bytes, c, hok, hshows, hbundle, hsent hspares⟩

end LangBundle
