import LangBundle.Proofs.BareNames
import LangBundle.Proofs.BundleNames
import LangBundle.Proofs.ModuleStems
import LangBundle.Proofs.NameLimits
import LangBundle.Proofs.RenamedInputs

/-!
# Builds under other names

What a build comes to does not depend on the declared names of its inputs, as long as the names that
it makes of them are not too long and its tools do not look at the names of their outputs.

* `ToolFunction.WritesOutputs`: tools that write their outputs whenever they can.
* `InShape`: a workspace with all inputs in which the files of a build can be made.
* `WritesOutputs.goes_on`, `.leaves`: **one stage** with such tools.
* `contents?`: what the artifacts come to hold, told without the names.
* `WritesOutputs.build_iff`: **a build** succeeds exactly if there are such contents and they fit.
* `Pipeline.succeeds_iff_of_renamed`: **two uploads** that differ in names come to the same, unless
  the names are too long.
-/

namespace LangBundle

open Files Files.Tree
open Http (Field)
open Stage (leftBy foundBy commandFor Meets)
open Bundle (IsBrief IsShort maxSource Contents)
open EntryName (IsStemText)

/-! ## Tools that write their outputs -/

/-- The input that a stage begins with. -/
def Inputs.source (i : Inputs) : Stage → String
  | .grammar => i.grammar.path
  | .lexer => i.lexer.path
  | .link => i.interpreter.path

/-- The names of the outputs of a stage. -/
def Stage.outputNames (stem : String) : Stage → List String
  | .grammar => [parserSource, parserHeader]
  | .lexer => [lexerSource]
  | .link => [stem ++ ".js", stem ++ ".wasm"]

theorem Stage.outputs_commandFor (tools : Toolchain) (path : String) (inputs : Inputs) (s : Stage) :
    (commandFor tools path inputs s).outputs =
      (s.outputNames (moduleStem inputs.interpreter.entryName)).map (Path.join path) := by
  cases s <;> rfl

/-- Writes data to paths, one after the other, where it can. -/
def Files.Tree.writeEach (t : Tree) (cwd : Place) (files : List (String × Bytes)) : Tree :=
  files.foldl (fun t file => t.writeIfPossible cwd file.1 file.2) t

/-- What a tool makes of its input and of the files that it finds: the data of its outputs, or none if
it fails. -/
abbrev Verdict :=
  Stage → (source : String) → Tree → Option (List Bytes)

/-- Tools that write their outputs whenever the operating system lets them.  A tool does not look at
the names of its outputs to tell whether it goes on and what each of them is to hold. -/
structure ToolFunction.WritesOutputs (f : ToolFunction) (p : Pipeline) (h : Host)
    (verdict : Verdict) : Prop where
  refuses : ∀ ws t inputs s, h.files.Site h.cwd (p.nextWorkspace h) ws → Tidy ws h.files t →
    verdict s (inputs.source s) t = none →
    ¬ Meets f h.cwd (p.nextWorkspace h) p.tools.stageTimeout
      (commandFor p.tools (p.nextWorkspace h) inputs s) t
  writes : ∀ ws t inputs s data, h.files.Site h.cwd (p.nextWorkspace h) ws →
    Tidy ws h.files t → verdict s (inputs.source s) t = some data →
    let c := commandFor p.tools (p.nextWorkspace h) inputs s
    (∀ output ∈ c.outputs, t.CanMake h.cwd output) →
    (data.length = c.outputs.length ∧ [] ∉ data) ∧
      ∃ d, f t h.cwd (p.nextWorkspace h) c.program c.args = .ok d ∧
        d.statusWithin p.tools.stageTimeout = some (.exited 0) ∧
        d.files = t.writeEach h.cwd (c.outputs.zip data)

/-! ## A workspace in shape -/

section
variable {base t : Tree} {cwd ws : Place} {path : String} {supply : Role → Supply}

/-- A tidy workspace with all inputs, in which all files of a build can be made. -/
structure InShape (ws : Place) (base : Tree) (cwd : Place) (path : String)
    (supply : Role → Supply) (t : Tree) : Prop extends Tidy ws base t where
  makes : ∀ name ∈ outputNames (Naming.ofSupplies supply).stem,
    t.CanMake cwd (Path.join path name)
  archives : ∀ name ∈ archiveNames, t.CanMake cwd (Path.join path name)
  stored : ∀ role, t.Offers cwd ((supply role).input path role).path (supply role).data

theorem mem_outputNames {stem name : String} {s : Stage} (h : name ∈ s.outputNames stem) :
    name ∈ outputNames stem := by
  cases s <;> simp only [Stage.outputNames, List.mem_cons, List.not_mem_nil, or_false] at h <;>
    rcases h with rfl | rfl <;> simp [outputNames]

theorem nodup_outputNames (supply : Role → Supply) :
    (outputNames (Naming.ofSupplies supply).stem).Nodup := by
  have hnodup := nodup_madeNames (Naming.isSafe_ofSupplies supply)
  rw [madeNames_eq] at hnodup
  exact (List.nodup_append.1 hnodup).1

/-- The files of the module can stand behind a path if the names fit. -/
theorem NamesFit.takes_module (h : NamesFit path supply) (hroom : Path.HasRoom path 30)
    {suffix : String} (hsuffix : suffix = ".js" ∨ suffix = ".wasm") :
    Path.Takes path ((Naming.ofSupplies supply).stem ++ suffix) := by
  have hsafe := Naming.isSafe_ofSupplies supply
  obtain ⟨hbytes, hsuffixNul⟩ : suffix.utf8ByteSize ≤ 5 ∧ '\x00' ∉ suffix.toList := by
    rcases hsuffix with rfl | rfl <;> decide
  have hplain := isPlain_of_mem_madeNames hsafe
    (show (Naming.ofSupplies supply).stem ++ suffix ∈ madeNames (Naming.ofSupplies supply).stem by
      rcases hsuffix with rfl | rfl <;> simp [madeNames])
  have hnul : '\x00' ∉ ((Naming.ofSupplies supply).stem ++ suffix).toList := by
    rw [String.toList_append, List.mem_append]
    rintro (hmem | hmem)
    · exact absurd (hsafe.stem.2 _ hmem) (by decide)
    · exact hsuffixNul hmem
  have hsize : ((Naming.ofSupplies supply).stem ++ suffix).utf8ByteSize ≤
      (moduleStem ((supply .interpreter).entryName .interpreter)).utf8ByteSize + 5 := by
    rw [String.utf8ByteSize_append, Naming.stem_ofSupplies]
    exact Nat.add_le_add_left hbytes _
  have hstem := h.stem
  have hfits := h.room
  refine ⟨hplain, by omega, Path.HasRoom.join ⟨hroom.toIsOpen, hroom.noNul, ?_⟩ hplain.1 hnul⟩
  omega

/-- The names that are the same in all builds. -/
def fixedNames : List String :=
  [Stage.parserSource, Stage.parserHeader, Stage.lexerSource] ++ archiveNames

theorem mem_madeNames_of_fixed {stem name : String} (h : name ∈ fixedNames) :
    name ∈ madeNames stem := by
  rw [madeNames_eq, List.mem_append]
  exact (List.mem_append.1 h).imp_left fun h => List.mem_append_left [stem ++ ".js", _] h

/-- They can stand behind a path that leaves some room. -/
theorem takes_fixed {n : Naming} (hn : n.IsSafe) (hroom : Path.HasRoom path 30) {name : String}
    (h : name ∈ fixedNames) : Path.Takes path name ∧ name ≠ inputsDirectory := by
  have hbounds : ∀ name ∈ fixedNames,
      '\x00' ∉ name.toList ∧ name.utf8ByteSize ≤ 29 ∧ name ≠ inputsDirectory := by
    decide
  obtain ⟨hnul, hbytes, hne⟩ := hbounds name h
  exact ⟨hroom.takes (isPlain_of_mem_madeNames hn (mem_madeNames_of_fixed h)) hnul hbytes, hne⟩

/-- **A workspace in which five inputs have been stored** is in shape if the names fit. -/
theorem Stocked.inShape (h : Stocked ws supply (fun role => some (supply role).data) t)
    (hsite : base.Site cwd path ws) (htidy : Tidy ws base t) (hpath : Path.IsOpen path)
    (hroom : Path.HasRoom path 30) (hfit : NamesFit path supply) :
    InShape ws base cwd path supply t := by
  have hfixed {name : String} (hname : name ∈ fixedNames) :=
    takes_fixed (Naming.isSafe_ofSupplies supply) hroom hname
  refine ⟨htidy, fun name hname => ?_, fun name hname => ?_,
    fun role => h.offers hsite htidy hroom rfl⟩
  · refine h.canMake hsite htidy hpath ?_ (ne_inputsDirectory hname)
    obtain hmem | hmem := List.mem_append.1
      (show name ∈ [Stage.parserSource, Stage.parserHeader, Stage.lexerSource] ++ _ from hname)
    · exact (hfixed (List.mem_append_left _ hmem)).1
    · obtain ⟨suffix, hsuffix, rfl⟩ : ∃ suffix, (suffix = ".js" ∨ suffix = ".wasm") ∧
          name = (Naming.ofSupplies supply).stem ++ suffix := by
        rcases List.mem_pair.1 hmem with heq | heq
        · exact ⟨_, .inl rfl, heq⟩
        · exact ⟨_, .inr rfl, heq⟩
      exact hfit.takes_module hroom hsuffix
  · have hmem := hfixed (List.mem_append_right _ hname)
    exact h.canMake hsite htidy hpath hmem.1 hmem.2

/-- The outputs of a stage are files below the path of the workspace. -/
theorem writeEach_outputs (tools : Toolchain) (path : String) (s : Stage) (data : List Bytes) :
    t.writeEach cwd ((commandFor tools path (.ofSupplies path supply) s).outputs.zip data) =
      ((s.outputNames (Naming.ofSupplies supply).stem).zip data).foldl
        (fun t file => t.writeIfPossible cwd (Path.join path file.1) file.2) t := by
  rw [Stage.outputs_commandFor, Naming.stem_ofSupplies, Files.Tree.writeEach, List.zip_map_left,
    List.foldl_map]
  rfl

/-- **Outputs** that are written leave the workspace in shape, and offer what was written; other
files offer what they offered. -/
theorem InShape.written (h : InShape ws base cwd path supply t) (hsite : base.Site cwd path ws)
    (hpath : Path.IsOpen path) (tools : Toolchain) (s : Stage) {data : List Bytes}
    (hlength : data.length = (s.outputNames (Naming.ofSupplies supply).stem).length) :
    let names := s.outputNames (Naming.ofSupplies supply).stem
    let left := t.writeEach cwd ((commandFor tools path (.ofSupplies path supply) s).outputs.zip data)
    InShape ws base cwd path supply left ∧
      (∀ file ∈ names.zip data, left.Offers cwd (Path.join path file.1) file.2) ∧
      ∀ name ∈ outputNames (Naming.ofSupplies supply).stem, name ∉ names → ∀ d,
        t.Offers cwd (Path.join path name) d → left.Offers cwd (Path.join path name) d := by
  intro names left
  have hsafe := Naming.isSafe_ofSupplies supply
  have hplain {name : String} (hname : name ∈ outputNames (Naming.ofSupplies supply).stem) :
      Path.IsPlain name ∧ name ≠ ".." :=
    isPlain_of_mem_madeNames hsafe (by rw [madeNames_eq]; exact List.mem_append_left _ hname)
  have hname {file : String × Bytes} (hfile : file ∈ names.zip data) :
      file.1 ∈ outputNames (Naming.ofSupplies supply).stem :=
    mem_outputNames (List.of_mem_zip hfile).1
  have hfst : (names.zip data).map Prod.fst = names := List.map_fst_zip hlength.ge
  have hnodup : ((names.zip data).map Prod.fst).Nodup := by
    rw [hfst]
    have hall := nodup_outputNames supply
    revert hall
    cases s <;> simp +contextual [names, Stage.outputNames, outputNames]
  have hleft : left = _ := writeEach_outputs tools path s data
  obtain ⟨htidy, hkept⟩ := h.toTidy.written_kept hsite hpath (names.zip data)
    fun file hfile => hplain (hname hfile)
  obtain ⟨hgrows, hoffers⟩ := h.toTidy.written_ok hsite hpath (names.zip data) hnodup
    (fun file hfile => hplain (hname hfile)) fun file hfile => h.makes _ (hname hfile)
  rw [← hleft] at htidy hkept hgrows hoffers
  refine ⟨⟨htidy, fun name hname => hgrows.canMake h.sound hsite.real (h.makes name hname),
    fun name hname => hgrows.canMake h.sound hsite.real (h.archives name hname),
    fun role => ?_⟩, hoffers, fun name hmem hnot d hoffer => ?_⟩
  · refine (h.stored role).of_kept hgrows.shape fun q hq => ?_
    have hreal := isReal_of_resolve hsite.real hq
    obtain rfl := h.toTidy.resolve_continues hsite (continues_stored hpath role) hq
    exact hkept inputsDirectory _ hreal ⟨[_], by rw [List.append_assoc]; rfl⟩
      fun file hfile => ne_inputsDirectory (hname hfile)
  · refine hoffer.of_kept hgrows.shape fun q hq => ?_
    have hreal := isReal_of_resolve hsite.real hq
    obtain rfl := h.toTidy.resolve_continues hsite (Path.continues_join hpath (hplain hmem)) hq
    refine hkept name _ hreal List.prefix_rfl fun file hfile heq => hnot ?_
    rw [← heq]
    exact (List.of_mem_zip hfile).1

end

/-! ## One stage -/

theorem Stage.meets_of_run {f : ToolFunction} {h h' : Host} {c : Command} {workspace : String}
    {limit : Nat} {o : Output} (hcalls : h.CallsOnly f)
    (hrun : c.run workspace limit h = .ok o h') : Meets f h.cwd workspace limit c h.files := by
  obtain ⟨_, -, ⟨hmeets, -⟩ | ⟨-, failure, herror⟩⟩ := run_of_calls hcalls c workspace limit
  · exact hmeets
  · rw [hrun] at herror
    cases herror

/-- The stages have all done what they had to if they went through. -/
theorem Stage.meets_of_runAll {f : ToolFunction} {h h' : Host} {tools : Toolchain}
    {workspace : String} {inputs : Inputs} {a : ArtifactSet} (hcalls : h.CallsOnly f)
    (hrun : runAll tools workspace inputs h = .ok a h') (s : Stage) :
    Meets f h.cwd workspace tools.stageTimeout (commandFor tools workspace inputs s)
      (foundBy f h.cwd workspace tools.stageTimeout (commandFor tools workspace inputs)
        h.files s) := by
  obtain ⟨o₁, h₁, hgrammar, hrun⟩ := Service.bind_eq_ok hrun
  obtain ⟨o₂, h₂, hlexer, hrun⟩ := Service.bind_eq_ok hrun
  obtain ⟨o₃, h₃, hlink, -⟩ := Service.bind_eq_ok hrun
  have hran₁ := run_eq_ok hcalls hgrammar
  have hran₂ := run_eq_ok hran₁.calls hlexer
  have hmeets₂ := meets_of_run hran₁.calls hlexer
  have hmeets₃ := meets_of_run hran₂.calls hlink
  rw [hran₁.cwd, hran₁.files] at hmeets₂
  rw [hran₂.cwd, hran₂.files, hran₁.cwd, hran₁.files] at hmeets₃
  cases s with
  | grammar => exact meets_of_run hcalls hgrammar
  | lexer => exact hmeets₂
  | link => exact hmeets₃

namespace ToolFunction.WritesOutputs

section
variable {f : ToolFunction} {p : Pipeline} {h : Host} {verdict : Verdict} {ws : Place} {t : Tree}
  {supply : Role → Supply} (hwrites : f.WritesOutputs p h verdict)
  (hsite : h.files.Site h.cwd (p.nextWorkspace h) ws)
  (hshape : InShape ws h.files h.cwd (p.nextWorkspace h) supply t) (s : Stage)
include hwrites hsite hshape

/-- **A stage** that goes on does what it has to, and writes its outputs. -/
theorem goes_on {data : List Bytes} (hverdict :
      verdict s ((Inputs.ofSupplies (p.nextWorkspace h) supply).source s) t = some data) :
    let c := commandFor p.tools (p.nextWorkspace h) (.ofSupplies (p.nextWorkspace h) supply) s
    data.length = (s.outputNames (Naming.ofSupplies supply).stem).length ∧
      Meets f h.cwd (p.nextWorkspace h) p.tools.stageTimeout c t ∧
      leftBy f h.cwd (p.nextWorkspace h) p.tools.stageTimeout c t =
        t.writeEach h.cwd (c.outputs.zip data) := by
  intro c
  have houtputs : c.outputs = (s.outputNames (Naming.ofSupplies supply).stem).map
      (Path.join (p.nextWorkspace h)) := by
    rw [Stage.outputs_commandFor, Naming.stem_ofSupplies]
    rfl
  obtain ⟨⟨hlength, hfilled⟩, d, hd, hstatus, hfiles⟩ :=
    hwrites.writes ws t _ s data hsite hshape.toTidy hverdict (by
      rw [houtputs]
      intro output houtput
      obtain ⟨name, hname, rfl⟩ := List.mem_map.1 houtput
      exact hshape.makes name (mem_outputNames hname))
  have hlimit : p.tools.stageTimeout ≠ 0 := by
    intro hzero
    rw [Deed.statusWithin, hzero] at hstatus
    simp at hstatus
  have hafter : d.filesAfter p.tools.stageTimeout t = t.writeEach h.cwd (c.outputs.zip data) := by
    rw [Deed.filesAfter, if_neg hlimit, hfiles]
  rw [houtputs, List.length_map] at hlength
  refine ⟨hlength, ⟨d, hd, hstatus, fun output houtput => ?_⟩, ?_⟩
  · obtain ⟨-, hoffers, -⟩ :=
      hshape.written hsite (isOpen_nextWorkspace p h) p.tools s hlength
    rw [houtputs] at houtput
    obtain ⟨k, hk, rfl⟩ := List.getElem_of_mem houtput
    rw [List.length_map] at hk
    obtain ⟨serial, mode, hstat, -⟩ := hoffers
      ((s.outputNames (Naming.ofSupplies supply).stem)[k], data[k]) (List.mem_iff_getElem.2
        ⟨k, by rw [List.length_zip]; omega, List.getElem_zip⟩)
    rw [hafter, List.getElem_map]
    refine ⟨_, hstat, fun hempty => hfilled ?_⟩
    rw [← hempty]
    exact List.getElem_mem _
  · rw [leftBy, hd]
    exact hafter

/-- **What it leaves**: the workspace is in shape, the outputs are there, and other files offer what
they offered. -/
theorem leaves {data : List Bytes} (hverdict :
      verdict s ((Inputs.ofSupplies (p.nextWorkspace h) supply).source s) t = some data) :
    let names := s.outputNames (Naming.ofSupplies supply).stem
    let left := leftBy f h.cwd (p.nextWorkspace h) p.tools.stageTimeout
      (commandFor p.tools (p.nextWorkspace h) (.ofSupplies (p.nextWorkspace h) supply) s) t
    data.length = names.length ∧ InShape ws h.files h.cwd (p.nextWorkspace h) supply left ∧
      (∀ file ∈ names.zip data, left.Offers h.cwd (Path.join (p.nextWorkspace h) file.1) file.2) ∧
      ∀ name ∈ outputNames (Naming.ofSupplies supply).stem, name ∉ names → ∀ d,
        t.Offers h.cwd (Path.join (p.nextWorkspace h) name) d →
        left.Offers h.cwd (Path.join (p.nextWorkspace h) name) d := by
  intro names left
  obtain ⟨hlength, -, hleft⟩ := hwrites.goes_on hsite hshape s hverdict
  rw [show left = _ from hleft]
  exact ⟨hlength, hshape.written hsite (isOpen_nextWorkspace p h) p.tools s hlength⟩

/-- A stage that does not go on fails. -/
theorem meets_iff : Meets f h.cwd (p.nextWorkspace h) p.tools.stageTimeout
      (commandFor p.tools (p.nextWorkspace h) (.ofSupplies (p.nextWorkspace h) supply) s) t ↔
    ∃ data, verdict s ((Inputs.ofSupplies (p.nextWorkspace h) supply).source s) t = some data := by
  rw [← Option.isSome_iff_exists, ← Option.ne_none_iff_isSome]
  refine ⟨fun hmeets hnone => ?_, fun hsome => ?_⟩
  · exact hwrites.refuses ws t _ s hsite hshape.toTidy hnone hmeets
  · obtain ⟨data, hdata⟩ := Option.ne_none_iff_exists'.1 hsome
    exact (hwrites.goes_on hsite hshape s hdata).2.1

end

end ToolFunction.WritesOutputs

/-! ## A build -/

/-- What the files of the artifacts come to hold in a workspace with all inputs, told without the
names that are declared; none if a stage does not go on. -/
def contents? (verdict : Verdict) (cwd : Place) (path : String) (supply : Role → Supply)
    (t : Tree) : Option Contents := do
  let source := (Inputs.ofSupplies path supply).source
  let made (names : List String) (data : List Bytes) := (names.map (Path.join path)).zip data
  let parser ← verdict .grammar (source .grammar) t
  let t := t.writeEach cwd (made [Stage.parserSource, Stage.parserHeader] parser)
  let lexer ← verdict .lexer (source .lexer) t
  let t := t.writeEach cwd (made [Stage.lexerSource] lexer)
  let module ← verdict .link (source .link) t
  return {
    lexer := lexer.getD 0 []
    parser := parser.getD 0 []
    interpreter := (supply .interpreter).data
    glue := module.getD 0 []
    binary := module.getD 1 []
    documentation := (supply .documentation).data
    sample := (supply .example).data }

/-- The declared names do not count but for the paths of the files that are stored. -/
theorem contents?_congr (verdict : Verdict) (cwd : Place) {path : String}
    {supply supply' : Role → Supply} (t : Tree)
    (hpath : ∀ role, ((supply' role).input path role).path = ((supply role).input path role).path)
    (hdata : ∀ role, (supply' role).data = (supply role).data) :
    contents? verdict cwd path supply' t = contents? verdict cwd path supply t := by
  have hsource : (Inputs.ofSupplies path supply').source = (Inputs.ofSupplies path supply).source := by
    funext s
    cases s with
    | grammar => exact hpath .grammar
    | lexer => exact hpath .lexer
    | link => exact hpath .interpreter
  simp only [contents?, hsource, hdata]

/-- No stage makes a source of more than a gigabyte, so that the archive of the sources can have any
names. -/
def SourcesFit (p : Pipeline) (h : Host) (verdict : Verdict) (supply : Role → Supply) : Prop :=
  ∀ ws t c, h.files.Site h.cwd (p.nextWorkspace h) ws →
    InShape ws h.files h.cwd (p.nextWorkspace h) supply t →
    contents? verdict h.cwd (p.nextWorkspace h) supply t = some c →
    ∀ d ∈ c.sources, d.length ≤ maxSource

namespace ToolFunction.WritesOutputs

section
variable {f : ToolFunction} {p : Pipeline} {h : Host} {verdict : Verdict} {ws : Place} {t : Tree}
  {supply : Role → Supply} (hwrites : f.WritesOutputs p h verdict)
  (hsite : h.files.Site h.cwd (p.nextWorkspace h) ws)
  (hshape : InShape ws h.files h.cwd (p.nextWorkspace h) supply t)
include hwrites hsite hshape

/-- **The stages** that all go on leave the contents. -/
theorem offers_contents {c : Contents}
    (hcontents : contents? verdict h.cwd (p.nextWorkspace h) supply t = some c) :
    let command := commandFor p.tools (p.nextWorkspace h) (.ofSupplies (p.nextWorkspace h) supply)
    let left := Stage.leftByAll f h.cwd (p.nextWorkspace h) p.tools.stageTimeout command t
    let a := Stage.artifacts (p.nextWorkspace h) (.ofSupplies (p.nextWorkspace h) supply)
    (∀ s, Meets f h.cwd (p.nextWorkspace h) p.tools.stageTimeout (command s)
      (foundBy f h.cwd (p.nextWorkspace h) p.tools.stageTimeout command t s)) ∧
    InShape ws h.files h.cwd (p.nextWorkspace h) supply left ∧
    List.Forall₂ (fun a d => left.Offers h.cwd a.path d) (a.sources ++ a.deliverables)
      (c.sources ++ c.deliverables) := by
  intro command left a
  let source := (Inputs.ofSupplies (p.nextWorkspace h) supply).source
  let after (s : Stage) (t : Tree) : Tree :=
    leftBy f h.cwd (p.nextWorkspace h) p.tools.stageTimeout (command s) t
  obtain ⟨parser, hparser, hrest⟩ := Option.bind_eq_some_iff.1 hcontents
  obtain ⟨lexer, hlexer, hrest⟩ := Option.bind_eq_some_iff.1 hrest
  obtain ⟨module, hmodule, hc⟩ := Option.bind_eq_some_iff.1 hrest
  obtain rfl := Option.some.inj hc
  clear hcontents hrest hc
  obtain ⟨-, hmeets₁, hleft₁⟩ := hwrites.goes_on hsite hshape .grammar hparser
  obtain ⟨hlength₁, hshape₁, hoffers₁, -⟩ := hwrites.leaves hsite hshape .grammar hparser
  replace hlexer : verdict .lexer (source .lexer) (after .grammar t) = some lexer := by
    rw [show after .grammar t = _ from hleft₁]
    exact hlexer
  obtain ⟨-, hmeets₂, hleft₂⟩ := hwrites.goes_on hsite hshape₁ .lexer hlexer
  obtain ⟨hlength₂, hshape₂, hoffers₂, hkept₂⟩ := hwrites.leaves hsite hshape₁ .lexer hlexer
  replace hmodule : verdict .link (source .link) (after .lexer (after .grammar t)) = some module := by
    rw [show after .lexer (after .grammar t) = _ from hleft₂, hleft₁]
    exact hmodule
  obtain ⟨-, hmeets₃, -⟩ := hwrites.goes_on hsite hshape₂ .link hmodule
  obtain ⟨hlength₃, hshape₃, hoffers₃, hkept₃⟩ := hwrites.leaves hsite hshape₂ .link hmodule
  refine ⟨fun s => ?_, hshape₃, ?_⟩
  · cases s with
    | grammar => exact hmeets₁
    | lexer => exact hmeets₂
    | link => exact hmeets₃
  · obtain ⟨parser, header, rfl⟩ := List.length_eq_two.1 hlength₁
    obtain ⟨lexer, rfl⟩ := List.length_eq_one_iff.1 hlength₂
    obtain ⟨glue, binary, rfl⟩ := List.length_eq_two.1 hlength₃
    have hnodup := nodup_outputNames supply
    simp only [outputNames, List.nodup_cons, List.mem_cons, List.not_mem_nil, or_false,
      not_or] at hnodup
    -- what one stage has written is still there when the later ones have run
    have hparser := hkept₃ _ (.head _) (by simpa [Stage.outputNames] using hnodup.1.2.2) _
      (hkept₂ _ (.head _) (by simpa [Stage.outputNames] using hnodup.1.2.1) _
        (hoffers₁ (_, parser) (.head _)))
    have hlexer := hkept₃ _ (.tail _ (.tail _ (.head _)))
      (by simpa [Stage.outputNames] using hnodup.2.2.1) _ (hoffers₂ (_, lexer) (.head _))
    have hpaths : List.Forall₂ (fun path d => left.Offers h.cwd path d)
        ((a.sources ++ a.deliverables).map (·.path)) [lexer, parser, (supply .interpreter).data, glue,
          binary, (supply .documentation).data, (supply .example).data] := by
      rw [paths_artifacts]
      exact .cons hlexer <| .cons hparser <| .cons (hshape₃.stored .interpreter) <|
        .cons (hoffers₃ (_, glue) (.head _)) <| .cons (hoffers₃ (_, binary) (.tail _ (.head _))) <|
        .cons (hshape₃.stored .documentation) <| .cons (hshape₃.stored .example) .nil
    exact List.forall₂_map_left_iff.1 hpaths

/-- They all do what they have to exactly if they all go on. -/
theorem meets_all_iff :
    let command := commandFor p.tools (p.nextWorkspace h) (.ofSupplies (p.nextWorkspace h) supply)
    (∀ s, Meets f h.cwd (p.nextWorkspace h) p.tools.stageTimeout (command s)
      (foundBy f h.cwd (p.nextWorkspace h) p.tools.stageTimeout command t s)) ↔
    ∃ c, contents? verdict h.cwd (p.nextWorkspace h) supply t = some c := by
  intro command
  refine ⟨fun hmeets => ?_, fun ⟨c, hc⟩ => (hwrites.offers_contents hsite hshape hc).1⟩
  obtain ⟨parser, hparser⟩ := (hwrites.meets_iff hsite hshape .grammar).1 (hmeets .grammar)
  obtain ⟨-, -, hleft₁⟩ := hwrites.goes_on hsite hshape .grammar hparser
  have hshape₁ := (hwrites.leaves hsite hshape .grammar hparser).2.1
  obtain ⟨lexer, hlexer⟩ := (hwrites.meets_iff hsite hshape₁ .lexer).1 (hmeets .lexer)
  obtain ⟨-, -, hleft₂⟩ := hwrites.goes_on hsite hshape₁ .lexer hlexer
  have hshape₂ := (hwrites.leaves hsite hshape₁ .lexer hlexer).2.1
  obtain ⟨module, hmodule⟩ := (hwrites.meets_iff hsite hshape₂ .link).1 (hmeets .link)
  refine ⟨_, Option.bind_eq_some_iff.2 ⟨parser, hparser, Option.bind_eq_some_iff.2
    ⟨lexer, ?_, Option.bind_eq_some_iff.2 ⟨module, ?_, rfl⟩⟩⟩⟩
  · rw [hleft₁] at hlexer
    exact hlexer
  · rw [hleft₂, hleft₁] at hmodule
    exact hmodule

/-- **A build** whose names fit succeeds exactly if all stages go on and what they leave fits. -/
theorem build_iff {h₁ : Host} (ht : h₁.files = t) (hcalls : h₁.CallsOnly f) (hcwd : h₁.cwd = h.cwd)
    (hfit : NamesFit (p.nextWorkspace h) supply)
    (hsources : ∀ c, contents? verdict h.cwd (p.nextWorkspace h) supply t = some c →
      ∀ d ∈ c.sources, d.length ≤ maxSource) :
    (∃ bundle h₂, p.build (p.nextWorkspace h) (.ofSupplies (p.nextWorkspace h) supply) h₁ =
        .ok bundle h₂) ↔
      ∃ c, contents? verdict h.cwd (p.nextWorkspace h) supply t = some c ∧
        ∀ d ∈ c.sources ++ c.deliverables, IsShort d := by
  subst ht
  have hpath := isOpen_nextWorkspace p h
  constructor
  · rintro ⟨bundle, h₂, hbuild⟩
    obtain ⟨a, h', hrun, hassemble⟩ := Service.bind_eq_ok hbuild
    obtain ⟨rfl, hcwd', hfiles⟩ := Stage.runAll_eq_ok hcalls hrun
    have hmeets := Stage.meets_of_runAll hcalls hrun
    rw [hcwd] at hmeets hcwd' hfiles
    obtain ⟨c, hc⟩ := (hwrites.meets_all_iff hsite hshape).1 hmeets
    obtain ⟨-, hleft, hoffers⟩ := hwrites.offers_contents hsite hshape hc
    rw [← hfiles] at hleft hoffers
    have hall := fit_of_assemble hsite hpath hleft.toTidy hcwd' supply hleft.archives hoffers
      hassemble
    exact ⟨c, hc, (Contents.fit_iff hfit.sources hfit.result (hsources c hc)).1 hall⟩
  · rintro ⟨c, hc, hshort⟩
    obtain ⟨hmeets, hleft, hoffers⟩ := hwrites.offers_contents hsite hshape hc
    rw [← hcwd] at hmeets
    obtain ⟨a, h', hrun⟩ := Stage.runAll_ok hcalls hmeets
    obtain ⟨rfl, hcwd', hfiles⟩ := Stage.runAll_eq_ok hcalls hrun
    rw [hcwd] at hcwd' hfiles
    rw [← hfiles] at hleft hoffers
    obtain ⟨t', data, hassemble, -, -⟩ := assemble_ok hsite hpath hleft.toTidy hcwd' supply
      hleft.archives hoffers ((Contents.fit_iff hfit.sources hfit.result (hsources c hc)).2 hshort)
    exact ⟨_, _, (Service.bind_of_ok hrun).trans hassemble⟩

end

end ToolFunction.WritesOutputs

/-! ## Two uploads -/

/-- The build of an upload succeeds: a workspace is made, the fields are stored in it, and a bundle is
made of them. -/
def Pipeline.Succeeds (p : Pipeline) (fields : List Field) (h : Host) : Prop :=
  ∃ w h₀ bundle h₁, p.acquireWorkspace h = .ok w h₀ ∧
    p.produce (Http.Upload.storeFields fields) w h₀ = .ok bundle h₁

open Http.Upload (sent storeFields)

theorem Pipeline.produce_eq_ok {p : Pipeline} {take : Intake.Step Unit} {w : Workspace}
    {h₀ h₂ : Host} {bundle : String} (hproduce : p.produce take w h₀ = .ok bundle h₂) :
    ∃ i h₁ inputs, take ({ workspace := w.path }, h₀) = .ok () (i, h₁) ∧ i.finish = .ok inputs ∧
      p.build w.path inputs h₁ = .ok bundle h₂ := by
  unfold Pipeline.produce at hproduce
  split at hproduce
  · cases hproduce
  next i h₁ htake =>
  split at hproduce
  · cases hproduce
  next inputs hfinish => exact ⟨i, h₁, inputs, htake, hfinish, hproduce⟩

section
variable {p : Pipeline} {h : Host} {fields fields' : List Field} (hsound : h.files.IsSound)
  (hcwd : IsReal h.cwd)
include hsound hcwd

/-- **No build succeeds** whose names do not fit. -/
theorem Pipeline.Succeeds.namesFit (hsucceeds : p.Succeeds fields h) :
    NamesFit (p.nextWorkspace h) (sent fields) := by
  obtain ⟨w, h₀, bundle, h₂, hacquire, hproduce⟩ := hsucceeds
  obtain ⟨i, h₁, inputs, hstore, hfinish, hbuild⟩ := Pipeline.produce_eq_ok hproduce
  obtain ⟨ws, hstored⟩ := Http.Upload.storedBy hsound hcwd hacquire hstore hfinish
  rw [hstored.inputs, hstored.path] at hbuild
  exact namesFit_of_build (isOpen_nextWorkspace p h) hbuild

omit hsound hcwd in
/-- The same is sent under other names. -/
theorem sent_of_renamed (hrenamed : List.Forall₂ Field.Renamed fields fields') (role : Role) :
    (sent fields' role).pieces = (sent fields role).pieces ∧
      (sent fields' role).extension role = (sent fields role).extension role := by
  unfold Http.Upload.sent
  induction hrenamed with
  | nil => exact ⟨rfl, rfl⟩
  | @cons f g _ _ hfg _ ih =>
    simp only [List.find?_cons, hfg.role_eq]
    by_cases hrole : f.role? = some role
    · rw [decide_eq_true hrole]
      exact ⟨hfg.chunks, hfg.extension role hrole⟩
    · rw [decide_eq_false hrole]
      exact ih

omit hsound hcwd in
/-- So the stages come to the same contents. -/
theorem contents?_sent_of_renamed (verdict : Verdict) {cwd : Place} {path : String} {t : Tree}
    (hrenamed : List.Forall₂ Field.Renamed fields fields') :
    contents? verdict cwd path (sent fields') t = contents? verdict cwd path (sent fields) t :=
  contents?_congr verdict cwd t
    (fun role => congrArg
      (fun e => Path.join (Path.join path inputsDirectory) (role.partName ++ "." ++ e))
      (sent_of_renamed hrenamed role).2)
    fun role => congrArg List.flatten (sent_of_renamed hrenamed role).1

/-- **A build that succeeds** does so under other names if they fit. -/
theorem Pipeline.Succeeds.of_renamed {f : ToolFunction} {verdict : Verdict}
    (hsucceeds : p.Succeeds fields h) (hcalls : h.CallsOnly f)
    (hwrites : f.WritesOutputs p h verdict) (hroom : Path.HasRoom (p.nextWorkspace h) 30)
    (hsources : SourcesFit p h verdict (sent fields) ∨ SourcesFit p h verdict (sent fields'))
    (hrenamed : List.Forall₂ Field.Renamed fields fields')
    (hfit : NamesFit (p.nextWorkspace h) (sent fields')) : p.Succeeds fields' h := by
  have hfit₀ := hsucceeds.namesFit hsound hcwd
  obtain ⟨w, h₀, bundle, h₂, hacquire, hproduce⟩ := hsucceeds
  obtain ⟨i, h₁, inputs, hstore, hfinish, hbuild⟩ := Pipeline.produce_eq_ok hproduce
  obtain ⟨ws, hstored⟩ := Http.Upload.storedBy hsound hcwd hacquire hstore hfinish
  -- the other upload leaves the same host, and inputs that differ in names
  obtain ⟨j, hstore', hinputs⟩ := Http.Upload.storeFields_of_renamed hrenamed hstore
  obtain ⟨_, inputs', hfinish₀, hfinish', -⟩ | ⟨e, herror, -⟩ := hinputs.finish
  · obtain ⟨ws', hstored'⟩ := Http.Upload.storedBy hsound hcwd hacquire hstore' hfinish'
    obtain rfl : ws' = ws := Except.ok.inj (hstored'.site.leads.symm.trans hstored.site.leads)
    have hpath := hstored.path
    have hsite := hstored.site
    have hstocked := hstored.stocked
    have hstocked' := hstored'.stocked
    have hinputs := hstored.inputs
    have hinputs' := hstored'.inputs
    rw [hpath] at hsite hinputs hinputs' hbuild
    rw [hinputs] at hbuild
    have hopen := isOpen_nextWorkspace p h
    have htidy := hstored.prepared.tidy
    have hcalls₁ := hstored.calls f hcalls
    have hcontents : contents? verdict h.cwd (p.nextWorkspace h) (sent fields') h₁.files =
        contents? verdict h.cwd (p.nextWorkspace h) (sent fields) h₁.files :=
      contents?_sent_of_renamed verdict hrenamed
    have hshape := hstocked.inShape hsite htidy hopen hroom hfit₀
    have hshape' := hstocked'.inShape hsite htidy hopen hroom hfit
    have hmost : ∀ c, contents? verdict h.cwd (p.nextWorkspace h) (sent fields) h₁.files = some c →
        ∀ d ∈ c.sources, d.length ≤ maxSource := by
      rcases hsources with hsources | hsources
      · exact fun c hc => hsources ws' _ c hsite hshape hc
      · exact fun c hc => hsources ws' _ c hsite hshape' (hcontents.trans hc)
    obtain ⟨c, hc, hshort⟩ := (hwrites.build_iff hsite hshape rfl hcalls₁ hstored.cwd hfit₀
      hmost).1 ⟨bundle, h₂, hbuild⟩
    rw [← hcontents] at hc hmost
    obtain ⟨bundle', h₂', hbuild'⟩ := (hwrites.build_iff hsite hshape' rfl hcalls₁ hstored.cwd hfit
      hmost).2 ⟨c, hc, hshort⟩
    refine ⟨w, h₀, bundle', h₂', hacquire, ?_⟩
    unfold Pipeline.produce
    simp only [hstore', hfinish']
    rw [hpath, hinputs']
    exact hbuild'
  · rw [hfinish] at herror
    cases herror

end

/-! ## Tools that copy their input -/

/-- A text with another end. -/
def replaceEnd (s : String) (old : Nat) (suffix : String) : String :=
  String.ofList (s.toList.take (s.toList.length - old)) ++ suffix

theorem replaceEnd_append (front old suffix : String) :
    replaceEnd (front ++ old) old.toList.length suffix = front ++ suffix := by
  rw [replaceEnd, String.toList_append, List.length_append, Nat.add_sub_cancel, List.take_left,
    String.ofList_toList]

/-- The input and the outputs of a call, as a tool finds them among its arguments. -/
def callOf? (program : String) (args : List String) : Option (String × List String) :=
  if program = "emcc" then do
    let glue ← args.getLast?
    return (← args[2]?, [glue, replaceEnd glue 3 ".wasm"])
  else do
    let out ← args.dropLast.getLast?
    return (← args.getLast?, if program = "bison" then [out, replaceEnd out 1 "h"] else [out])

/-- Tools that copy their input to each of their outputs where they can, and fail if it is empty or
cannot be read. -/
def copier : ToolFunction := fun t cwd _ program args =>
  match callOf? program args with
  | none => .error .notFound
  | some (source, outputs) =>
    match t.read cwd source with
    | .ok (b :: data) => .ok {
        said := []
        files := t.writeEach cwd (outputs.map (·, b :: data))
        ending := some (0, .exited 0) }
    | _ => .ok { said := [], files := t, ending := some (0, .exited 1) }

/-- What they make of an input. -/
def copied (cwd : Place) : Verdict := fun s source t =>
  match t.read cwd source with
  | .ok (b :: data) => some ((s.outputNames "").map fun _ => b :: data)
  | _ => none

theorem callOf?_commandFor (path : String) (inputs : Inputs) (s : Stage) :
    let c := commandFor usualTools path inputs s
    callOf? c.program c.args = some (inputs.source s, c.outputs) := by
  intro c
  cases s with
  | grammar =>
    have hheader : replaceEnd (Path.join path Stage.parserSource) 1 "h" =
        Path.join path Stage.parserHeader := by
      rw [show Stage.parserSource = "y.tab." ++ "c" from rfl,
        show Stage.parserHeader = "y.tab." ++ "h" from rfl,
        Path.join_append (by decide) (by decide), Path.join_append (by decide) (by decide)]
      exact replaceEnd_append _ "c" "h"
    exact congrArg (fun header => some (inputs.grammar.path, [Path.join path Stage.parserSource,
      header])) hheader
  | lexer => rfl
  | link =>
    let stem := moduleStem inputs.interpreter.entryName
    have habs : Path.isAbsolute stem = false :=
      Path.isAbsolute_eq_false fun hslash => absurd (isStemChar_of_mem_moduleStem hslash) (by decide)
    have hbinary : replaceEnd (Path.join path (stem ++ ".js")) 3 ".wasm" =
        Path.join path (stem ++ ".wasm") := by
      rw [Path.join_append (moduleStem_ne_empty _) habs, Path.join_append (moduleStem_ne_empty _) habs]
      exact replaceEnd_append _ ".js" ".wasm"
    have hlast : c.args.getLast? = some (Path.join path (stem ++ ".js")) := by
      simp only [c, commandFor, Stage.Command.link, Stage.Command.compile, List.getLast?_append,
        List.getLast?_cons_cons, List.getLast?_singleton, Option.some_or, stem]
    have hsource : c.args[2]? = some inputs.interpreter.path := rfl
    have houtputs : c.outputs = [Path.join path (stem ++ ".js"), Path.join path (stem ++ ".wasm")] :=
      rfl
    rw [callOf?, if_pos (show c.program = "emcc" from rfl), hlast, hsource, houtputs, ← hbinary]
    rfl

/-- **Such tools** write their outputs whenever they can. -/
theorem writesOutputs_copier (root : String) (h : Host) :
    copier.WritesOutputs ⟨root, usualTools⟩ h (copied h.cwd) := by
  have hcall (inputs : Inputs) (s : Stage) :=
    callOf?_commandFor (Pipeline.nextWorkspace ⟨root, usualTools⟩ h) inputs s
  refine ⟨fun ws t inputs s _ _ hnone => ?_, fun ws t inputs s data _ _ hsome => ?_⟩
  · rintro ⟨d, hd, hstatus, -⟩
    unfold copied at hnone
    simp only [copier, hcall inputs s] at hd
    split at hnone
    · cases hnone
    · next hread =>
      split at hd
      · next b data hdata => exact hread b data hdata
      · cases hd
        cases hstatus
  · intro c _
    have houtputs : c.outputs = _ := Stage.outputs_commandFor _ _ inputs s
    have hzip (stem path : String) (content : Bytes) :
        ((s.outputNames stem).map (Path.join path)).zip ((s.outputNames "").map fun _ => content) =
          ((s.outputNames stem).map (Path.join path)).map (·, content) := by
      cases s <;> rfl
    have hlength (stem : String) : (s.outputNames "").length = (s.outputNames stem).length := by
      cases s <;> rfl
    unfold copied at hsome
    split at hsome
    · next b content hread =>
      obtain rfl := Option.some.inj hsome
      refine ⟨⟨?_, by simp⟩, ⟨[], t.writeEach h.cwd (c.outputs.map (·, b :: content)),
        some (0, .exited 0)⟩, ?_, rfl, ?_⟩
      · rw [houtputs, List.length_map, List.length_map]
        exact hlength _
      · simp only [copier, c, hcall inputs s, hread]
      · rw [houtputs, hzip]
    · cases hsome

/-! ## Long names -/

/-- Data that is not too long fits. -/
theorem Bundle.isShort_of_le {data : Bytes} (h : data.length ≤ maxSource) : IsShort data := by
  have hblocks := Archive.length_deflate_le data
  have hcount : data.length / Archive.maxBlock ≤ maxSource / Archive.maxBlock :=
    Nat.div_le_div_right h
  rw [show maxSource / Archive.maxBlock = 16384 from rfl] at hcount
  unfold maxSource at h
  unfold IsShort
  omega

/-- A host with tools that copy. -/
def copierHost : Host :=
  ({ files := precious } : Host).withTools copier

theorem copied_of_offers {cwd : Place} {t : Tree} {source : String} {b : UInt8} {data : Bytes}
    (hsound : t.IsSound) (hoffers : t.Offers cwd source (b :: data)) (s : Stage) :
    copied cwd s source t = some ((s.outputNames "").map fun _ => b :: data) := by
  obtain ⟨opened, hopen, hread⟩ := hoffers.read_ok hsound
  have hread' : t.read cwd source = .ok (b :: data) := by
    rw [Tree.read, hopen]
    exact hread
  rw [copied, hread']

/-- **What tools that copy make** of inputs that are not empty. -/
theorem contents?_copied {base t : Tree} {cwd ws : Place} {path : String} {supply : Role → Supply}
    (hsite : base.Site cwd path ws) (hpath : Path.IsOpen path)
    (hshape : InShape ws base cwd path supply t) (data : Role → Bytes)
    (hdata : ∀ role, (supply role).data = 1 :: data role) :
    contents? (copied cwd) cwd path supply t = some {
      lexer := 1 :: data .lexer
      parser := 1 :: data .grammar
      interpreter := (supply .interpreter).data
      glue := 1 :: data .interpreter
      binary := 1 :: data .interpreter
      documentation := (supply .documentation).data
      sample := (supply .example).data } := by
  have hverdict {t : Tree} (hshape : InShape ws base cwd path supply t) (s : Stage) (role : Role)
      (hrole : (Inputs.ofSupplies path supply).source s = ((supply role).input path role).path) :
      copied cwd s ((Inputs.ofSupplies path supply).source s) t =
        some ((s.outputNames "").map fun _ => 1 :: data role) := by
    rw [hrole]
    exact copied_of_offers hshape.sound (hdata role ▸ hshape.stored role) s
  have hwritten {t : Tree} (hshape : InShape ws base cwd path supply t) (s : Stage) (d : Bytes) :=
    (hshape.written hsite hpath usualTools s (show ((s.outputNames "").map fun _ => d).length = _ by
      cases s <;> rfl)).1
  unfold contents?
  refine Option.bind_eq_some_iff.2 ⟨_, hverdict hshape .grammar .grammar rfl, ?_⟩
  have hshape₁ := hwritten hshape .grammar (1 :: data .grammar)
  refine Option.bind_eq_some_iff.2 ⟨_, hverdict hshape₁ .lexer .lexer rfl, ?_⟩
  have hshape₂ := hwritten hshape₁ .lexer (1 :: data .lexer)
  exact Option.bind_eq_some_iff.2 ⟨_, hverdict hshape₂ .link .interpreter rfl, rfl⟩

/-! ## Builds with long names -/

/-- Names of five files, that of the interpreter with a stem of some letters. -/
def letteredNames (letters : Nat) : Role → String
  | .grammar => "calc.y"
  | .lexer => "calc.l"
  | .interpreter => String.ofList (List.replicate letters 'a') ++ "." ++ "c"
  | .documentation => "README.md"
  | .example => "sum.calc"

theorem letteredNames_eq {m n : Nat} {role : Role} (h : role ≠ .interpreter) :
    letteredNames m role = letteredNames n role :=
  match role, h with
  | .interpreter, h => absurd rfl h
  | .grammar, _ | .lexer, _ | .documentation, _ | .example, _ => rfl

/-- Five fields with one byte each, under some names. -/
def namedFields (name : Role → String) : List Field :=
  Role.all.map fun role => ⟨⟨some role.partName, some (name role)⟩, [[1]]⟩

theorem sent_namedFields (name : Role → String) (role : Role) :
    sent (namedFields name) role = ⟨some (name role), [[1]]⟩ := by
  cases role <;> rfl

theorem data_namedFields (name : Role → String) (role : Role) :
    (sent (namedFields name) role).data = [1] := by
  rw [sent_namedFields]
  rfl

section
variable {letters : Nat} (hletters : 0 < letters)
include hletters

theorem isStemText_letters : IsStemText (String.ofList (List.replicate letters 'a')) := by
  refine ⟨fun hempty => ?_, fun c hc => ?_⟩
  · have hlist := congrArg String.toList hempty
    rw [String.toList_ofList] at hlist
    exact hletters.ne' (List.replicate_eq_nil_iff _ |>.1 hlist)
  · rw [String.toList_ofList] at hc
    rw [List.eq_of_mem_replicate hc]
    decide

omit hletters in
theorem isStemText_c : IsStemText "c" :=
  ⟨by decide, List.all_eq_true.1 (by decide)⟩

/-- The entry of the interpreter has its own name. -/
theorem entryName_letters : (sent (namedFields (letteredNames letters)) .interpreter).entryName
    .interpreter = String.ofList (List.replicate letters 'a') ++ "." ++ "c" := by
  rw [sent_namedFields, Supply.entryName, Intake.entryName, Option.bind_some, letteredNames,
    (isStemText_letters hletters).ofDeclared?_eq isStemText_c, Option.getD_some]

omit hletters in
theorem utf8ByteSize_letters (n : Nat) :
    (String.ofList (List.replicate n 'a')).utf8ByteSize = n := by
  rw [String.utf8ByteSize_ofList]
  induction n with
  | zero => rfl
  | succ n ih =>
    rw [List.replicate_succ, String.utf8Len_cons, ih]
    rfl

/-- The stem of the module has as many letters. -/
theorem moduleStem_letters :
    (moduleStem ((sent (namedFields (letteredNames letters)) .interpreter).entryName
      .interpreter)).utf8ByteSize = letters := by
  rw [entryName_letters hletters, (isStemText_letters hletters).moduleStem_eq (by decide) (by decide),
    utf8ByteSize_letters]

/-- **Names of up to 250 letters** fit. -/
theorem namesFit_letters (hshort : letters ≤ 250) :
    NamesFit firstPath (sent (namedFields (letteredNames letters))) := by
  refine .of_le ((moduleStem_letters hletters).trans_le hshort) (by decide) fun role => ?_
  by_cases hrole : role = .interpreter
  · subst hrole
    rw [entryName_letters hletters, String.utf8ByteSize_append, String.utf8ByteSize_append,
      utf8ByteSize_letters, show ".".utf8ByteSize = 1 from rfl, show "c".utf8ByteSize = 1 from rfl]
    omega
  · have hfixed : ∀ role ∈ Role.all, role ≠ .interpreter →
        ((⟨some (letteredNames 1 role), [[1]]⟩ : Supply).entryName role).utf8ByteSize ≤ 65500 := by
      decide +kernel
    rw [sent_namedFields, letteredNames_eq hrole]
    exact hfixed role role.mem_all hrole

/-- Names of more letters do not. -/
theorem not_namesFit_letters (hlong : 250 < letters) :
    ¬ NamesFit firstPath (sent (namedFields (letteredNames letters))) := by
  intro hfit
  have hstem := hfit.stem
  rw [moduleStem_letters hletters] at hstem
  unfold maxName at hstem
  omega

end

/-- The extension under which the interpreter is stored. -/
theorem extension_letters {letters : Nat} (hletters : 0 < letters) :
    (sent (namedFields (letteredNames letters)) .interpreter).extension .interpreter = "c" := by
  rw [Supply.extension, entryName_letters hletters, EntryName.safeExtension?,
    (isStemText_letters hletters).extension?_eq isStemText_c]
  decide

/-- Fields with names of different numbers of letters differ in nothing else. -/
theorem renamed_letters {m n : Nat} (hm : 0 < m) (hn : 0 < n) :
    List.Forall₂ Field.Renamed (namedFields (letteredNames m)) (namedFields (letteredNames n)) := by
  rw [namedFields, namedFields, List.forall₂_map_left_iff, List.forall₂_map_right_iff,
    List.forall₂_same]
  refine fun role _ => ⟨rfl, rfl, fun role' hrole => ?_⟩
  obtain rfl : role = role' := by
    have hown : ∀ role ∈ Role.all, Http.Upload.roleOf? ⟨some role.partName, none⟩ = some role := by
      decide
    exact Option.some.inj ((hown role role.mem_all).symm.trans hrole)
  by_cases hinterpreter : role = .interpreter
  · subst hinterpreter
    have hextension := (extension_letters hn).trans (extension_letters hm).symm
    rw [sent_namedFields, sent_namedFields] at hextension
    exact hextension
  · rw [letteredNames_eq hinterpreter]

theorem site_copierHost : copierHost.files.Site copierHost.cwd firstPath firstPlace :=
  site_staleHost

theorem nextWorkspace_copierHost :
    Pipeline.nextWorkspace ⟨"/", usualTools⟩ copierHost = firstPath := by
  decide +kernel

/-- No source of such fields is long. -/
theorem sourcesFit_namedFields (name : Role → String) :
    SourcesFit ⟨"/", usualTools⟩ copierHost (copied copierHost.cwd) (sent (namedFields name)) := by
  intro ws t c hsite hshape hc
  rw [contents?_copied hsite (isOpen_nextWorkspace _ _) hshape (fun _ => [])
    (data_namedFields name)] at hc
  obtain rfl := Option.some.inj hc
  simp [Contents.sources, data_namedFields, maxSource]

/-- **The build** of such fields succeeds if the names fit. -/
theorem succeeds_namedFields {name : Role → String}
    (hfit : NamesFit firstPath (sent (namedFields name))) :
    Pipeline.Succeeds ⟨"/", usualTools⟩ (namedFields name) copierHost := by
  let p : Pipeline := ⟨"/", usualTools⟩
  have hcalls : copierHost.CallsOnly copier := Host.callsOnly_withTools _ _
  have hroles : Http.Upload.roles (namedFields name) = Role.all := rfl
  have hnext : p.nextWorkspace copierHost = firstPath := nextWorkspace_copierHost
  obtain ⟨w, h₀, hacquire⟩ := acquireWorkspace_ok (p := p) (h := copierHost)
    (hnext ▸ site_copierHost)
  have hw : w.path = firstPath :=
    (acquireWorkspace_eq_ok hcalls isSound_precious isReal_nil hacquire).1.1.trans hnext
  have hquiet := Http.Upload.quiet_of_hasRoom isSound_precious isReal_nil hacquire
    (hw ▸ hasRoom_firstPath) (hw ▸ by decide +kernel) (namedFields name)
  obtain ⟨i, h₁, hstore, -⟩ := Http.Upload.storeFields_ok hquiet (hroles ▸ by decide)
  obtain ⟨inputs, hfinish⟩ : ∃ inputs, i.finish = .ok inputs := by
    obtain ⟨hstored, -⟩ := Http.Upload.offers_of_storeFields isSound_precious isReal_nil hacquire
      (hroles ▸ by decide) hstore
    refine ⟨.ofSupplies w.path (sent (namedFields name)), Intake.finish_of_stored fun role => ?_⟩
    have hmem : role ∈ Http.Upload.roles (namedFields name) := hroles ▸ role.mem_all
    obtain ⟨f, hf, hrole, hsupply⟩ := Http.Upload.exists_sent hmem
    rw [hsupply]
    exact (hstored f hf role hrole).1
  obtain ⟨ws, hstored⟩ := Http.Upload.storedBy isSound_precious isReal_nil hacquire hstore hfinish
  have hsite := hstored.site
  have hinputs := hstored.inputs
  rw [hstored.path] at hsite hinputs
  have hshape := hstored.stocked.inShape hsite hstored.prepared.tidy (isOpen_nextWorkspace p _)
    (hnext ▸ hasRoom_firstPath) (hnext ▸ hfit)
  have hcontents := contents?_copied hsite (isOpen_nextWorkspace p _) hshape (fun _ => [])
    (data_namedFields name)
  obtain ⟨bundle, h₂, hbuild⟩ := ((writesOutputs_copier "/" copierHost).build_iff hsite hshape rfl
    (hstored.calls _ hcalls) hstored.cwd (hnext ▸ hfit)
    (sourcesFit_namedFields name ws _ · hsite hshape)).2 ⟨_, hcontents, fun d hd => by
      obtain rfl : d = [1] := by 
        simpa [Contents.sources, Contents.deliverables, data_namedFields] using hd
      exact Bundle.isShort_of_le (by decide)⟩
  refine ⟨w, h₀, bundle, h₂, hacquire, ?_⟩
  unfold Pipeline.produce
  simp only [hstore, hfinish]
  rw [hstored.path, hinputs]
  exact hbuild

/-! ## The law -/

/-- **Two uploads that are equal but for the declared names**, which give the same extensions, come to
the same with such tools if the names fit: one build succeeds exactly if the other one does.  If the
names do not fit, the build fails. -/
theorem Pipeline.succeeds_iff_of_renamed {p : Pipeline} {h : Host} {fields fields' : List Field}
    (hsound : h.files.IsSound) (hcwd : IsReal h.cwd) {f : ToolFunction} {verdict : Verdict}
    (hcalls : h.CallsOnly f) (hwrites : f.WritesOutputs p h verdict)
    (hroom : Path.HasRoom (p.nextWorkspace h) 30)
    (hsources : SourcesFit p h verdict (sent fields))
    (hrenamed : List.Forall₂ Field.Renamed fields fields') :
    (NamesFit (p.nextWorkspace h) (sent fields) → NamesFit (p.nextWorkspace h) (sent fields') →
      (p.Succeeds fields h ↔ p.Succeeds fields' h)) ∧
    (¬ NamesFit (p.nextWorkspace h) (sent fields) → ¬ p.Succeeds fields h) := by
  refine ⟨fun hfit hfit' => ⟨fun hsucceeds => ?_, fun hsucceeds => ?_⟩,
    fun hlong hsucceeds => hlong (hsucceeds.namesFit hsound hcwd)⟩
  · exact hsucceeds.of_renamed hsound hcwd hcalls hwrites hroom (.inl hsources) hrenamed hfit'
  · exact hsucceeds.of_renamed hsound hcwd hcalls hwrites hroom (.inr hsources)
      (hrenamed.flip.imp fun _ _ => Field.Renamed.symm) hfit

theorem succeeds_iff_letters :
    let p : Pipeline := ⟨"/", usualTools⟩
    let fields := namedFields (letteredNames 1)
    let fields' := namedFields (letteredNames 250)
    (copierHost.files.IsSound ∧ IsReal copierHost.cwd ∧ copierHost.CallsOnly copier ∧
      copier.WritesOutputs p copierHost (copied copierHost.cwd) ∧
      Path.HasRoom (p.nextWorkspace copierHost) 30 ∧
      SourcesFit p copierHost (copied copierHost.cwd) (sent fields) ∧
      List.Forall₂ Field.Renamed fields fields') ∧
    ((NamesFit (p.nextWorkspace copierHost) (sent fields) →
      NamesFit (p.nextWorkspace copierHost) (sent fields') →
        (p.Succeeds fields copierHost ↔ p.Succeeds fields' copierHost)) ∧
      (¬ NamesFit (p.nextWorkspace copierHost) (sent fields) → ¬ p.Succeeds fields copierHost)) ∧
    p.Succeeds fields copierHost ∧ p.Succeeds fields' copierHost := by
  intro p fields fields'
  have hcalls : copierHost.CallsOnly copier := Host.callsOnly_withTools _ _
  have hwrites := writesOutputs_copier "/" copierHost
  have hroom : Path.HasRoom (p.nextWorkspace copierHost) 30 :=
    nextWorkspace_copierHost ▸ hasRoom_firstPath
  have hsources := sourcesFit_namedFields (letteredNames 1)
  have hrenamed := renamed_letters (m := 1) (n := 250) (by decide) (by decide)
  have hfit := namesFit_letters Nat.one_pos (by decide)
  exact ⟨⟨isSound_precious, isReal_nil, hcalls, hwrites, hroom, hsources, hrenamed⟩,
    Pipeline.succeeds_iff_of_renamed isSound_precious isReal_nil hcalls hwrites hroom hsources
      hrenamed,
    succeeds_namedFields hfit,
    succeeds_namedFields (namesFit_letters (by decide) (le_refl 250))⟩

/-- **One letter more** and the build fails, for the module cannot have such a name. -/
theorem not_succeeds_letters :
    let p : Pipeline := ⟨"/", usualTools⟩
    let fields := namedFields (letteredNames 1)
    let fields' := namedFields (letteredNames 251)
    copierHost.CallsOnly copier ∧ copier.WritesOutputs p copierHost (copied copierHost.cwd) ∧
      List.Forall₂ Field.Renamed fields fields' ∧ p.Succeeds fields copierHost ∧
      ¬ p.Succeeds fields' copierHost := by
  intro p fields fields'
  refine ⟨Host.callsOnly_withTools _ _, writesOutputs_copier "/" copierHost,
    renamed_letters (by decide) (by decide),
    succeeds_namedFields (namesFit_letters (by decide) (by decide)), fun hsucceeds => ?_⟩
  have hfit := hsucceeds.namesFit isSound_precious isReal_nil
  rw [nextWorkspace_copierHost] at hfit
  exact not_namesFit_letters (by decide) (by decide) hfit

end LangBundle
