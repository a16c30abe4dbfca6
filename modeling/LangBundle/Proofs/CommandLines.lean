import LangBundle.Proofs.EntryNames
import LangBundle.Proofs.TakingIn
import LangBundle.Stage.Run

/-!
# What a request puts into paths and command lines

A request chooses the names of its five inputs.  Of these nothing reaches a path or a command line
but a `Naming`: one extension for each role, and the stem of the module.

* `Naming.isSafe_ofSupplies`: **the pieces**: extensions are a few letters and digits, and the stem
  is plain.
* `args_commandFor`: a command line is filled in from a row of pieces that no request has a part in.
* `nodup_names_buildPaths`: the files of a build do not get in each other's way.
* `commandLines_of_supplies`: **all of this together**.
-/

namespace LangBundle

open Stage (Command commandFor)
open Text

/-- What the names of a request decide. -/
structure Naming where
  extension : Role → String
  stem : String

namespace Naming

/-- The naming of five uploads. -/
def ofSupplies (supply : Role → Supply) : Naming where
  extension role := (supply role).extension role
  stem := moduleStem ((supply .interpreter).entryName .interpreter)

theorem stem_ofSupplies (supply : Role → Supply) :
    (ofSupplies supply).stem = moduleStem ((supply .interpreter).entryName .interpreter) := by
  rw [ofSupplies]

/-- Extensions are of one to eight letters and digits, and the stem is of letters, digits, `_` and
`-`. -/
structure IsSafe (n : Naming) : Prop where
  extension : ∀ role, 1 ≤ (n.extension role).length ∧ (n.extension role).length ≤ 8 ∧
    ∀ c ∈ (n.extension role).toList, isAsciiAlphanumeric c = true
  stem : n.stem ≠ "" ∧ ∀ c ∈ n.stem.toList, isStemChar c = true

end Naming

/-- A piece of an argument. -/
inductive Piece where
  | fixed (text : String)
  /-- The extension of a stored input. -/
  | extension (role : Role)
  /-- The stem of the module. -/
  | stem

namespace Piece

/-- The text of a piece. -/
def text (n : Naming) : Piece → String
  | .fixed text => text
  | .extension role => n.extension role
  | .stem => n.stem

/-- Whether a request decides a piece. -/
def IsRequested : Piece → Prop
  | .fixed _ => False
  | .extension _ | .stem => True

/-- The text of a row of pieces. -/
def render (n : Naming) (pieces : List Piece) : String :=
  pieces.foldr (fun p rest => p.text n ++ rest) ""

end Piece

/-! ## Extensions and stems -/

theorem length_ofList_le_utf8ByteSize (cs : List Char) :
    cs.length ≤ (String.ofList cs).utf8ByteSize := by
  induction cs with
  | nil => simp
  | cons c cs ih =>
    have hsize : (String.ofList (c :: cs)).utf8ByteSize =
        c.utf8Size + (String.ofList cs).utf8ByteSize := by
      rw [← List.singleton_append, String.ofList_append, String.utf8ByteSize_append,
        ← String.singleton_eq_ofList, String.utf8ByteSize_singleton]
    have hpos := c.utf8Size_pos
    rw [hsize, List.length_cons]
    omega

theorem safeExtension?_eq_some {name ext : String}
    (h : EntryName.safeExtension? name = some ext) :
    1 ≤ ext.length ∧ ext.length ≤ 8 ∧ ∀ c ∈ ext.toList, isAsciiAlphanumeric c = true := by
  obtain ⟨-, hext⟩ := Option.filter_eq_some_iff.1 h
  simp only [Bool.and_eq_true, Bool.not_eq_true', decide_eq_true_eq, List.all_eq_true] at hext
  obtain ⟨⟨hempty, hsize⟩, hchars⟩ := hext
  have hlength := length_ofList_le_utf8ByteSize ext.toList
  rw [String.ofList_toList, String.length_toList] at hlength
  refine ⟨?_, Nat.le_trans hlength hsize, hchars⟩
  refine Nat.pos_of_ne_zero fun hzero => ?_
  simp_all

theorem moduleStem_ne_empty (entry : String) : moduleStem entry ≠ "" := by
  unfold moduleStem
  dsimp only
  split
  · decide
  · assumption

theorem isStemChar_of_mem_moduleStem {entry : String} {c : Char}
    (hc : c ∈ (moduleStem entry).toList) : isStemChar c = true := by
  unfold moduleStem at hc
  dsimp only at hc
  split at hc
  · exact List.all_eq_true.1 (by decide) c hc
  · rw [String.toList_ofList] at hc
    exact (List.mem_filter.1 hc).2

theorem defaultExtension_safe (role : Role) :
    1 ≤ role.defaultExtension.length ∧ role.defaultExtension.length ≤ 8 ∧
      ∀ c ∈ role.defaultExtension.toList, isAsciiAlphanumeric c = true := by
  cases role <;> exact ⟨by decide, by decide, List.all_eq_true.1 (by decide)⟩

theorem extension_safe (role : Role) (s : Supply) :
    1 ≤ (s.extension role).length ∧ (s.extension role).length ≤ 8 ∧
      ∀ c ∈ (s.extension role).toList, isAsciiAlphanumeric c = true := by
  unfold Supply.extension
  rcases hext : EntryName.safeExtension? (s.entryName role) with _ | ext
  · exact defaultExtension_safe role
  · exact safeExtension?_eq_some hext

/-- **The pieces** of a request. -/
theorem Naming.isSafe_ofSupplies (supply : Role → Supply) : (ofSupplies supply).IsSafe := by
  refine ⟨fun role => ?_, ?_⟩
  · exact extension_safe role (supply role)
  · dsimp only [ofSupplies]
    exact ⟨moduleStem_ne_empty _, fun c hc => isStemChar_of_mem_moduleStem hc⟩

/-! ## Command lines -/

/-- The pieces of the path of a stored input. -/
def storedPieces (workspace : String) (role : Role) : List Piece :=
  [.fixed (Path.join (Path.join workspace inputsDirectory) (role.partName ++ ".")), .extension role]

/-- The pieces of the arguments of a stage's command. -/
def argumentPieces (tools : Toolchain) (workspace : String) : Stage → List (List Piece)
  | .grammar =>
    [[.fixed "-d"], [.fixed "-o"], [.fixed (Path.join workspace Stage.parserSource)],
      storedPieces workspace .grammar]
  | .lexer =>
    [[.fixed "-o"], [.fixed (Path.join workspace Stage.lexerSource)],
      storedPieces workspace .lexer]
  | .link =>
    [[.fixed (Path.join workspace Stage.lexerSource)],
      [.fixed (Path.join workspace Stage.parserSource)], storedPieces workspace .interpreter] ++
    tools.supportLibs.map ([.fixed ·]) ++ [.fixed tools.optimization] ::
    tools.settings.flatMap (fun setting => [[.fixed "-s"], [.fixed setting]]) ++
    [[.fixed "-o"], [.fixed (Path.join workspace ""), .stem, .fixed ".js"]]

/-- What a file of a role is called before its extension. -/
theorem partName_dot (role : Role) :
    role.partName ++ "." ≠ "" ∧ Path.isAbsolute (role.partName ++ ".") = false := by
  cases role <;> decide

theorem render_storedPieces (workspace : String) (role : Role) (supply : Role → Supply) :
    Piece.render (.ofSupplies supply) (storedPieces workspace role) =
      ((supply role).input workspace role).path := by
  obtain ⟨hne, habs⟩ := partName_dot role
  simp only [Supply.input, Intake.fileName]
  rw [Path.join_append hne habs]
  simp [storedPieces, Piece.render, Piece.text, Naming.ofSupplies, Supply.extension]

theorem render_fixed (n : Naming) (text : String) : Piece.render n [.fixed text] = text := by
  simp [Piece.render, Piece.text]

theorem render_glue (n : Naming) (hstem : n.IsSafe) (workspace : String) :
    Piece.render n [.fixed (Path.join workspace ""), .stem, .fixed ".js"] =
      Path.join workspace (n.stem ++ ".js") := by
  have habs : Path.isAbsolute n.stem = false :=
    Path.isAbsolute_eq_false fun h => absurd (hstem.stem.2 _ h) (by decide)
  rw [Path.join_append hstem.stem.1 habs, Path.join_eq_append habs]
  simp [Piece.render, Piece.text, String.append_assoc]

/-- **A command line** is filled in from a row of pieces that no request has a part in. -/
theorem args_commandFor (tools : Toolchain) (workspace : String) (supply : Role → Supply)
    (s : Stage) :
    (commandFor tools workspace (.ofSupplies workspace supply) s).args =
      (argumentPieces tools workspace s).map (Piece.render (.ofSupplies supply)) := by
  cases s with
  | grammar =>
    simp only [commandFor, Command.grammar, argumentPieces, List.map_cons, List.map_nil,
      render_fixed, render_storedPieces, Inputs.ofSupplies]
  | lexer =>
    simp only [commandFor, Command.lexer, argumentPieces, List.map_cons, List.map_nil,
      render_fixed, render_storedPieces, Inputs.ofSupplies]
  | link =>
    have hglue := render_glue _ (Naming.isSafe_ofSupplies supply) workspace
    simp only [commandFor, Command.link, Command.compile, argumentPieces, List.map_cons,
      List.map_nil, List.map_append, List.map_map, List.map_flatMap, render_fixed,
      render_storedPieces, hglue, Inputs.ofSupplies, Function.comp_def, List.map_id_fun', id,
      Supply.entryName_input, Naming.stem_ofSupplies]

theorem storedPieces_eq (workspace : String) (role : Role) :
    ∃ text rest, storedPieces workspace role = .fixed text :: rest ∧
      workspace.toList <+: text.toList := by
  obtain ⟨-, habs⟩ := partName_dot role
  refine ⟨_, _, rfl, ?_⟩
  exact (Path.prefix_join (by decide) workspace).trans (Path.prefix_join habs _)

/-- Only behind the path of the workspace does a request have a part in an argument. -/
theorem workspace_prefix_of_isRequested {tools : Toolchain} {workspace : String} {s : Stage}
    {argument : List Piece} (hargument : argument ∈ argumentPieces tools workspace s)
    (hrequested : ∃ p ∈ argument, p.IsRequested) :
    ∃ text rest, argument = .fixed text :: rest ∧ workspace.toList <+: text.toList := by
  have hfixed {text : String} (h : argument = [.fixed text]) : False := by
    obtain ⟨p, hp, hrequested⟩ := hrequested
    rw [h, List.mem_singleton] at hp
    subst hp
    exact hrequested
  cases s with
  | grammar =>
    simp only [argumentPieces, List.mem_cons, List.not_mem_nil, or_false] at hargument
    obtain h | h | h | rfl := hargument
    · exact (hfixed h).elim
    · exact (hfixed h).elim
    · exact (hfixed h).elim
    · exact storedPieces_eq workspace .grammar
  | lexer =>
    simp only [argumentPieces, List.mem_cons, List.not_mem_nil, or_false] at hargument
    obtain h | h | rfl := hargument
    · exact (hfixed h).elim
    · exact (hfixed h).elim
    · exact storedPieces_eq workspace .lexer
  | link =>
    simp only [argumentPieces, List.mem_append, List.mem_cons, List.mem_map, List.mem_flatMap,
      List.not_mem_nil, or_false] at hargument
    obtain (((h | h | rfl) | ⟨_, -, h⟩) | h | ⟨_, -, h | h⟩) | h | rfl := hargument
    · exact (hfixed h).elim
    · exact (hfixed h).elim
    · exact storedPieces_eq workspace .interpreter
    · exact (hfixed h.symm).elim
    · exact (hfixed h).elim
    · exact (hfixed h).elim
    · exact (hfixed h).elim
    · exact (hfixed h).elim
    · exact ⟨_, _, rfl, Path.prefix_join (by decide) workspace⟩

/-! ## Files -/

/-- The files that a build makes directly in its workspace. -/
def madeNames (stem : String) : List String :=
  [Stage.parserSource, Stage.parserHeader, Stage.lexerSource, stem ++ ".js", stem ++ ".wasm",
    Bundle.sourcesArchive, Bundle.resultArchive]

/-- The paths of the files that a build makes: the stored inputs, what the tools make, and the two
archives. -/
def buildPaths (workspace : String) (inputs : Inputs) : List String :=
  inputs.toList.map (·.path) ++
    (madeNames (moduleStem inputs.interpreter.entryName)).map (Path.join workspace)

/-- A path lies directly in a directory: behind the directory's names it has one name, which leads
nowhere else. -/
structure LiesIn (directory path : String) : Prop where
  isAbsolute : Path.isAbsolute path = Path.isAbsolute directory
  names : ∃ name, Path.names path = Path.names directory ++ [name] ∧ Path.IsPlain name ∧
    name ≠ ".."

theorem liesIn_join {name : String} (h : Path.IsPlain name) (hup : name ≠ "..")
    (directory : String) : LiesIn directory (Path.join directory name) :=
  ⟨Path.isAbsolute_join (Path.isAbsolute_eq_false h.noSlash) directory, name,
    Path.names_join h directory, h, hup⟩

/-- What stands in a name from its first dot on. -/
def ending (name : String) : List Char :=
  name.toList.dropWhile (· != '.')

theorem ending_append {stem rest : String} (hstem : '.' ∉ stem.toList)
    (hrest : rest.toList.head? = some '.') : ending (stem ++ rest) = rest.toList := by
  have hnot : ∀ c ∈ stem.toList, (c != '.') = true := fun c hc =>
    bne_iff_ne.2 (ne_of_mem_of_not_mem hc hstem)
  obtain ⟨cs, hcs⟩ := List.head?_eq_some_iff.1 hrest
  rw [ending, String.toList_append, List.dropWhile_append_of_pos hnot, hcs]
  simp

section
variable {n : Naming} (hn : n.IsSafe)
include hn

/-- The name of a stored input's file. -/
theorem isPlain_stored (role : Role) :
    Path.IsPlain (role.partName ++ "." ++ n.extension role) ∧
      role.partName ++ "." ++ n.extension role ≠ ".." := by
  have hslash : '/' ∉ (role.partName ++ "." ++ n.extension role).toList := by
    intro h
    rw [String.toList_append, List.mem_append] at h
    obtain h | h := h
    · revert h
      cases role <;> decide
    · exact absurd ((hn.extension role).2.2 _ h) (by decide)
  obtain ⟨c, cs, hcs, hc⟩ : ∃ c cs, role.partName.toList = c :: cs ∧ c ≠ '.' := by
    cases role <;> exact ⟨_, _, rfl, by decide⟩
  have hhead : (role.partName ++ "." ++ n.extension role).toList =
      c :: (cs ++ '.' :: (n.extension role).toList) := by
    simp [String.toList_append, hcs]
  exact Path.isPlain_of_head hhead hc hslash

theorem Naming.IsSafe.isStemText : EntryName.IsStemText n.stem :=
  ⟨hn.stem.1, hn.stem.2⟩

theorem isPlain_of_mem_madeNames {name : String} (h : name ∈ madeNames n.stem) :
    Path.IsPlain name ∧ name ≠ ".." := by
  simp only [madeNames, List.mem_cons, List.not_mem_nil, or_false] at h
  obtain rfl | rfl | rfl | rfl | rfl | rfl | rfl := h
  · exact Path.isPlain_of_head rfl (by decide) (by decide)
  · exact Path.isPlain_of_head rfl (by decide) (by decide)
  · exact Path.isPlain_of_head rfl (by decide) (by decide)
  · exact hn.isStemText.isPlain_append (by decide)
  · exact hn.isStemText.isPlain_append (by decide)
  · exact Path.isPlain_of_head rfl (by decide) (by decide)
  · exact Path.isPlain_of_head rfl (by decide) (by decide)

theorem nodup_madeNames : (madeNames n.stem).Nodup := by
  have hdot : '.' ∉ n.stem.toList := hn.isStemText.not_mem (by decide)
  have hjs : ending (n.stem ++ ".js") = ".js".toList := ending_append hdot rfl
  have hwasm : ending (n.stem ++ ".wasm") = ".wasm".toList := ending_append hdot rfl
  have hne {a b : String} (h : ending a ≠ ending b) : a ≠ b := fun e => h (e ▸ rfl)
  simp only [madeNames, List.nodup_cons, List.mem_cons, List.not_mem_nil, or_false, not_or]
  refine ⟨⟨by decide, by decide, ?_, ?_, by decide, by decide⟩,
    ⟨by decide, ?_, ?_, by decide, by decide⟩, ⟨?_, ?_, by decide, by decide⟩, ⟨?_, ?_, ?_⟩,
    ⟨?_, ?_⟩, by decide, by decide, List.nodup_nil⟩
  -- what is left compares the module's two files with each other and with the rest
  all_goals
    refine hne ?_
    simp only [hjs, hwasm]
    decide

end

theorem partName_of_stored_eq {n : Naming} {role other : Role}
    (h : role.partName ++ "." ++ n.extension role = other.partName ++ "." ++ n.extension other) :
    role = other := by
  have hbefore (role : Role) :
      (role.partName ++ "." ++ n.extension role).toList.takeWhile (· != '.') =
        role.partName.toList := by
    cases role <;> simp [String.toList_append, Role.partName]
  have hname : role.partName = other.partName := by
    rw [← String.toList_inj, ← hbefore role, ← hbefore other, h]
  have hrole := Role.ofPartName?_partName role
  rw [hname, Role.ofPartName?_partName] at hrole
  exact (Option.some.inj hrole).symm

/-- The paths of a build as texts behind the workspace. -/
theorem buildPaths_ofSupplies (workspace : String) (supply : Role → Supply) :
    let n := Naming.ofSupplies supply
    buildPaths workspace (.ofSupplies workspace supply) =
      Role.all.map (fun role => Path.join (Path.join workspace inputsDirectory)
        (role.partName ++ "." ++ n.extension role)) ++
      (madeNames n.stem).map (Path.join workspace) := by
  simp only [buildPaths, Inputs.toList, Inputs.ofSupplies, Naming.ofSupplies, Role.all,
    List.map_cons, List.map_nil, Supply.entryName_input]
  simp only [Supply.input, Supply.extension, Intake.fileName]

/-- **The files of a build** do not get in each other's way. -/
theorem nodup_names_buildPaths (workspace : String) (supply : Role → Supply) :
    ((buildPaths workspace (.ofSupplies workspace supply)).map Path.names).Nodup := by
  have hn := Naming.isSafe_ofSupplies supply
  obtain ⟨hinputs, -⟩ : Path.IsPlain inputsDirectory ∧ inputsDirectory ≠ ".." :=
    Path.isPlain_of_head rfl (by decide) (by decide)
  have hstored (role : Role) : Path.names (Path.join (Path.join workspace inputsDirectory)
      (role.partName ++ "." ++ (Naming.ofSupplies supply).extension role)) =
      Path.names workspace ++ [inputsDirectory] ++
        [role.partName ++ "." ++ (Naming.ofSupplies supply).extension role] := by
    rw [Path.names_join (isPlain_stored hn role).1, Path.names_join hinputs]
  have hmade (name : String) (h : name ∈ madeNames (Naming.ofSupplies supply).stem) :
      Path.names (Path.join workspace name) = Path.names workspace ++ [name] :=
    Path.names_join (isPlain_of_mem_madeNames hn h).1 workspace
  rw [buildPaths_ofSupplies, List.map_append, List.map_map, List.map_map, List.nodup_append]
  refine ⟨?_, ?_, ?_⟩
  · refine List.pairwise_map.2 (Role.nodup_all.imp fun {role other} hne heq => hne ?_)
    simp only [Function.comp_apply, hstored] at heq
    exact partName_of_stored_eq (List.singleton_inj.1 (List.append_cancel_left heq))
  · refine List.pairwise_map.2 ((nodup_madeNames hn).imp_of_mem fun {a b} ha hb hne heq => hne ?_)
    simp only [Function.comp_apply, hmade a ha, hmade b hb] at heq
    exact List.singleton_inj.1 (List.append_cancel_left heq)
  · -- a stored input lies one directory deeper than what the build makes
    simp only [List.mem_map, Function.comp_apply]
    rintro _ ⟨role, -, rfl⟩ _ ⟨name, hname, rfl⟩ heq
    have hlength := congrArg List.length heq
    rw [hstored, hmade name hname] at hlength
    simp at hlength

theorem commandFor_congr {supply other : Role → Supply} (tools : Toolchain) (workspace : String)
    (h : Naming.ofSupplies other = Naming.ofSupplies supply) (s : Stage) :
    commandFor tools workspace (.ofSupplies workspace other) s =
      commandFor tools workspace (.ofSupplies workspace supply) s := by
  have hpath (role : Role) : ((other role).input workspace role).path =
      ((supply role).input workspace role).path := by
    rw [← render_storedPieces, ← render_storedPieces, h]
  have hstem : moduleStem ((other .interpreter).entryName .interpreter) =
      moduleStem ((supply .interpreter).entryName .interpreter) := by
    rw [← Naming.stem_ofSupplies, ← Naming.stem_ofSupplies, h]
  cases s <;>
    simp only [commandFor, Inputs.ofSupplies, hpath, hstem, Supply.entryName_input]

/-- **Whatever five uploads are called**, the files of their build lie apart in the workspace, and a
command line holds nothing of their names but safe extensions and the stem, behind the path of the
workspace. -/
theorem commandLines_of_supplies (tools : Toolchain) (workspace : String)
    (supply : Role → Supply) :
    let n := Naming.ofSupplies supply
    let inputs := Inputs.ofSupplies workspace supply
    -- these are the inputs, in whatever order they are taken in
    (∀ order h i h', order.Perm Role.all →
      Intake.takeAll supply order ({ workspace }, h) = .ok () (i, h') → i.finish = .ok inputs) ∧
    -- the twelve paths
    (buildPaths workspace inputs).Nodup ∧
    ((buildPaths workspace inputs).map Path.names).Nodup ∧
    LiesIn workspace (Path.join workspace inputsDirectory) ∧
    (∀ input ∈ inputs.toList, LiesIn (Path.join workspace inputsDirectory) input.path) ∧
    (∀ name ∈ madeNames n.stem, LiesIn workspace (Path.join workspace name)) ∧
    -- the three command lines
    n.IsSafe ∧
    (∀ s, (commandFor tools workspace inputs s).args =
      (argumentPieces tools workspace s).map (Piece.render n)) ∧
    (∀ s, ∀ argument ∈ argumentPieces tools workspace s, (∃ p ∈ argument, p.IsRequested) →
      ∃ text rest, argument = .fixed text :: rest ∧ workspace.toList <+: text.toList) ∧
    ∀ other, Naming.ofSupplies other = n → ∀ s,
      commandFor tools workspace (.ofSupplies workspace other) s =
        commandFor tools workspace inputs s := by
  intro n inputs
  have hn : n.IsSafe := Naming.isSafe_ofSupplies supply
  have hnames : ((buildPaths workspace inputs).map Path.names).Nodup :=
    nodup_names_buildPaths workspace supply
  have hdirectory : Path.IsPlain inputsDirectory ∧ inputsDirectory ≠ ".." :=
    Path.isPlain_of_head rfl (by decide) (by decide)
  refine ⟨fun order h i h' horder hrun => Intake.finish_of_takeAll horder hrun, ?_, hnames,
    liesIn_join hdirectory.1 hdirectory.2 workspace, ?_, ?_, hn,
    args_commandFor tools workspace supply,
    fun s argument hargument => workspace_prefix_of_isRequested hargument,
    fun other hother => commandFor_congr tools workspace hother⟩
  · exact (List.pairwise_map.1 hnames).imp fun hne heq => hne (congrArg Path.names heq)
  · have hlies (role : Role) : LiesIn (Path.join workspace inputsDirectory)
        ((supply role).input workspace role).path :=
      liesIn_join (isPlain_stored hn role).1 (isPlain_stored hn role).2 _
    intro input hinput
    simp only [inputs, Inputs.toList, Inputs.ofSupplies, List.mem_cons, List.not_mem_nil,
      or_false] at hinput
    obtain rfl | rfl | rfl | rfl | rfl := hinput <;> exact hlies _
  · intro name hname
    have hplain := isPlain_of_mem_madeNames hn hname
    exact liesIn_join hplain.1 hplain.2 workspace

end LangBundle
