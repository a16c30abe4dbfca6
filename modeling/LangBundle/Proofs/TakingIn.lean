import LangBundle.Intake

/-!
# Five uploads

What an uploader sends for a role is a declared name, or none, and data in pieces.

* `take_stored`: **one upload** that is taken in is kept under the path of its role.
* `finish_of_takeAll`: **all five**, in any order, are the inputs of the build.
-/

namespace LangBundle

/-- What is sent for a role. -/
structure Supply where
  declared : Option String
  pieces : List Bytes

namespace Supply

/-- The bytes that are sent. -/
def data (s : Supply) : Bytes :=
  s.pieces.flatten

/-- The name of the entry of what is sent for a role. -/
def entryName (role : Role) (s : Supply) : String :=
  Intake.entryName role s.declared

/-- The extension under which it is stored. -/
def extension (role : Role) (s : Supply) : String :=
  (EntryName.safeExtension? (s.entryName role)).getD role.defaultExtension

/-- The input that it becomes in a workspace. -/
def input (workspace : String) (role : Role) (s : Supply) : StoredInput where
  role := role
  path := Path.join (Path.join workspace inputsDirectory) (Intake.fileName role (s.entryName role))
  entryName := s.entryName role
  size := s.data.length

theorem entryName_input (workspace : String) (role : Role) (s : Supply) :
    (s.input workspace role).entryName = s.entryName role :=
  rfl

end Supply

/-- The inputs that five uploads become. -/
def Inputs.ofSupplies (workspace : String) (supply : Role → Supply) : Inputs where
  grammar := (supply .grammar).input workspace .grammar
  lexer := (supply .lexer).input workspace .lexer
  interpreter := (supply .interpreter).input workspace .interpreter
  documentation := (supply .documentation).input workspace .documentation
  sample := (supply .example).input workspace .example

namespace Intake

/-- Writes pieces one after the other. -/
def writeAll (u : Upload) : List Bytes → Step Upload
  | [] => return u
  | piece :: rest => do
    let u ← write u piece
    writeAll u rest

/-- Takes in what is sent for a role. -/
def take (role : Role) (s : Supply) : Step Unit := do
  let u ← begin role s.declared
  let u ← writeAll u s.pieces
  commit u

/-- Takes in what is sent for some roles, in their order. -/
def takeAll (supply : Role → Supply) : List Role → Step Unit
  | [] => return
  | role :: rest => do
    take role (supply role)
    takeAll supply rest

/-! ## The steps of one upload -/

section
variable {i i' : Intake} {h h' : Host} {u u' : Upload}

theorem begin_eq_ok {role : Role} {declared : Option String}
    (hbegin : begin role declared (i, h) = .ok u (i', h')) :
    i' = { i with claimed := role :: i.claimed } ∧ u.role = role ∧ u.written = 0 ∧
      u.entryName = entryName role declared ∧
      u.path = Path.join (Path.join i.workspace inputsDirectory) (fileName role u.entryName) := by
  simp only [begin] at hbegin
  split at hbegin
  · cases hbegin
  · split at hbegin
    · cases hbegin
    · split at hbegin
      · cases hbegin
      · cases hbegin
        exact ⟨rfl, rfl, rfl, rfl, rfl⟩

theorem write_eq_ok {piece : Bytes} (hwrite : write u piece (i, h) = .ok u' (i', h')) :
    i' = i ∧ u' = { u with written := u.written + piece.length } := by
  simp only [write] at hwrite
  split at hwrite
  · cases hwrite
  · cases hwrite
    exact ⟨rfl, rfl⟩

theorem writeAll_eq_ok {pieces : List Bytes}
    (hwrite : writeAll u pieces (i, h) = .ok u' (i', h')) :
    i' = i ∧ u' = { u with written := u.written + pieces.flatten.length } := by
  induction pieces generalizing u i h with
  | nil =>
    cases hwrite
    exact ⟨rfl, rfl⟩
  | cons piece rest ih =>
    obtain ⟨v, ⟨i₁, h₁⟩, hfirst, hrest⟩ := Service.bind_eq_ok hwrite
    obtain ⟨rfl, rfl⟩ := write_eq_ok hfirst
    obtain ⟨rfl, rfl⟩ := ih hrest
    simp [Nat.add_assoc]

/-- **One upload.** -/
theorem take_eq_ok {role : Role} {s : Supply} (htake : take role s (i, h) = .ok () (i', h')) :
    i' = { i with
      claimed := role :: i.claimed
      stored := s.input i.workspace role :: i.stored.filter (·.role ≠ role) } := by
  obtain ⟨u, ⟨i₁, h₁⟩, hbegin, hrest⟩ := Service.bind_eq_ok htake
  obtain ⟨v, ⟨i₂, h₂⟩, hwrite, hcommit⟩ := Service.bind_eq_ok hrest
  obtain ⟨rfl, hrole, hwritten, hentry, hpath⟩ := begin_eq_ok hbegin
  obtain ⟨rfl, rfl⟩ := writeAll_eq_ok hwrite
  cases hcommit
  rw [hentry] at hpath
  simp [hrole, hwritten, hentry, hpath, Supply.input, Supply.entryName, Supply.data]

end

/-! ## All uploads -/

/-- **What is recorded** for a role takes the place of what was there. -/
theorem stored?_record (i : Intake) (input : StoredInput) (other : Role) :
    stored? { i with stored := input :: i.stored.filter (·.role ≠ input.role) } other =
      if other = input.role then some input else i.stored? other := by
  by_cases hother : other = input.role
  · subst hother
    simp [stored?]
  · have hkept : (i.stored.filter (·.role ≠ input.role)).find? (·.role = other) =
        i.stored.find? (·.role = other) := by
      rw [List.find?_filter]
      congr 1
      funext kept
      by_cases hinput : kept.role = other <;> simp [hinput, hother]
    rw [if_neg hother, stored?, List.find?_cons, hkept]
    simp [Ne.symm hother, stored?]

theorem stored?_of_take {role : Role} {s : Supply} {i i' : Intake} {h h' : Host}
    (htake : take role s (i, h) = .ok () (i', h')) (other : Role) :
    i'.workspace = i.workspace ∧ i'.stored? other =
      if other = role then some (s.input i.workspace role) else i.stored? other := by
  obtain rfl := take_eq_ok htake
  exact ⟨rfl, stored?_record { i with claimed := role :: i.claimed } (s.input i.workspace role) other⟩

theorem stored?_of_takeAll {supply : Role → Supply} {order : List Role} {i i' : Intake}
    {h h' : Host} (hrun : takeAll supply order (i, h) = .ok () (i', h')) (role : Role) :
    i'.workspace = i.workspace ∧ i'.stored? role =
      if role ∈ order then some ((supply role).input i.workspace role) else i.stored? role := by
  induction order generalizing i h with
  | nil =>
    cases hrun
    exact ⟨rfl, by simp⟩
  | cons first rest ih =>
    obtain ⟨_, ⟨i₁, h₁⟩, htake, hrest⟩ := Service.bind_eq_ok hrun
    obtain ⟨hworkspace₁, hstored₁⟩ := stored?_of_take htake role
    obtain ⟨hworkspace, hstored⟩ := ih hrest
    refine ⟨hworkspace.trans hworkspace₁, ?_⟩
    rw [hstored, hstored₁, hworkspace₁]
    by_cases hrole : role = first
    · subst hrole
      simp
    · simp [hrole]

/-- **The end of the intake**: the inputs in intake order, or the first role that is missing. -/
theorem finish_cases (i : Intake) :
    (∃ inputs, i.finish = .ok inputs ∧ inputs.toList.map some = Role.all.map i.stored?) ∨
      ∃ role, i.finish = .error (.missingPart role.partName) ∧
        Role.all.find? (fun role => (i.stored? role).isNone) = some role := by
  have hfind (role : Role) (rest : List Role) :
      (role :: rest).find? (fun role => (i.stored? role).isNone) =
        if i.stored? role = none then some role
        else rest.find? (fun role => (i.stored? role).isNone) := by
    rcases hrole : i.stored? role with _ | input <;> simp [hrole]
  simp only [Role.all, hfind]
  rcases hg : i.stored? .grammar with _ | g
  · exact .inr ⟨.grammar, by simp [finish, hg]; rfl, rfl⟩
  rcases hl : i.stored? .lexer with _ | l
  · exact .inr ⟨.lexer, by simp [finish, hg, hl]; rfl, by simp⟩
  rcases hi : i.stored? .interpreter with _ | n
  · exact .inr ⟨.interpreter, by simp [finish, hg, hl, hi]; rfl, by simp⟩
  rcases hd : i.stored? .documentation with _ | d
  · exact .inr ⟨.documentation, by simp [finish, hg, hl, hi, hd]; rfl, by simp⟩
  rcases he : i.stored? .example with _ | e
  · exact .inr ⟨.example, by simp [finish, hg, hl, hi, hd, he]; rfl, by simp⟩
  · exact .inl ⟨⟨g, l, n, d, e⟩, by simp [finish, hg, hl, hi, hd, he]; rfl,
      by simp [Inputs.toList, hg, hl, hi, hd, he]⟩

/-- The first role that is missing is reported. -/
theorem finish_of_missing {i : Intake} {role : Role}
    (hfind : Role.all.find? (fun role => (i.stored? role).isNone) = some role) :
    i.finish = .error (.missingPart role.partName) := by
  rcases i.finish_cases with ⟨inputs, -, hall⟩ | ⟨other, hfinish, hfind'⟩
  · have hmem : i.stored? role ∈ inputs.toList.map some := hall ▸ List.mem_map_of_mem role.mem_all
    obtain ⟨input, -, hinput⟩ := List.mem_map.1 hmem
    have hnone := List.find?_some hfind
    rw [← hinput] at hnone
    cases hnone
  · rw [hfind] at hfind'
    obtain rfl := Option.some.inj hfind'
    exact hfinish

/-- Five records of what was sent are the inputs of the build. -/
theorem finish_of_stored {i : Intake} {workspace : String} {supply : Role → Supply}
    (hstored : ∀ role, i.stored? role = some ((supply role).input workspace role)) :
    i.finish = .ok (.ofSupplies workspace supply) := by
  simp [finish, hstored]
  rfl

/-- **All five uploads**, taken in in any order, are the inputs of the build. -/
theorem finish_of_takeAll {workspace : String} {supply : Role → Supply} {order : List Role}
    (horder : order.Perm Role.all) {i' : Intake} {h h' : Host}
    (hrun : takeAll supply order ({ workspace }, h) = .ok () (i', h')) :
    i'.finish = .ok (.ofSupplies workspace supply) := by
  refine finish_of_stored fun role => ?_
  rw [(stored?_of_takeAll hrun role).2, if_pos (horder.mem_iff.2 role.mem_all)]

end Intake

end LangBundle
