import Mathlib.Data.List.Basic
import Mathlib.Data.List.TakeWhile
import LangBundle.Http.ListenAddress

/-!
# How hosts are written

The host and the port of a server are joined by a colon and read back as one text, in which colons
also stand between the groups of an address.  The texts that are read are described here by what may
stand where, without a reader, and each reader is compared with its description.

* `ListenAddress.IsOctets`, `IsEight`: an **address** of version 4 and of version 6.
* `ListenAddress.IsHost`: a **host** as the server wants it, with brackets around eight groups.
* `ListenAddress.ip?_eq_some_iff`: **what is read** in front of a colon is a host.
* `ListenAddress.resolvesAsWritten`: **every host and port** mean what is written, or nothing.
* `ListenAddress.not_resolves_loopback`: eight groups **without brackets** mean nothing.
-/

namespace LangBundle.Http.ListenAddress

/-! ## Descriptions -/

/-- The number that digits of a base denote. -/
def valueOf (base : Nat) (cs : List Char) : Nat :=
  cs.foldl (fun n c => n * base + (digitIn? base c).getD 0) 0

/-- A number in digits of a base. -/
structure IsNumeral (base : Nat) (cs : List Char) (n : Nat) : Prop where
  nonempty : cs ≠ []
  digits : ∀ c ∈ cs, (digitIn? base c).isSome
  value : valueOf base cs = n

/-- An octet in at most three decimal digits, without needless zeros. -/
structure IsOctet (cs : List Char) (n : Nat) : Prop extends IsNumeral 10 cs n where
  le : n ≤ 255
  short : cs.length ≤ 3
  noZero : 1 < cs.length → cs.head? ≠ some '0'

/-- Four octets with dots between them. -/
inductive IsOctets : List Char → List Nat → Prop
  | mk {as bs cs ds : List Char} {a b c d : Nat} : IsOctet as a → IsOctet bs b → IsOctet cs c →
      IsOctet ds d → IsOctets (as ++ '.' :: (bs ++ '.' :: (cs ++ '.' :: ds))) [a, b, c, d]

/-- A group of one to four hexadecimal digits. -/
structure IsGroup (cs : List Char) (n : Nat) : Prop extends IsNumeral 16 cs n where
  le : n ≤ 0xFFFF
  short : cs.length ≤ 4

/-- Groups with colons between them.  The flag says that octets stand for the last two. -/
inductive IsGroups : List Char → Bool → List Nat → Prop
  | one {cs : List Char} {n : Nat} : IsGroup cs n → IsGroups cs false [n]
  | octets {cs : List Char} {a b c d : Nat} : IsOctets cs [a, b, c, d] →
      IsGroups cs true [a * 256 + b, c * 256 + d]
  | cons {cs rest : List Char} {n : Nat} {flag : Bool} {ns : List Nat} : IsGroup cs n →
      IsGroups rest flag ns → IsGroups (cs ++ ':' :: rest) flag (n :: ns)

/-- What stands on one side of `::`: groups, or nothing. -/
inductive IsSide : List Char → Bool → List Nat → Prop
  | none : IsSide [] false []
  | some {cs : List Char} {flag : Bool} {ns : List Nat} : IsGroups cs flag ns → IsSide cs flag ns

/-- Eight groups; `::` stands once for as many zero groups as are missing, at least one, and no
octets stand in front of it. -/
inductive IsEight : List Char → List Nat → Prop
  | full {cs : List Char} {flag : Bool} {ns : List Nat} : IsGroups cs flag ns → ns.length = 8 →
      IsEight cs ns
  | short {head tail : List Char} {flag : Bool} {hs ts : List Nat} : IsSide head false hs →
      IsSide tail flag ts → hs.length + ts.length ≤ 7 →
      IsEight (head ++ ':' :: ':' :: tail)
        (hs ++ List.replicate (8 - hs.length - ts.length) 0 ++ ts)

/-- A zone in 32 bits behind a percent sign, or none. -/
inductive IsZone : List Char → Nat → Prop
  | none : IsZone [] 0
  | some {cs : List Char} {n : Nat} : IsNumeral 10 cs n → n ≤ 0xFFFFFFFF → IsZone ('%' :: cs) n

/-- A host as the server wants it. -/
inductive IsHost : List Char → IpAddress → Prop
  | v4 {cs : List Char} {octets : List Nat} : IsOctets cs octets → IsHost cs (.v4 octets)
  | v6 {cs zone : List Char} {groups : List Nat} {n : Nat} : IsEight cs groups → IsZone zone n →
      IsHost ('[' :: (cs ++ (zone ++ [']']))) (.v6 groups n)

/-- An address as it is usually written, where no port follows. -/
inductive IsIpAddress : List Char → IpAddress → Prop
  | v4 {cs : List Char} {octets : List Nat} : IsOctets cs octets → IsIpAddress cs (.v4 octets)
  | v6 {cs : List Char} {groups : List Nat} : IsEight cs groups → IsIpAddress cs (.v6 groups 0)

/-! ## Numbers -/

/-- No digit of a base stands at the beginning. -/
def Stops (base : Nat) (cs : List Char) : Prop :=
  ∀ c ∈ cs.head?, digitIn? base c = none

section
variable {base most n : Nat} {c : Char} {cs rest : List Char} {ns : List Nat}

theorem stops_cons (h : digitIn? base c = none) : Stops base (c :: rest) :=
  fun _ hc => Option.mem_some.1 hc ▸ h

theorem stops_nil : Stops base [] :=
  fun _ hc => nomatch hc

/-- A decimal digit is a hexadecimal one. -/
theorem digitIn?_ten (h : (digitIn? 10 c).isSome) : (digitIn? 16 c).isSome := by
  obtain ⟨d, hd⟩ := Option.isSome_iff_exists.1 h
  unfold digitIn? at hd ⊢
  obtain ⟨hvalue, hlt⟩ := Option.filter_eq_some_iff.1 hd
  rw [hvalue]
  have hlt : d < 10 := of_decide_eq_true hlt
  rw [Option.filter_some, if_pos (decide_eq_true (by omega))]
  rfl

theorem stops_ten (h : Stops 16 cs) : Stops 10 cs := by
  intro c hc
  refine Option.not_isSome_iff_eq_none.1 fun hten => ?_
  have hsixteen := digitIn?_ten hten
  rw [h c hc] at hsixteen
  cases hsixteen

theorem takeWhile_eq (hdigits : ∀ c ∈ cs, (digitIn? base c).isSome) (hstops : Stops base rest) :
    (cs ++ rest).takeWhile (fun c => (digitIn? base c).isSome) = cs ∧
      (cs ++ rest).dropWhile (fun c => (digitIn? base c).isSome) = rest := by
  rw [List.takeWhile_append_of_pos hdigits, List.dropWhile_append_of_pos hdigits]
  cases rest with
  | nil => simp
  | cons c rest =>
    have hc : ¬ (digitIn? base c).isSome := by
      rw [hstops c rfl]
      decide
    simp [List.takeWhile_cons_of_neg, List.dropWhile_cons_of_neg, hc]

/-- **A number** is read up to where no digit stands. -/
theorem number?_eq_some_iff : number? base most cs = some (n, rest) ↔
    ∃ digits, cs = digits ++ rest ∧ IsNumeral base digits n ∧ n ≤ most ∧ Stops base rest := by
  constructor
  · intro h
    unfold number? at h
    dsimp only at h
    split at h
    · cases h
    · next hbad =>
      simp only [Bool.or_eq_true, List.isEmpty_iff, decide_eq_true_eq, not_or] at hbad
      obtain ⟨rfl, rfl⟩ := Prod.mk.inj (Option.some.inj h)
      refine ⟨_, List.takeWhile_append_dropWhile.symm, ⟨hbad.1, fun c hc => ?_, rfl⟩,
        Nat.le_of_not_lt hbad.2, fun c hc => ?_⟩
      · exact List.mem_takeWhile_imp (p := fun c => (digitIn? base c).isSome) hc
      · have := List.head?_dropWhile_not (fun c => (digitIn? base c).isSome) cs
        rw [Option.mem_def.1 hc] at this
        simpa using this
  · rintro ⟨digits, rfl, ⟨hne, hdigits, rfl⟩, hle, hstops⟩
    obtain ⟨htake, hdrop⟩ := takeWhile_eq hdigits hstops
    unfold number?
    dsimp only
    rw [htake, hdrop, if_neg]
    · rfl
    · rw [Bool.or_eq_true, List.isEmpty_iff, decide_eq_true_eq, not_or]
      exact ⟨hne, Nat.not_lt_of_le hle⟩

theorem number?_of_stops (h : Stops base cs) : number? base most cs = none := by
  refine Option.eq_none_iff_forall_ne_some.2 fun ⟨n, rest⟩ hsome => ?_
  obtain ⟨digits, rfl, hnumeral, -, -⟩ := number?_eq_some_iff.1 hsome
  obtain ⟨c, digits, rfl⟩ := List.exists_cons_of_ne_nil hnumeral.nonempty
  have hdigit := hnumeral.digits c List.mem_cons_self
  rw [h c rfl] at hdigit
  cases hdigit

theorem behind?_eq_some_iff : behind? c cs = some rest ↔ cs = c :: rest := by
  cases cs with
  | nil => simp [behind?]
  | cons d cs =>
    unfold behind?
    split <;> simp_all [eq_comm]

theorem octet?_eq_some_iff : octet? cs = some (n, rest) ↔
    ∃ digits, cs = digits ++ rest ∧ IsOctet digits n ∧ Stops 10 rest := by
  unfold octet?
  simp only [Option.bind_eq_bind, Option.bind_eq_some_iff, Prod.exists]
  constructor
  · rintro ⟨m, rest', hnumber, h⟩
    obtain ⟨digits, rfl, hnumeral, hle, hstops⟩ := number?_eq_some_iff.1 hnumber
    split at h
    · cases h
    · next hbad =>
      cases h
      rw [List.length_append, Nat.add_sub_cancel, List.head?_append_of_ne_nil _ hnumeral.nonempty,
        not_or, not_and] at hbad
      exact ⟨digits, rfl, ⟨hnumeral, hle, Nat.le_of_not_lt hbad.1, hbad.2⟩, hstops⟩
  · rintro ⟨digits, rfl, hoctet, hstops⟩
    refine ⟨n, rest, number?_eq_some_iff.2 ⟨digits, rfl, hoctet.toIsNumeral, hoctet.le, hstops⟩,
      if_neg ?_⟩
    rw [List.length_append, Nat.add_sub_cancel, List.head?_append_of_ne_nil _ hoctet.nonempty,
      not_or, not_and]
    exact ⟨Nat.not_lt_of_le hoctet.short, hoctet.noZero⟩

theorem group?_eq_some_iff : group? cs = some (n, rest) ↔
    ∃ digits, cs = digits ++ rest ∧ IsGroup digits n ∧ Stops 16 rest := by
  unfold group?
  simp only [Option.bind_eq_bind, Option.bind_eq_some_iff, Prod.exists]
  constructor
  · rintro ⟨m, rest', hnumber, h⟩
    obtain ⟨digits, rfl, hnumeral, hle, hstops⟩ := number?_eq_some_iff.1 hnumber
    rw [List.length_append, Nat.add_sub_cancel] at h
    split at h
    · cases h
    · next hshort =>
      cases h
      exact ⟨digits, rfl, ⟨hnumeral, hle, Nat.le_of_not_lt hshort⟩, hstops⟩
  · rintro ⟨digits, rfl, hgroup, hstops⟩
    refine ⟨n, rest, number?_eq_some_iff.2 ⟨digits, rfl, hgroup.toIsNumeral, hgroup.le, hstops⟩,
      if_neg ?_⟩
    rw [List.length_append, Nat.add_sub_cancel]
    exact Nat.not_lt_of_le hgroup.short

/-- **Octets** are read up to where no digit stands. -/
theorem octets?_eq_some_iff : octets? cs = some (ns, rest) ↔
    ∃ text, cs = text ++ rest ∧ IsOctets text ns ∧ Stops 10 rest := by
  have hdot (rest : List Char) : Stops 10 ('.' :: rest) := stops_cons rfl
  unfold octets?
  simp only [Option.bind_eq_bind, Option.bind_eq_some_iff, Prod.exists, behind?_eq_some_iff,
    octet?_eq_some_iff]
  constructor
  · rintro ⟨a, _, ⟨as, rfl, ha, -⟩, _, rfl, b, _, ⟨bs, rfl, hb, -⟩, _, rfl, c, _, ⟨cs, rfl, hc, -⟩,
      _, rfl, d, rest', ⟨ds, rfl, hd, hstops⟩, h⟩
    cases h
    exact ⟨_, by simp, .mk ha hb hc hd, hstops⟩
  · rintro ⟨_, rfl, @⟨as, bs, cs, ds, a, b, c, d, ha, hb, hc, hd⟩, hstops⟩
    refine ⟨a, '.' :: (bs ++ '.' :: (cs ++ '.' :: (ds ++ rest))), ⟨as, by simp, ha, hdot _⟩, _, rfl,
      b, '.' :: (cs ++ '.' :: (ds ++ rest)), ⟨bs, rfl, hb, hdot _⟩, _, rfl,
      c, '.' :: (ds ++ rest), ⟨cs, rfl, hc, hdot _⟩, _, rfl,
      d, rest, ⟨ds, rfl, hd, hstops⟩, rfl⟩

/-! ## Groups -/

theorem groups_false_of_ne (h : ∀ body, cs ≠ ':' :: body) :
    groups most false cs = ([], false, cs) := by
  have hnone : behind? ':' cs = none :=
    Option.eq_none_iff_forall_ne_some.2 fun body hbody => h body (behind?_eq_some_iff.1 hbody)
  cases most with
  | zero => rfl
  | succ most =>
    unfold groups
    simp only [Bool.false_eq_true, if_false, hnone]

/-- Behind a colon the groups are read as they are at the beginning, unless there are none. -/
theorem groups_false_colon : groups most false (':' :: cs) =
    if (groups most true cs).1 = [] then ([], false, ':' :: cs) else groups most true cs := by
  cases most with
  | zero => rfl
  | succ most =>
    unfold groups
    simp only [Bool.false_eq_true, if_false, if_true, behind?]
    split <;> simp

/-- What is read first where a group or octets may begin. -/
theorem groups_true_cases {flag : Bool} (h : groups (most + 1) true cs = (ns, flag, rest)) :
    (ns = [] ∧ flag = false ∧ rest = cs) ∨
    (∃ a b c d, most ≠ 0 ∧ octets? cs = some ([a, b, c, d], rest) ∧
      ns = [a * 256 + b, c * 256 + d] ∧ flag = true) ∨
    ∃ n behind more, group? cs = some (n, behind) ∧ groups most false behind = (more, flag, rest) ∧
      ns = n :: more := by
  unfold groups at h
  rw [if_pos rfl] at h
  dsimp only at h
  split at h
  · next hoctets =>
    cases h
    split at hoctets
    · cases hoctets
    · next hmost => exact .inr (.inl ⟨_, _, _, _, hmost, hoctets, rfl, rfl⟩)
  · next hgroup _ =>
    cases h
    exact .inr (.inr ⟨_, _, _, hgroup, rfl, rfl⟩)
  · cases h
    exact .inl ⟨rfl, rfl, rfl⟩

/-- **Every group** that is read stands there. -/
theorem groups_sound {flag : Bool} (h : groups most true cs = (ns, flag, rest)) :
    ns.length ≤ most ∧ ∃ text, cs = text ++ rest ∧ IsSide text flag ns := by
  induction most generalizing cs ns flag rest with
  | zero =>
    cases h
    exact ⟨Nat.le_refl 0, [], rfl, .none⟩
  | succ most ih =>
    obtain ⟨rfl, rfl, rfl⟩ | ⟨a, b, c, d, hmost, hoctets, rfl, rfl⟩ |
      ⟨n, behind, more, hgroup, hmore, rfl⟩ := groups_true_cases h
    · exact ⟨Nat.zero_le _, [], rfl, .none⟩
    · obtain ⟨text, rfl, htext, -⟩ := octets?_eq_some_iff.1 hoctets
      exact ⟨by simp; omega, text, rfl, .some (.octets htext)⟩
    · obtain ⟨digits, rfl, hdigits, -⟩ := group?_eq_some_iff.1 hgroup
      have hlast (h : (more, flag, rest) = ([], false, behind)) :
          (n :: more).length ≤ most + 1 ∧
            ∃ text, digits ++ behind = text ++ rest ∧ IsSide text flag (n :: more) := by
        cases h
        exact ⟨by simp, digits, rfl, .some (.one hdigits)⟩
      by_cases hcolon : ∃ body, behind = ':' :: body
      · obtain ⟨body, rfl⟩ := hcolon
        rw [groups_false_colon] at hmore
        split at hmore
        · exact hlast hmore.symm
        · next hne =>
          obtain ⟨hle, text, rfl, hside⟩ := ih hmore
          refine ⟨by simpa using hle, digits ++ ':' :: text, by simp, ?_⟩
          cases hside with
          | none => exact absurd (congrArg Prod.fst hmore) hne
          | some htext => exact .some (.cons hdigits htext)
      · rw [groups_false_of_ne fun body hbody => hcolon ⟨body, hbody⟩] at hmore
        exact hlast hmore.symm

/-- What may stand behind the groups of a side. -/
inductive Ends : List Char → Prop
  | bracket (rest : List Char) : Ends (']' :: rest)
  | zone (rest : List Char) : Ends ('%' :: rest)
  | zeros (rest : List Char) : Ends (':' :: ':' :: rest)

theorem Ends.stops (h : Ends rest) : Stops 16 rest := by
  cases h with
  | bracket rest => exact stops_cons rfl
  | zone rest => exact stops_cons rfl
  | zeros rest => exact stops_cons rfl

theorem octets?_of_stops (h : Stops 10 cs) : octets? cs = none := by
  refine Option.eq_none_iff_forall_ne_some.2 fun ⟨ns, rest⟩ hsome => ?_
  simp only [octets?, octet?, number?_of_stops h] at hsome
  cases hsome

theorem group?_of_stops (h : Stops 16 cs) : group? cs = none := by
  simp only [group?, number?_of_stops h]
  rfl

theorem groups_true_of_stops (h : Stops 16 cs) : groups most true cs = ([], false, cs) := by
  cases most with
  | zero => rfl
  | succ most =>
    unfold groups
    simp only [if_true, octets?_of_stops (stops_ten h), group?_of_stops h, ite_self]

theorem groups_false_of_ends (h : Ends rest) : groups most false rest = ([], false, rest) := by
  cases h with
  | bracket rest => exact groups_false_of_ne fun _ => by simp
  | zone rest => exact groups_false_of_ne fun _ => by simp
  | zeros rest => rw [groups_false_colon, groups_true_of_stops (stops_cons rfl), if_pos rfl]

/-- No dot stands behind a group, so that no octets begin there. -/
theorem octets?_of_isGroup (hgroup : IsGroup cs n) (hstops : Stops 16 rest)
    (hdot : rest.head? ≠ some '.') : octets? (cs ++ rest) = none := by
  refine Option.eq_none_iff_forall_ne_some.2 fun ⟨ns, more⟩ hsome => ?_
  obtain ⟨_, htext, @⟨as, bs, cs', ds, a, b, c, d, ha, -, -, -⟩, -⟩ := octets?_eq_some_iff.1 hsome
  rw [List.append_assoc, List.cons_append] at htext
  -- the first dot would stand behind the group, in it, or behind more digits
  obtain ⟨middle, rfl, hrest⟩ | ⟨middle, rfl, hrest⟩ := List.append_eq_append_iff.1 htext
  · cases middle with
    | nil => exact hdot (by rw [hrest]; rfl)
    | cons c middle =>
      have hdigit := digitIn?_ten (ha.digits c (by simp))
      rw [hstops c (by rw [hrest]; rfl)] at hdigit
      cases hdigit
  · cases middle with
    | nil => exact hdot (by rw [← List.nil_append rest, ← hrest]; rfl)
    | cons c middle =>
      obtain ⟨rfl, -⟩ := List.cons.inj hrest
      have hdigit := hgroup.digits '.' (by simp)
      cases hdigit

theorem groups_true_of_isGroup (hgroup : IsGroup cs n) (hstops : Stops 16 rest)
    (hdot : rest.head? ≠ some '.') : groups (most + 1) true (cs ++ rest) =
      (n :: (groups most false rest).1, (groups most false rest).2) := by
  have hread : group? (cs ++ rest) = some (n, rest) :=
    group?_eq_some_iff.2 ⟨cs, rfl, hgroup, hstops⟩
  conv_lhs => unfold groups
  simp only [if_true, octets?_of_isGroup hgroup hstops hdot, hread, ite_self]

/-- **Groups** are read as they stand there. -/
theorem groups_complete {flag : Bool} {text : List Char} (h : IsGroups text flag ns)
    (hlength : ns.length ≤ most) (hends : Ends rest) :
    groups most true (text ++ rest) = (ns, flag, rest) := by
  induction h generalizing most with
  | @one cs n hgroup =>
    obtain ⟨most, rfl⟩ : ∃ k, most = k + 1 := ⟨most - 1, by simp at hlength; omega⟩
    rw [groups_true_of_isGroup hgroup hends.stops (by cases hends <;> simp),
      groups_false_of_ends hends]
  | @octets cs a b c d hoctets =>
    obtain ⟨most, rfl⟩ : ∃ k, most = k + 2 := ⟨most - 2, by simp at hlength; omega⟩
    have hread : octets? (cs ++ rest) = some ([a, b, c, d], rest) :=
      octets?_eq_some_iff.2 ⟨cs, rfl, hoctets, stops_ten hends.stops⟩
    unfold groups
    simp only [if_true, hread, Nat.succ_ne_zero, if_false]
  | @cons cs text n flag ns hgroup hgroups ih =>
    obtain ⟨most, rfl⟩ : ∃ k, most = k + 1 := ⟨most - 1, by simp at hlength; omega⟩
    have hmore := @ih most (by simpa using hlength)
    have hne : ns ≠ [] := by cases hgroups <;> simp
    rw [List.append_assoc, List.cons_append,
      groups_true_of_isGroup hgroup (stops_cons rfl) (by simp), groups_false_colon, hmore,
      if_neg hne]

theorem side_complete {flag : Bool} {text : List Char} (h : IsSide text flag ns)
    (hlength : ns.length ≤ most) (hends : Ends rest) :
    groups most true (text ++ rest) = (ns, flag, rest) := by
  cases h with
  | none => exact groups_true_of_stops hends.stops
  | some hgroups => exact groups_complete hgroups hlength hends

/-! ## Addresses -/

/-- Only **eight groups** are read. -/
theorem eightGroups?_sound (h : eightGroups? cs = some (ns, rest)) :
    ∃ text, cs = text ++ rest ∧ IsEight text ns := by
  unfold eightGroups? at h
  cases hhead : groups 8 true cs with
  | mk hs more =>
    obtain ⟨flag, behind⟩ := more
    rw [hhead] at h
    obtain ⟨hle, head, rfl, hside⟩ := groups_sound hhead
    dsimp only at h
    split at h
    · next hfull =>
      cases h
      cases hside with
      | none => cases hfull
      | some hgroups => exact ⟨head, rfl, .full hgroups hfull⟩
    · next hless =>
      split at h
      · cases h
      · next hflag =>
        obtain rfl : flag = false := by simpa using hflag
        simp only [Option.bind_eq_bind, Option.bind_eq_some_iff, behind?_eq_some_iff] at h
        obtain ⟨_, rfl, cs, rfl, h⟩ := h
        cases htail : groups (7 - hs.length) true cs with
        | mk ts more =>
          obtain ⟨flag, behind⟩ := more
          rw [htail] at h
          obtain ⟨hle', tail, rfl, hside'⟩ := groups_sound htail
          dsimp only at h hle'
          cases h
          exact ⟨head ++ ':' :: ':' :: tail, by simp, .short hside hside' (by omega)⟩

/-- **Eight groups** are read as they stand there. -/
theorem eightGroups?_complete {text : List Char} (h : IsEight text ns) (hends : Ends rest) :
    eightGroups? (text ++ rest) = some (ns, rest) := by
  unfold eightGroups?
  cases h with
  | full hgroups hfull =>
    rw [groups_complete hgroups (Nat.le_of_eq hfull) hends]
    exact if_pos hfull
  | @short head tail flag hs ts hhead htail hlength =>
    have hrest : groups (7 - hs.length) true (tail ++ rest) = (ts, flag, rest) :=
      side_complete htail (by omega) hends
    rw [List.append_assoc, List.cons_append, List.cons_append,
      side_complete hhead (by omega) (.zeros _)]
    simp only [behind?, if_true, Option.bind_eq_bind, Option.bind_some, hrest]
    rw [if_neg (by omega)]
    rfl

theorem zone?_eq_some_iff : zone? cs = some (n, ']' :: rest) ↔
    ∃ text, cs = text ++ ']' :: rest ∧ IsZone text n := by
  unfold zone?
  split
  · next cs =>
    rw [number?_eq_some_iff]
    constructor
    · rintro ⟨digits, rfl, hnumeral, hle, -⟩
      exact ⟨'%' :: digits, rfl, .some hnumeral hle⟩
    · rintro ⟨text, htext, hzone⟩
      cases hzone with
      | none => cases htext
      | some hnumeral hle => exact ⟨_, (List.cons.inj htext).2, hnumeral, hle, stops_cons rfl⟩
  · next hpercent =>
    constructor
    · intro h
      cases h
      exact ⟨[], rfl, .none⟩
    · rintro ⟨text, rfl, hzone⟩
      cases hzone with
      | none => rfl
      | some => exact absurd rfl (hpercent _)

theorem Ends.of_isZone {zone : List Char} (h : IsZone zone n) : Ends (zone ++ ']' :: rest) := by
  cases h with
  | none => exact .bracket rest
  | some => exact .zone _

/-- **What is read** in front of a colon is a host. -/
theorem ip?_eq_some_iff {ip : IpAddress} : ip? cs = some (ip, ':' :: rest) ↔
    ∃ host, cs = host ++ ':' :: rest ∧ IsHost host ip := by
  unfold ip?
  constructor
  · intro h
    split at h
    · next octets _ hoctets =>
      cases h
      obtain ⟨text, rfl, htext, -⟩ := octets?_eq_some_iff.1 hoctets
      exact ⟨text, rfl, .v4 htext⟩
    · simp only [Option.bind_eq_bind, Option.bind_eq_some_iff, Prod.exists,
        behind?_eq_some_iff] at h
      obtain ⟨_, rfl, groups, _, hgroups, n, _, hzone, _, rfl, h⟩ := h
      cases h
      obtain ⟨text, rfl, htext⟩ := eightGroups?_sound hgroups
      obtain ⟨zone, rfl, hzone'⟩ := zone?_eq_some_iff.1 hzone
      exact ⟨'[' :: (text ++ (zone ++ [']'])), by simp, .v6 htext hzone'⟩
  · rintro ⟨host, rfl, hhost⟩
    cases hhost with
    | v4 hoctets => rw [octets?_eq_some_iff.2 ⟨host, rfl, hoctets, stops_cons rfl⟩]
    | @v6 text zone groups n hgroups hzone =>
      have hassoc : '[' :: (text ++ (zone ++ [']'])) ++ ':' :: rest =
          '[' :: (text ++ (zone ++ ']' :: ':' :: rest)) := by simp
      rw [hassoc, octets?_of_stops (stops_cons rfl)]
      simp only [behind?, if_true, Option.bind_eq_bind, Option.bind_some,
        eightGroups?_complete hgroups (Ends.of_isZone hzone),
        zone?_eq_some_iff.2 ⟨zone, rfl, hzone⟩]

end

/-! ## Hosts with their ports -/

theorem digitIn?_of_isDigit {c : Char} (h : c.isDigit) :
    digitIn? 10 c = some (c.toNat - '0'.toNat) := by
  have hrange : '0' ≤ c ∧ c ≤ '9' := by
    simpa [Char.isDigit, Char.le_def] using h
  have hlt : c.toNat - '0'.toNat < 10 := by
    have hnine : c.toNat ≤ '9'.toNat := hrange.2
    have : '9'.toNat = 57 := rfl
    have : '0'.toNat = 48 := rfl
    omega
  unfold digitIn?
  rw [if_pos (by simpa using hrange), Option.filter_some, if_pos (decide_eq_true hlt)]

/-- **A port** is written in decimal digits. -/
theorem isNumeral_toString (n : Nat) : IsNumeral 10 (toString n).toList n := by
  rw [Nat.toString_eq_ofList_toDigits, String.toList_ofList]
  have hdigit (c : Char) (hc : c ∈ Nat.toDigits 10 n) : c.isDigit :=
    Nat.isDigit_of_mem_toDigits (by decide) (by decide) hc
  refine ⟨Nat.toDigits_ne_nil, fun c hc => ?_, ?_⟩
  · rw [digitIn?_of_isDigit (hdigit c hc)]
    rfl
  · calc valueOf 10 (Nat.toDigits 10 n) = Nat.ofDigitChars 10 (Nat.toDigits 10 n) 0 := by
          refine List.foldl_ext _ _ _ fun value c hc => ?_
          rw [digitIn?_of_isDigit (hdigit c hc), Nat.mul_comm]
          rfl
      _ = n := Nat.ofDigitChars_ten_toDigits

theorem IsNumeral.colon_notMem {n : Nat} {cs : List Char} (h : IsNumeral 10 cs n) : ':' ∉ cs :=
  fun hmem => nomatch h.digits ':' hmem

/-- The last colon is the same, however the text is divided. -/
theorem last_colon {before before' behind behind' : List Char} (h : ':' ∉ behind)
    (h' : ':' ∉ behind') (heq : before ++ ':' :: behind = before' ++ ':' :: behind') :
    before = before' ∧ behind = behind' := by
  obtain ⟨middle, rfl, hover⟩ | ⟨middle, rfl, hover⟩ := List.append_eq_append_iff.1 heq
  · cases middle with
    | nil => simpa using hover
    | cons c middle =>
      obtain ⟨-, rfl⟩ := List.cons.inj hover
      exact absurd (by simp) h
  · cases middle with
    | nil => simpa [eq_comm] using hover
    | cons c middle =>
      obtain ⟨-, rfl⟩ := List.cons.inj hover
      exact absurd (by simp) h'

/-- **A host and a port** are read back as they were joined. -/
theorem ofText?_eq_some_iff {host : String} {port : Nat} {a : ListenAddress} :
    ofText? (host ++ ":" ++ toString port) = some a ↔
      port ≤ 65535 ∧ a.port = port ∧ IsHost host.toList a.ip := by
  have hport := isNumeral_toString port
  have htext :
      (host ++ ":" ++ toString port).toList = host.toList ++ ':' :: (toString port).toList := by
    simp
  unfold ofText?
  rw [htext]
  constructor
  · intro h
    simp only [Option.bind_eq_bind, Option.bind_eq_some_iff, Prod.exists, behind?_eq_some_iff] at h
    obtain ⟨ip, _, hip, cs, rfl, n, rest, hn, h⟩ := h
    obtain ⟨text, hdivided, hhost⟩ := ip?_eq_some_iff.1 hip
    obtain ⟨digits, rfl, hnumeral, hle, -⟩ := number?_eq_some_iff.1 hn
    split at h
    · next hrest =>
      cases h
      obtain ⟨rfl, rfl⟩ := Prod.mk.inj hrest
      rw [List.append_nil] at hdivided
      obtain ⟨rfl, rfl⟩ := last_colon hport.colon_notMem hnumeral.colon_notMem hdivided
      obtain rfl : n = port := hnumeral.value.symm.trans hport.value
      exact ⟨hle, rfl, hhost⟩
    · cases h
  · rintro ⟨hle, rfl, hhost⟩
    rw [ip?_eq_some_iff.2 ⟨host.toList, rfl, hhost⟩]
    simp only [behind?, if_true, Option.bind_eq_bind, Option.bind_some,
      number?_eq_some_iff.2 ⟨_, (List.append_nil _).symm, hport, hle, stops_nil⟩]

theorem IsOctets.colon_notMem {cs : List Char} {octets : List Nat} (h : IsOctets cs octets) :
    ':' ∉ cs := by
  obtain ⟨ha, hb, hc, hd⟩ := h
  simp [ha.colon_notMem, hb.colon_notMem, hc.colon_notMem, hd.colon_notMem]

theorem IsEight.colon_mem {cs : List Char} {groups : List Nat} (h : IsEight cs groups) :
    ':' ∈ cs := by
  cases h with
  | full hgroups hfull =>
    cases hgroups with
    | one => cases hfull
    | octets => cases hfull
    | cons => simp
  | short => simp

/-- **Eight groups without brackets** are no host. -/
theorem not_isHost_of_isEight {cs : List Char} {groups : List Nat} {ip : IpAddress}
    (h : IsEight cs groups) : ¬ IsHost cs ip := by
  intro hhost
  cases hhost with
  | v4 hoctets => exact hoctets.colon_notMem h.colon_mem
  | v6 =>
    have hread := eightGroups?_complete h (.bracket [])
    unfold eightGroups? at hread
    rw [List.cons_append, groups_true_of_stops (stops_cons rfl)] at hread
    cases hread

/-- What a host and a port are resolved to. -/
structure ResolvesAsWritten (host : String) (port : UInt16) : Prop where
  /-- An address is meant if its IP address is written as the host and its port is the port. -/
  ok_iff (a : ListenAddress) :
    resolve host port.toNat = .ok a ↔ a.port = port.toNat ∧ IsHost host.toList a.ip
  /-- A host that is written in no such way is refused. -/
  refused : (∀ ip, ¬ IsHost host.toList ip) →
    resolve host port.toNat = .error (.address (host ++ ":" ++ toString port.toNat))
  /-- Four octets are a host. -/
  v4 (octets : List Nat) : IsOctets host.toList octets →
    resolve host port.toNat = .ok ⟨.v4 octets, port.toNat⟩
  /-- Eight groups in brackets are a host. -/
  v6 (cs : List Char) (groups : List Nat) : IsEight cs groups → host.toList = '[' :: (cs ++ [']']) →
    resolve host port.toNat = .ok ⟨.v6 groups 0, port.toNat⟩
  /-- Eight groups without brackets are none. -/
  bare (groups : List Nat) : IsEight host.toList groups →
    resolve host port.toNat = .error (.address (host ++ ":" ++ toString port.toNat))

theorem resolve_eq_ok_iff {host : String} {port : UInt16} {a : ListenAddress} :
    resolve host port.toNat = .ok a ↔ a.port = port.toNat ∧ IsHost host.toList a.ip := by
  have hport : port.toNat ≤ 65535 := Nat.le_of_lt_succ port.toNat_lt
  have hread : ofText? (host ++ ":" ++ toString port.toNat) = some a ↔
      port.toNat ≤ 65535 ∧ a.port = port.toNat ∧ IsHost host.toList a.ip := ofText?_eq_some_iff
  unfold resolve
  dsimp only
  split
  · next hsome =>
    rw [hsome, Option.some.injEq] at hread
    rw [Except.ok.injEq, hread]
    exact and_iff_right hport
  · next hnone =>
    rw [hnone] at hread
    constructor
    · intro h
      cases h
    · intro h
      cases hread.2 ⟨hport, h⟩

theorem resolve_of_not_isHost {host : String} {port : UInt16} (h : ∀ ip, ¬ IsHost host.toList ip) :
    resolve host port.toNat = .error (.address (host ++ ":" ++ toString port.toNat)) := by
  cases hresolve : resolve host port.toNat with
  | ok a => exact absurd (resolve_eq_ok_iff.1 hresolve).2 (h a.ip)
  | error e =>
    unfold resolve at hresolve
    dsimp only at hresolve
    split at hresolve
    · cases hresolve
    · exact hresolve.symm

/-- **Every host and port** mean what is written, or nothing. -/
theorem resolvesAsWritten (host : String) (port : UInt16) : ResolvesAsWritten host port where
  ok_iff _ := resolve_eq_ok_iff
  refused := resolve_of_not_isHost
  v4 _ h := resolve_eq_ok_iff.2 ⟨rfl, .v4 h⟩
  v6 _ _ h hhost := resolve_eq_ok_iff.2 ⟨rfl, hhost ▸ .v6 h .none⟩
  bare _ h := resolve_of_not_isHost fun _ => not_isHost_of_isEight h

/-- **The loopback address** of version 6, as it is usually written, means nothing: the colons in it
are taken for the one in front of the port. -/
theorem not_resolves_loopback : ∃ (host : String) (port : UInt16) (ip : IpAddress),
    IsIpAddress host.toList ip ∧ ∀ a, resolve host port.toNat ≠ .ok a := by
  have hone : IsGroup ['1'] 1 := ⟨⟨by simp, by simp; rfl, rfl⟩, by decide, by decide⟩
  have height : IsEight "::1".toList [0, 0, 0, 0, 0, 0, 0, 1] :=
    .short .none (.some (.one hone)) (by decide)
  refine ⟨"::1", 9657, .v6 [0, 0, 0, 0, 0, 0, 0, 1] 0, .v6 height, fun a ha => ?_⟩
  exact not_isHost_of_isEight height (resolve_eq_ok_iff.1 ha).2

end LangBundle.Http.ListenAddress
