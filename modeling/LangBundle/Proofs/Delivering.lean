import Mathlib.Data.List.TakeDrop
import LangBundle.Proofs.FailedRemovals

/-!
# Delivering a bundle

A bundle is read while it is sent, and the body that reads it owns the workspace.  Nobody knows how
often the body is asked for a piece, how long the pieces are that it gives, what else happens on the
host between them, and after which of them the body is dropped.

* `Http.Download.next_cases`: **one poll** gives a piece of what is left, or says that nothing is.
* `get?_drop`: **a drop** whose removal succeeds takes the workspace away and nothing else.
* `Delivery`: a body with its host and the pieces that it has given; `Delivery.Step`: what may happen.
* `Delivery.Flows.step`: **each step** keeps what is known of the pieces and of the workspace.
* `deliver_faithful`: what a delivery gives, whatever happens in its course.
-/

namespace LangBundle

open Files Files.Tree

/-! ## One poll -/

/-- **One poll** of a body: a piece of what is left of the file, or the end if nothing is left. -/
theorem Http.Download.next_cases {d : Http.Download} {h : Host} {data : Bytes} {size : Nat}
    (hread : h.files.readAll d.source = .ok data) (hsize : 0 < size) (hle : d.offset ≤ data.length) :
    (d.offset = data.length ∧ d.next size h = .ok (none, d)) ∨
    ∃ piece, piece ≠ [] ∧ piece.length ≤ size ∧ d.offset + piece.length ≤ data.length ∧
      data.take (d.offset + piece.length) = data.take d.offset ++ piece ∧
      d.next size h = .ok (some piece, { d with offset := d.offset + piece.length }) := by
  have hlength : ((data.drop d.offset).take size).length = min size (data.drop d.offset).length :=
    List.length_take
  have hrest : (data.drop d.offset).length = data.length - d.offset := List.length_drop
  simp only [next, hread, bind, Except.bind]
  by_cases hempty : ((data.drop d.offset).take size).isEmpty = true
  · rw [List.isEmpty_iff.1 hempty, List.length_nil] at hlength
    refine .inl ⟨by omega, ?_⟩
    rw [if_pos hempty]
    rfl
  · have hpiece : (data.drop d.offset).take size ≠ [] := fun hnil => hempty (by rw [hnil]; rfl)
    have hlong : 0 < ((data.drop d.offset).take size).length := List.length_pos_iff.2 hpiece
    refine .inr ⟨_, hpiece, by omega, by omega, ?_, ?_⟩
    · rw [List.take_add, hlength, List.append_cancel_left_eq, List.take_eq_take_iff]
      omega
    · rw [if_neg hempty]
      rfl

/-! ## The drop -/

/-- **A removal** that succeeds, or that finds nothing, has taken away the place with all below it,
unless nothing was there. -/
theorem Files.Tree.removeDirectoryTree_eq_erase {t : Tree} {cwd ws : Place} {path : String}
    (hleads : t.resolve cwd path false = .ok ws)
    (hok : (t.removeDirectoryTree cwd path).1 = .ok () ∨
      (t.removeDirectoryTree cwd path).1 = .error .notFound)
    (hthere : t.get? ws ≠ none) (habove : t.get? ws.dropLast ≠ none) :
    (t.removeDirectoryTree cwd path).2 = t.erase ws := by
  obtain ⟨n, hn⟩ := Option.ne_none_iff_exists'.1 habove
  revert hok
  rw [removeDirectoryTree, hleads]
  dsimp only
  split
  · next hnone => exact absurd hnone hthere
  · rcases hrequire : t.requireAbove ws with fault | _
    · rw [requireAbove_eq_error hn hrequire]
      rintro (h | h) <;> cases h
    · exact fun _ => rfl
  · split
    · rintro (h | h) <;> cases h
    · rcases hrequire : t.requireAbove ws with fault | _
      · rw [requireAbove_eq_error hn hrequire]
        rintro (h | h) <;> cases h
      · exact fun _ => rfl
  · rintro (h | h) <;> cases h

/-- **A drop** whose removal succeeds takes the workspace away with all that is in it, and nothing
else. -/
theorem get?_drop {w : Workspace} {h : Host} {ws : Place} (hsound : h.files.IsSound)
    (hcwd : IsReal h.cwd) (hlive : w.released = false)
    (hleads : h.files.resolve h.cwd w.path false = .ok ws) (hroot : ws ≠ [])
    (hok : (w.release h).1 = .ok ()) {q : Place} (hq : IsReal q) :
    (w.drop h).files.get? q = if ws <+: q then none else h.files.get? q := by
  split
  · next hbelow =>
    have hfiles : (w.drop h).files = (h.files.removeDirectoryTree h.cwd w.path).2 :=
      (Estate.release_of_live hlive).2.1
    rw [hfiles]
    by_cases hnone : h.files.get? ws = none
    · rw [removeDirectoryTree_of_none hleads hnone]
      exact hsound.nothing_below hq hbelow hnone
    · obtain ⟨above, name, mode, hsplit, hdir⟩ :=
        hsound.hasAbove (isReal_of_resolve hcwd hleads) hroot hnone
      have habove : h.files.get? ws.dropLast ≠ none := by
        rw [hsplit, List.dropLast_concat, hdir]
        exact Option.some_ne_none _
      rw [removeDirectoryTree_eq_erase hleads ((Workspace.release_result hlive).1 hok) hnone habove,
        get?_erase _ hroot, if_pos hbelow]
  · next hnot => exact (Estate.release_off hlive hleads hroot).2.2 q hnot

/-! ## A delivery in its course -/

/-- A body on its way, with its host and what it has given so far. -/
structure Delivery where
  host : Host
  body : Http.Download
  /-- The pieces in their order. -/
  pieces : List Bytes
  /-- Whether the body has said that nothing follows. -/
  ended : Bool

namespace Delivery

/-- A body of which nothing has been asked. -/
def start (h : Host) (body : Http.Download) : Delivery :=
  ⟨h, body, [], false⟩

/-- What others do while a bundle is delivered: they change neither the file that is sent nor the
workspace, and its path leads where it led. -/
structure Spares (ws : Place) (body : Http.Download) (h h' : Host) : Prop where
  cwd_eq : h'.cwd = h.cwd
  sound : h'.files.IsSound
  leads : h'.files.resolve h'.cwd body.workspace.path false = .ok ws
  sent : h'.files.readAll body.source = h.files.readAll body.source
  kept : ∀ q, IsReal q → ws <+: q → h'.files.get? q = h.files.get? q

/-- What may happen next in the course of a delivery. -/
inductive Step (ws : Place) : Delivery → Delivery → Prop
  /-- The body is asked for a piece, and gives one or says that nothing follows. -/
  | poll {s : Delivery} {size : Nat} {piece? : Option Bytes} {body : Http.Download}
      (hsize : 0 < size) (hnext : s.body.next size s.host = .ok (piece?, body)) :
      Step ws s { s with
        body, pieces := s.pieces ++ piece?.toList, ended := s.ended || piece?.isNone }
  /-- Others do something on the host. -/
  | others {s : Delivery} {h : Host} (hspares : Spares ws s.body s.host h) :
      Step ws s { s with host := h }

/-- What may become of a delivery before its body is dropped. -/
abbrev Runs (ws : Place) : Delivery → Delivery → Prop :=
  Relation.ReflTransGen (Step ws)

/-- **What a delivery is to be** at each moment before its body is dropped, for a file with some data
on a host that is as it was when the delivery began. -/
structure Faithful (h : Host) (ws : Place) (data : Bytes) (s : Delivery) : Prop where
  /-- What has been sent is the beginning of the file. -/
  sent : s.pieces.flatten <+: data
  /-- Once the body has ended all of it has been sent. -/
  complete : s.ended = true → s.pieces.flatten = data
  /-- It is sent in at most as many pieces as it has bytes. -/
  few : s.pieces.length ≤ data.length
  /-- Each poll is answered: with a piece as long as something is left, with the end afterwards. -/
  answered : ∀ size, 0 < size → ∃ piece? body, s.body.next size s.host = .ok (piece?, body) ∧
    (piece? = none ↔ s.pieces.flatten = data) ∧
    ∀ piece, piece? = some piece → piece ≠ [] ∧ piece.length ≤ size
  /-- The workspace is as it was, with all that is in it. -/
  kept : ∀ q, IsReal q → ws <+: q → s.host.files.get? q = h.files.get? q
  /-- If the body is dropped now the workspace is gone, with all that is in it and nothing else, unless
  its removal fails. -/
  dropped : (s.body.workspace.release s.host).1 = .ok () → ∀ q, IsReal q →
    (s.body.drop s.host).files.get? q = if ws <+: q then none else s.host.files.get? q

/-- What is known of a delivery before its body is dropped. -/
structure Flows (h : Host) (w : Workspace) (ws : Place) (data : Bytes) (s : Delivery) : Prop where
  cwd_eq : s.host.cwd = h.cwd
  sound : s.host.files.IsSound
  workspace : s.body.workspace = w
  leads : s.host.files.resolve s.host.cwd w.path false = .ok ws
  read : s.host.files.readAll s.body.source = .ok data
  kept : ∀ q, IsReal q → ws <+: q → s.host.files.get? q = h.files.get? q
  within : s.body.offset ≤ data.length
  sent : s.pieces.flatten = data.take s.body.offset
  few : s.pieces.length ≤ s.body.offset
  ended : s.ended = true → s.body.offset = data.length

section
variable {h : Host} {w : Workspace} {ws : Place} {data : Bytes} {s s' : Delivery}

/-- **Each step** keeps what is known of a delivery. -/
theorem Flows.step (hflows : s.Flows h w ws data) (hstep : Step ws s s') :
    s'.Flows h w ws data := by
  cases hstep with
  | @poll size piece? body hsize hnext =>
    obtain ⟨hend, hnone⟩ | ⟨piece, hpiece, -, hle, htake, hsome⟩ :=
      Http.Download.next_cases hflows.read hsize hflows.within
    · obtain ⟨rfl, rfl⟩ := Prod.mk.inj (Except.ok.inj (hnext.symm.trans hnone))
      exact { hflows with
        sent := by simpa using hflows.sent
        few := by simpa using hflows.few
        ended := fun _ => hend }
    · obtain ⟨rfl, rfl⟩ := Prod.mk.inj (Except.ok.inj (hnext.symm.trans hsome))
      have hlong : 0 < piece.length := List.length_pos_iff.2 hpiece
      refine { hflows with within := hle, sent := ?_, few := ?_, ended := fun hended => ?_ }
      · simp only [Option.toList_some, List.flatten_append, List.flatten_singleton]
        rw [hflows.sent, htake]
      · have hfew := hflows.few
        simp only [Option.toList_some, List.length_append, List.length_singleton]
        omega
      · -- a body that has ended has nothing left to give
        have hall := hflows.ended (by simpa using hended)
        omega
  | others hspares =>
    exact { hflows with
      cwd_eq := hspares.cwd_eq.trans hflows.cwd_eq
      sound := hspares.sound
      leads := hflows.workspace ▸ hspares.leads
      read := hspares.sent.trans hflows.read
      kept := fun q hq hbelow => (hspares.kept q hq hbelow).trans (hflows.kept q hq hbelow) }

/-- **What is known of a delivery** is what it is to be. -/
theorem Flows.faithful (hflows : s.Flows h w ws data) (hcwd : IsReal h.cwd)
    (hlive : w.released = false) (hroot : ws ≠ []) : s.Faithful h ws data := by
  have hall : s.body.offset = data.length ↔ s.pieces.flatten = data := by
    rw [hflows.sent, List.take_eq_self_iff]
    have hwithin := hflows.within
    omega
  refine ⟨hflows.sent ▸ List.take_prefix _ _, fun hended => hall.1 (hflows.ended hended),
    Nat.le_trans hflows.few hflows.within, fun size hsize => ?_, hflows.kept, fun hok q hq => ?_⟩
  · obtain ⟨hend, hnone⟩ | ⟨piece, hpiece, hsmall, hle, -, hsome⟩ :=
      Http.Download.next_cases hflows.read hsize hflows.within
    · exact ⟨none, _, hnone, iff_of_true rfl (hall.1 hend), fun piece hpiece => nomatch hpiece⟩
    · have hlong : 0 < piece.length := List.length_pos_iff.2 hpiece
      have hleft : ¬ s.pieces.flatten = data := fun heq => by
        have hend := hall.2 heq
        omega
      refine ⟨some piece, _, hsome, iff_of_false (Option.some_ne_none _) hleft, ?_⟩
      intro other hother
      obtain rfl := Option.some.inj hother
      exact ⟨hpiece, hsmall⟩
  · rw [hflows.workspace] at hok
    rw [Http.Download.drop, hflows.workspace]
    exact get?_drop hflows.sound (hflows.cwd_eq ▸ hcwd) hlive hflows.leads hroot hok hq

end

/-- **A delivery** of a file that can be read declares the file's length, leaves everything as it is,
and is faithful whatever happens in its course.  If the bundle cannot be opened there is no response,
and the workspace is removed at once, unless that fails. -/
theorem deliver_faithful {bundle : String} {w : Workspace} {h : Host} {ws : Place}
    (hsound : h.files.IsSound) (hcwd : IsReal h.cwd) (hlive : w.released = false)
    (hleads : h.files.resolve h.cwd w.path false = .ok ws) (hroot : ws ≠ []) :
    (∀ data, h.files.Offers h.cwd bundle data → ∃ response body,
      Http.Server.deliver bundle w h = (.ok response, h) ∧ response.status = 200 ∧
      response.length = some data.length ∧ response.body = .download body ∧
      ∀ s, Runs ws (start h body) s → s.Faithful h ws data) ∧
    ∀ fault, h.files.openRead h.cwd bundle = .error fault →
      (Http.Server.deliver bundle w h).1 = .error (.build (.io bundle fault.message)) ∧
      ((w.release h).1 = .ok () → ∀ q, IsReal q →
        (Http.Server.deliver bundle w h).2.files.get? q =
          if ws <+: q then none else h.files.get? q) := by
  refine ⟨fun data hoffers => ?_, fun fault hfault => ?_⟩
  · obtain ⟨source, hopen, hread⟩ := hoffers.read_ok hsound
    refine ⟨_, { source, workspace := w }, by rw [Http.Server.deliver, hopen], rfl, ?_, rfl,
      fun s hruns => ?_⟩
    · cases source with
      | directory => cases hread
      | _ => simp only [Http.Server.declaredLength, hread, Except.toOption, Option.getD_some]
    · have hflows : s.Flows h w ws data := by
        induction hruns with
        | refl =>
          exact ⟨rfl, hsound, rfl, hleads, hread, fun _ _ _ => rfl, Nat.zero_le _, rfl, Nat.le_refl _,
            fun hended => nomatch hended⟩
        | tail _ hstep ih => exact ih.step hstep
      exact hflows.faithful hcwd hlive hroot
  · rw [Http.Server.deliver, hfault]
    exact ⟨rfl, fun hok q hq => get?_drop hsound hcwd hlive hleads hroot hok hq⟩

/-! ## A directory that cannot be emptied -/

/-- A workspace that holds a bundle. -/
def servedTree : Tree :=
  (precious.insert ["served"] (.directory Workspace.mode) 1).insert
    ["served", "output.zip"] (.file 1 fileMode [1, 2, 3]) 2

/-- The same with a directory in it that nobody may look into, and a file in that. -/
def guardedTree : Tree :=
  (servedTree.insert ["served", "closed"] (.directory 0) 2).insert
    ["served", "closed", "kept"] (.file 2 fileMode [7]) 3

def servedHost : Host :=
  { files := servedTree }

@[inherit_doc guardedTree]
def guardedHost : Host :=
  { files := guardedTree }

/-- The guard of the workspace. -/
def servedWorkspace : Workspace :=
  { id := servedHost.ids 0, path := "/served" }

theorem isSound_servedTree : servedTree.IsSound := by
  have hdir : (precious.insert ["served"] (.directory Workspace.mode) 1).IsSound :=
    isSound_precious.insert (by unfold IsReal; decide) (by decide)
      ⟨[], "served", directoryMode, rfl, rfl⟩ (by decide) fun _ hserial => nomatch hserial
  refine hdir.insert (by unfold IsReal; decide) (by decide) ⟨["served"], "output.zip",
    Workspace.mode, rfl, rfl⟩ (by decide) fun serial hserial => ?_
  cases hserial
  decide

theorem leads_served : servedHost.files.resolve servedHost.cwd servedWorkspace.path false =
    .ok ["served"] := by
  decide +kernel

/-- The bundle is sent in two pieces, and the workspace is gone once the body is dropped.  A bundle
that is not there is not sent, and the workspace is gone then, too. -/
theorem deliver_served : ∃ response body s,
    (servedHost.files.IsSound ∧ IsReal servedHost.cwd ∧ servedWorkspace.released = false ∧
      servedHost.files.resolve servedHost.cwd servedWorkspace.path false = .ok ["served"]) ∧
    Http.Server.deliver "/served/output.zip" servedWorkspace servedHost = (.ok response, servedHost) ∧
    response.length = some 3 ∧ response.body = .download body ∧
    Runs ["served"] (start servedHost body) s ∧ s.pieces = [[1, 2], [3]] ∧ s.ended = true ∧
    s.Faithful servedHost ["served"] [1, 2, 3] ∧
    (s.body.drop s.host).files.get? ["served"] = none ∧
    (Http.Server.deliver "/served/missing.zip" servedWorkspace servedHost).1 =
      .error (.build (.io "/served/missing.zip" Fault.notFound.message)) ∧
    (Http.Server.deliver "/served/missing.zip" servedWorkspace servedHost).2.files.get? ["served"] =
      none := by
  have hreal : IsReal ["served"] := by unfold IsReal; decide
  have hremoved : (servedWorkspace.release servedHost).1 = .ok () := by
    refine (Workspace.release_result rfl).2 (.inl ?_)
    decide +kernel
  have hoffers : servedHost.files.Offers servedHost.cwd "/served/output.zip" [1, 2, 3] :=
    ⟨1, fileMode, by decide +kernel, by decide⟩
  have hmissing : servedHost.files.openRead servedHost.cwd "/served/missing.zip" =
      .error .notFound := by
    decide +kernel
  have hopen : servedHost.files.openRead servedHost.cwd "/served/output.zip" = .ok (.file 1) := by
    decide +kernel
  obtain ⟨response, body, hdeliver, -, hlength, hbody, hfaithful⟩ :=
    (deliver_faithful (w := servedWorkspace) isSound_servedTree isReal_nil rfl leads_served
      (List.cons_ne_nil _ _)).1 _ hoffers
  obtain ⟨hrefused, hgone⟩ :=
    (deliver_faithful (w := servedWorkspace) isSound_servedTree isReal_nil rfl leads_served
      (List.cons_ne_nil _ _)).2 _ hmissing
  obtain rfl : body = { source := .file 1, workspace := servedWorkspace } := by
    rw [Http.Server.deliver, hopen] at hdeliver
    cases hdeliver
    cases hbody
    rfl
  let sent (offset : Nat) (pieces : List Bytes) (ended : Bool) : Delivery :=
    ⟨servedHost, { source := .file 1, offset, workspace := servedWorkspace }, pieces, ended⟩
  have hpoll (size : Nat) (hsize : 0 < size) (piece? : Option Bytes) (offset next : Nat)
      (pieces : List Bytes) (hnext : (sent offset pieces false).body.next size servedHost =
        .ok (piece?, (sent next pieces false).body)) : Step ["served"] (sent offset pieces false)
      (sent next (pieces ++ piece?.toList) piece?.isNone) := .poll hsize hnext
  have hruns : Runs ["served"] (sent 0 [] false) (sent 3 [[1, 2], [3]] true) :=
    ((Relation.ReflTransGen.single (hpoll 2 (by decide) (some [1, 2]) 0 2 [] rfl)).tail
      (hpoll 2 (by decide) (some [3]) 2 3 [[1, 2]] rfl)).tail
      (hpoll 1 (by decide) none 3 3 [[1, 2], [3]] rfl)
  have hall := hfaithful _ hruns
  refine ⟨response, _, _, ⟨isSound_servedTree, isReal_nil, rfl, leads_served⟩, hdeliver, hlength,
    hbody, hruns, rfl, rfl, hall, ?_, hrefused, ?_⟩
  · exact (hall.dropped hremoved _ hreal).trans (if_pos (List.prefix_refl _))
  · exact (hgone hremoved _ hreal).trans (if_pos (List.prefix_refl _))

/-- With the closed directory in it the workspace is delivered from in the same way, and it is still
there when the body has been dropped; the same if there is nothing to deliver. -/
theorem guarded_stays : ∃ response body,
    (guardedHost.files.resolve guardedHost.cwd servedWorkspace.path false = .ok ["served"] ∧
      guardedHost.files.Offers guardedHost.cwd "/served/output.zip" [1, 2, 3]) ∧
    Http.Server.deliver "/served/output.zip" servedWorkspace guardedHost =
      (.ok response, guardedHost) ∧
    response.body = .download body ∧
    (body.drop guardedHost).files.get? ["served"] = some (.directory Workspace.mode) ∧
    (∃ e, (Http.Server.deliver "/served/missing.zip" servedWorkspace guardedHost).1 = .error e) ∧
    (Http.Server.deliver "/served/missing.zip" servedWorkspace guardedHost).2.files.get? ["served"] =
      some (.directory Workspace.mode) := by
  have hopen : guardedHost.files.openRead guardedHost.cwd "/served/output.zip" = .ok (.file 1) := by
    decide +kernel
  have hmissing : guardedHost.files.openRead guardedHost.cwd "/served/missing.zip" =
      .error .notFound := by
    decide +kernel
  have hstays : (servedWorkspace.drop guardedHost).files.get? ["served"] =
      some (.directory Workspace.mode) := by
    decide +kernel
  refine ⟨_, { source := .file 1, workspace := servedWorkspace }, ⟨by decide +kernel,
    1, fileMode, by decide +kernel, by decide⟩, by rw [Http.Server.deliver, hopen], rfl, hstays, ?_, ?_⟩
  · rw [Http.Server.deliver, hmissing]
    exact ⟨_, rfl⟩
  · rw [Http.Server.deliver, hmissing]
    exact hstays

end Delivery

end LangBundle
