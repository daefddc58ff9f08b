import Mathlib.Data.List.Find
import StyledScene.Proofs.Scene.Gaps
import StyledScene.Proofs.Tree.Refusals

/-!
# Refused actions

An action is refused because an id that it is given is not alive, because it would put a node under
itself, or because a style is wanted on a path with a gap (`perform_eq_error_iff`). A refusal leaves the
scene as it was, as far as a host can tell (`looksLike_after`). For the edits this is so because they
look before they change anything; for a style on demand it is so because of how managers are looked up: a
node uses the nearest manager above it, so a gap anywhere on a path is a gap at its root, and the root
comes first.

That needs hosts who attach only managers that they have added (`Built`). An attachment to a manager that
does not exist yet would be a gap below nodes that are served.
-/

namespace StyledScene

/-- The ids that an action is given, in the order in which they are looked up. -/
def SceneAction.arguments : SceneAction → List NodeId
  | .editTree e => e.arguments
  | .createNode _ | .addManager _ | .editManager _ _ | .updateStyles => []
  | .createChild parent _ => [parent]
  | .destroy id | .attach id _ | .detach id | .editOwn id _ | .editDefaults id _
  | .ensureStyle id | .paint id _ => [id]

/-- The action attaches a manager only if there is one of that number. -/
def SceneAction.Grounded (s : Scene) : SceneAction → Prop
  | .attach _ number => number < s.managers.length
  | _ => True

namespace Scene

variable {s s' : Scene}

/-! ## §1 Reasons -/

/-- The reason for which an action is refused, if there is one. -/
def refusal? (s : Scene) (a : SceneAction) : Option SceneError :=
  match a with
  | .editTree e => (s.tree.refusal? e).map SceneError.tree
  | a =>
    match a.arguments.find? fun id => !s.tree.contains id with
    | some id => some (.tree (.invalidNode id))
    | none =>
      match a with
      | .ensureStyle id | .paint id _ => (s.unserved? id).map SceneError.noStyleManager
      | _ => none

theorem liftTree_eq_error_iff {α : Type} {r : Except TreeError α} {e : SceneError} :
    liftTree r = .error e ↔ ∃ err, r = .error err ∧ e = .tree err := by
  cases r <;> simp [liftTree, eq_comm]

theorem outcome_fst_eq_error_iff {r : Except SceneError (SceneReply × Scene)} {e : SceneError} :
    (s.outcome r).1 = .error e ↔ r = .error e := by
  cases r <;> simp [outcome]

theorem find?_refusal_iff {dead : Option NodeId} {e : SceneError} :
    (∃ err, dead.map TreeError.invalidNode = some err ∧ e = .tree err) ↔
      (match dead with
        | some k => some (SceneError.tree (.invalidNode k))
        | none => none) = some e := by
  cases dead <;> simp [eq_comm]

/-- An operation on one node of the tree is refused if that node is not alive. -/
theorem liftTree_ask_eq_error_iff {id : NodeId} {α β : Type} {answer : Node → Forest → α}
    {f : α → β} {e : SceneError} :
    liftTree ((s.tree.ask id answer).map f) = .error e ↔
      (match [id].find? fun k => !s.tree.contains k with
        | some k => some (SceneError.tree (.invalidNode k))
        | none => none) = some e := by
  rw [liftTree_eq_error_iff]
  simp only [NodeTree.map_eq_error_iff, NodeTree.ask_eq_error_iff_find?]
  exact find?_refusal_iff

/-- Adoption closes no gap and opens none. -/
theorem unserved?_sync {id : NodeId} (hlive : s.tree.contains id = true) :
    s.sync.unserved? id = s.unserved? id := by
  obtain ⟨n, above, hp, -⟩ := NodeTree.path?_of_contains hlive
  rw [unserved?_of_path? hp, unserved?_of_path? (s := s.sync) hp]
  congr 1
  -- the nodes of the path are alive, and keep their attachments
  refine List.find?_congr fun k hk => ?_
  rw [manager?_sync (contains_of_mem_path hp (List.mem_reverse.mp hk))]

theorem ensureStyle_of_dead {id : NodeId} (hdead : s.tree.contains id = false) :
    s.ensureStyle id = (.error (.tree (.invalidNode id)), s.sync) :=
  if_neg (show ¬ s.sync.tree.contains id = true from hdead ▸ Bool.false_ne_true)

theorem ensureStyle_fst_eq_error_iff {id : NodeId} {e : SceneError} :
    (s.ensureStyle id).1 = .error e ↔ s.refusal? (.ensureStyle id) = some e := by
  unfold refusal? SceneAction.arguments
  cases hlive : s.tree.contains id with
  | false => simp [ensureStyle_of_dead hlive, hlive]
  | true =>
    rw [ensureStyle_fst_eq hlive, unserved?_sync hlive]
    cases hgap : s.unserved? id <;> simp [hlive, hgap]

/-- A living node is answered with the style that it has then. -/
theorem ensureStyle_eq_ok {id : NodeId} {style : Style} (h : (s.ensureStyle id).1 = .ok style) :
    s.tree.contains id = true ∧ style = ((s.ensureStyle id).2.stylesOf id).computed := by
  cases hlive : s.tree.contains id with
  | false =>
    rw [ensureStyle_of_dead hlive] at h
    cases h
  | true =>
    rw [ensureStyle_fst_eq hlive] at h
    split at h
    · exact ⟨rfl, (Except.ok.inj h).symm⟩
    · cases h

/-- A node that was brought up to date has a manager. -/
theorem manager?_of_ensureStyle_eq_ok {id : NodeId} {style : Style}
    (h : (s.ensureStyle id).1 = .ok style) :
    ((s.ensureStyle id).2.manager? id).isSome = true := by
  obtain ⟨hlive, -⟩ := ensureStyle_eq_ok h
  obtain ⟨n, above, hp, hn⟩ := NodeTree.path?_of_contains hlive
  rw [ensureStyle_fst_eq hlive] at h
  split at h
  · rename_i hserved
    rw [manager?_ensureStyle]
    refine unserved?_eq_none_iff.mp hserved id ?_
    simp [pathIds_of_path? (s := s.sync) hp, hn]
  · cases h

/-- What can be brought up to date can be painted. -/
theorem paint_fst_eq_error_iff {id : NodeId} {rect : Rect} {e : SceneError} :
    (s.paint id rect).1 = .error e ↔ (s.ensureStyle id).1 = .error e := by
  have hmanager := @manager?_of_ensureStyle_eq_ok s id
  unfold paint
  revert hmanager
  rcases s.ensureStyle id with ⟨err | style, after⟩
  · simp
  · intro hmanager
    obtain ⟨m, hm⟩ := Option.isSome_iff_exists.mp (hmanager rfl)
    simp [hm]

/-- **Every action is refused for its reason, and done if there is none.** -/
theorem perform_eq_error_iff (hwf : s.tree.WellFormed) (a : SceneAction) {e : SceneError} :
    (s.perform a).1 = .error e ↔ s.refusal? a = some e := by
  cases a with
  | editTree edit =>
    refine outcome_fst_eq_error_iff.trans (NodeTree.map_eq_error_iff.trans ?_)
    rw [liftTree_eq_error_iff, refusal?, Option.map_eq_some_iff]
    simp only [NodeTree.edit_eq_error_iff hwf, eq_comm]
  | createNode kind => simp [perform, refusal?, SceneAction.arguments]
  | createChild parent kind =>
    refine outcome_fst_eq_error_iff.trans (NodeTree.map_eq_error_iff.trans ?_)
    rw [createChild, liftTree_eq_error_iff]
    simp only [NodeTree.map_eq_error_iff, NodeTree.createChild_eq_error_iff hwf]
    exact find?_refusal_iff
  | destroy id =>
    exact outcome_fst_eq_error_iff.trans (NodeTree.map_eq_error_iff.trans liftTree_ask_eq_error_iff)
  | addManager config => simp [perform, refusal?, SceneAction.arguments]
  | editManager number edit => simp [perform, refusal?, SceneAction.arguments]
  | attach id number =>
    exact outcome_fst_eq_error_iff.trans (NodeTree.map_eq_error_iff.trans liftTree_ask_eq_error_iff)
  | detach id =>
    exact outcome_fst_eq_error_iff.trans (NodeTree.map_eq_error_iff.trans liftTree_ask_eq_error_iff)
  | editOwn id edits =>
    exact outcome_fst_eq_error_iff.trans (NodeTree.map_eq_error_iff.trans liftTree_ask_eq_error_iff)
  | editDefaults id edits =>
    exact outcome_fst_eq_error_iff.trans (NodeTree.map_eq_error_iff.trans liftTree_ask_eq_error_iff)
  | ensureStyle id =>
    exact NodeTree.map_eq_error_iff.trans ensureStyle_fst_eq_error_iff
  | updateStyles =>
    show (s.updateStyles.1.map SceneReply.count) = .error e ↔ _
    rw [updateStyles_eq]
    simp [refusal?, SceneAction.arguments, Except.map]
  | paint id rect =>
    exact NodeTree.map_eq_error_iff.trans (paint_fst_eq_error_iff.trans ensureStyle_fst_eq_error_iff)

theorem refusal?_eq_invalidNode_iff {a : SceneAction} {id : NodeId} :
    s.refusal? a = some (.tree (.invalidNode id)) ↔
      (a.arguments.find? fun k => !s.tree.contains k) = some id := by
  cases a with
  | editTree e => simp [refusal?, NodeTree.refusal?_eq_invalidNode_iff, SceneAction.arguments]
  | ensureStyle k | paint k rect =>
    cases hlive : s.tree.contains k <;> simp [refusal?, SceneAction.arguments, hlive]
  | _ =>
    simp only [refusal?]
    split <;> rename_i heq <;> simp [heq]

theorem refusal?_eq_circularParentage_iff (hnd : s.tree.forest.ids.Nodup) {a : SceneAction}
    {child parent : NodeId} :
    s.refusal? a = some (.tree (.circularParentage child parent)) ↔
      a = .editTree (.setParent child (some parent)) ∧ s.tree.contains child = true ∧
        s.tree.contains parent = true ∧ ∃ ids, s.tree.preorder child = .ok ids ∧ parent ∈ ids := by
  cases a with
  | editTree e => simp [refusal?, NodeTree.refusal?_eq_circularParentage_iff hnd]
  | ensureStyle k | paint k rect =>
    cases hlive : s.tree.contains k <;> simp [refusal?, SceneAction.arguments, hlive]
  | _ =>
    simp only [refusal?]
    split <;> simp

theorem refusal?_eq_noStyleManager_iff {a : SceneAction} {k : NodeId} :
    s.refusal? a = some (.noStyleManager k) ↔
      ∃ id, (a = .ensureStyle id ∨ ∃ rect, a = .paint id rect) ∧ s.unserved? id = some k := by
  have hdead {id : NodeId} (h : s.tree.contains id = false) : s.unserved? id = none := by
    have hnone : s.tree.path? id = none := Forest.path?_eq_none fun hid => by
      rw [NodeTree.contains_iff.mpr hid] at h
      cases h
    rw [unserved?, pathIds, hnone]
    rfl
  cases a with
  | editTree e => simp [refusal?]
  | ensureStyle id | paint id rect =>
    cases hlive : s.tree.contains id with
    | false => simp [refusal?, SceneAction.arguments, hlive, hdead hlive]
    | true => simp [refusal?, SceneAction.arguments, hlive]
  | _ =>
    simp only [refusal?]
    split <;> simp

/-! ## §2 Managers that there are -/

/-- The scenes of hosts that attach only managers that they have added. -/
inductive Built : Scene → Prop where
  | empty : Built Scene.empty
  | step {s : Scene} {a : SceneAction} (h : Built s) (ha : a.Grounded s) : Built (s.after a)

theorem Built.reachable (h : s.Built) : s.Reachable := by
  induction h with
  | empty => exact ⟨[], rfl⟩
  | @step s a _ _ ih =>
    obtain ⟨actions, rfl⟩ := ih
    exact ⟨actions ++ [a], by rw [run, run, List.foldl_append]; rfl⟩

/-- Every action of the run attaches only managers that there are, at its turn. -/
def GroundedRun (s : Scene) : List SceneAction → Prop
  | [] => True
  | a :: actions => a.Grounded s ∧ (s.after a).GroundedRun actions

theorem Built.run {actions : List SceneAction} (h : s.Built) (hactions : s.GroundedRun actions) :
    (s.run actions).Built := by
  induction actions generalizing s with
  | nil => exact h
  | cons a actions ih => exact ih (h.step hactions.1) hactions.2

/-- Every attachment is to a manager that there is. -/
def Known (s : Scene) : Prop :=
  ∀ id number, s.attachments.get? id = some number → number < s.managers.length

theorem Known.mono (h : s.Known)
    (hattachments : ∀ id number, s'.attachments.get? id = some number →
      s.attachments.get? id = some number)
    (hmanagers : s.managers.length ≤ s'.managers.length) : s'.Known :=
  fun id number hnumber => Nat.lt_of_lt_of_le (h id number (hattachments id number hnumber)) hmanagers

theorem attachments_of_retain {keep : NodeId → Bool} {id : NodeId} {number : Nat}
    (h : (s.attachments.retain keep).get? id = some number) :
    s.attachments.get? id = some number := by
  rw [NodeMap.get?_retain] at h
  split at h
  · exact h
  · cases h

theorem Known.sync (h : s.Known) : s.sync.Known :=
  h.mono (fun _ _ => attachments_of_retain) (Nat.le_refl _)

theorem Known.recomputeAll (h : s.Known) (due : List (NodeId × StyleManager)) :
    (s.recomputeAll due).Known := by
  unfold Known
  rw [attachments_recomputeAll, managers_recomputeAll]
  exact h

/-- No action of such a host attaches a manager that there is not. -/
theorem StepsTo.known {a : SceneAction} (h : s.StepsTo a s') (ha : a.Grounded s) (hk : s.Known) :
    s'.Known := by
  cases h with
  | destroy _ => exact hk.mono (fun _ _ => attachments_of_retain) (Nat.le_refl _)
  | addManager config =>
    refine hk.mono (fun _ _ hnumber => hnumber) ?_
    exact List.length_append ▸ Nat.le_add_right _ _
  | editManager number e =>
    -- the number of managers is the same
    exact hk.mono (fun _ _ hnumber => hnumber) (List.length_modify _ _ _ ▸ Nat.le_refl _)
  | @attach x number hlive =>
    -- the new attachment is to a manager that there is; the others are old
    intro id k hid
    have hid : (s.attachments.insert x number).get? id = some k := hid
    rw [NodeMap.get?_insert] at hid
    split at hid
    · exact Option.some.inj hid ▸ ha
    · split at hid
      · cases hid
      · exact hk id k hid
  | @detach x hlive =>
    refine hk.mono (fun id number hnumber => ?_) (Nat.le_refl _)
    have hnumber : (s.attachments.erase x).get? id = some number := hnumber
    rw [NodeMap.get?_erase] at hnumber
    split at hnumber
    · cases hnumber
    · exact hnumber
  | settle _ => exact hk.sync.recomputeAll _
  | pass =>
    exact (hk.sync.recomputeAll (s.sync.agenda s.sync.visible)).mono (fun _ _ hnumber => hnumber)
      (List.length_mapIdx ▸ Nat.le_refl _)
  | _ => exact hk

theorem Built.known (h : s.Built) : s.Known := by
  induction h with
  | empty =>
    intro id number hnumber
    cases hnumber
  | @step s a _ ha ih => exact (s.stepsTo_after a).known ha ih

/-! ## §3 Gaps at the root -/

variable {id : NodeId}

/-- Above a node that has no manager there is none. -/
theorem Known.manager?_eq_none_above (h : s.Known) (hnd : s.tree.forest.ids.Nodup) {p : List Node}
    (hp : s.tree.path? id = some p) (hnone : s.manager? id = none) {q : Node} (hq : q ∈ p) :
    s.manager? q.id = none := by
  have hpath : ∀ n ∈ p, s.attachments.get? n.id = none := by
    rw [manager?, managerNumber?_of_path? hp] at hnone
    cases hfound : p.findSome? fun n => s.attachments.get? n.id with
    | none => exact List.findSome?_eq_none_iff.mp hfound
    | some number =>
      -- an attachment on the path is to a manager that there is
      obtain ⟨k, -, hk⟩ := List.exists_of_findSome?_eq_some hfound
      rw [hfound, Option.bind_some, List.getElem?_eq_none_iff] at hnone
      exact absurd (h k.id number hk) (Nat.not_lt.mpr hnone)
  obtain ⟨below, up, rfl, hup⟩ := NodeTree.path?_of_mem_path hnd hp hq
  rw [manager?, managerNumber?_of_path? hup, List.findSome?_eq_none_iff.mpr]
  · rfl
  · exact fun n hn => hpath n (List.mem_append_right below hn)

/-- On a path with a gap, the first node to be computed is the root, and it has no manager. -/
theorem Known.manager?_head_stalePath (h : s.Known) (hnd : s.tree.forest.ids.Nodup) {k : NodeId}
    (hgap : s.unserved? id = some k) {n : Node} (hn : (s.stalePath id).head? = some n) :
    s.manager? n.id = none := by
  cases hp : s.tree.path? id with
  | none =>
    rw [stalePath, hp] at hn
    cases hn
  | some p =>
    rw [unserved?_of_path? hp] at hgap
    obtain ⟨g, hg, -⟩ := Option.map_eq_some_iff.mp hgap
    obtain ⟨below, up, rfl, hup⟩ := NodeTree.path?_of_mem_path hnd hp
      (List.mem_reverse.mp (List.mem_of_find?_eq_some hg))
    have hnone : s.manager? g.id = none := by simpa using List.find?_some hg
    obtain ⟨root, rest, hrev⟩ := List.exists_cons_of_ne_nil (l := (g :: up).reverse) (by simp)
    have hrootnone : s.manager? root.id = none := by
      refine h.manager?_eq_none_above hnd hup hnone ?_
      rw [← List.mem_reverse, hrev]
      exact List.mem_cons_self
    have hstale : s.isStale root = true := by simp [isStale, hrootnone]
    -- so the root is stale, and it stands first
    rw [stalePath_of_path? hp, List.reverse_append, hrev, List.cons_append,
      List.filter_cons_of_pos hstale] at hn
    obtain rfl := Option.some.inj hn
    exact hrootnone

/-- **Where a path has a gap, nobody is computed.** -/
theorem Built.ensureStyle_snd_of_error (h : s.Built) {e : SceneError}
    (herror : (s.ensureStyle id).1 = .error e) : (s.ensureStyle id).2 = s.sync := by
  have hwf := wellFormed_of_reachable h.reachable
  cases hlive : s.tree.contains id with
  | false => rw [ensureStyle_of_dead hlive]
  | true =>
    rw [ensureStyle_fst_eq hlive] at herror
    split at herror
    · cases herror
    · rename_i k hgap
      rw [ensureStyle_snd, served_eq_nil]
      · rfl
      · exact fun n hn =>
          Known.manager?_head_stalePath (s := s.sync) h.known.sync hwf.nodup_ids hgap hn

/-! ## §4 Nothing to be seen -/

/-- A host cannot tell the scenes apart: the trees are the same, with their marks and with the ids that
they give next, and so are the styles of living nodes, who has which manager, and the managers. -/
structure LooksLike (s s' : Scene) : Prop where
  tree : s'.tree = s.tree
  kind : ∀ id, s'.kind id = s.kind id
  ownValues : ∀ id, s'.ownValues id = s.ownValues id
  defaults : ∀ id, s'.defaults id = s.defaults id
  computedStyle : ∀ id, s'.computedStyle id = s.computedStyle id
  boxFlags : ∀ id, s'.boxFlags id = s.boxFlags id
  managerNumber : ∀ id, s.tree.contains id = true → s'.managerNumber? id = s.managerNumber? id
  managers : s'.managers = s.managers

theorem LooksLike.refl (s : Scene) : s.LooksLike s :=
  ⟨rfl, fun _ => rfl, fun _ => rfl, fun _ => rfl, fun _ => rfl, fun _ => rfl, fun _ _ => rfl, rfl⟩

/-- Nobody reads more of a node than the styles that it has while it lives. -/
theorem looksLike_of_stylesOf (htree : s'.tree = s.tree)
    (hstyles : ∀ id, s.tree.contains id = true → s'.stylesOf id = s.stylesOf id)
    (hnumber : ∀ id, s.tree.contains id = true → s'.managerNumber? id = s.managerNumber? id)
    (hmanagers : s'.managers = s.managers) : s.LooksLike s' := by
  have hread {α : Type} (id : NodeId) (answer : NodeStyles → α) :
      s'.read id answer = s.read id answer := by
    unfold read
    rw [htree]
    split
    · rename_i hlive
      rw [hstyles id hlive]
    · rfl
  exact ⟨htree, fun id => hread id _, fun id => hread id _, fun id => hread id _,
    fun id => hread id _, fun id => hread id _, hnumber, hmanagers⟩

/-- Adoption cannot be seen. -/
theorem looksLike_sync (hwf : s.tree.WellFormed) : s.LooksLike s.sync :=
  looksLike_of_stylesOf rfl (fun _ => stylesOf_sync hwf) (fun _ => managerNumber?_sync) rfl

theorem outcome_snd_of_error {r : Except SceneError (SceneReply × Scene)} {e : SceneError}
    (h : (s.outcome r).1 = .error e) : (s.outcome r).2 = s := by
  rw [outcome_fst_eq_error_iff] at h
  rw [h, outcome]

/-- **A refused action leaves the scene as it was**, as far as a host can tell. -/
theorem Built.looksLike_after (h : s.Built) {a : SceneAction} {e : SceneError}
    (herror : (s.perform a).1 = .error e) : s.LooksLike (s.after a) := by
  have hwf := wellFormed_of_reachable h.reachable
  have hkept {r : Except SceneError (SceneReply × Scene)} (hr : (s.outcome r).1 = .error e) :
      s.LooksLike (s.outcome r).2 := by
    rw [outcome_snd_of_error hr]
    exact .refl s
  have hensured {id : NodeId} (hid : (s.ensureStyle id).1 = .error e) :
      s.LooksLike (s.ensureStyle id).2 := by
    rw [h.ensureStyle_snd_of_error hid]
    exact looksLike_sync hwf
  cases a with
  | createNode kind => cases herror
  | addManager config => cases herror
  | editManager number edit => cases herror
  | updateStyles =>
    rw [perform_eq_error_iff hwf] at herror
    cases herror
  | ensureStyle id => exact hensured (NodeTree.map_eq_error_iff.mp herror)
  | paint id rect =>
    show s.LooksLike (s.paint id rect).2
    rw [paint_snd]
    exact hensured (paint_fst_eq_error_iff.mp (NodeTree.map_eq_error_iff.mp herror))
  | _ => exact hkept herror

end Scene

end StyledScene
