import StyledScene.Proofs.Scene.Alike

/-!
# Editing the tree in place of the scene

Destroying a node and creating a container can be done on the scene or on its tree. The scene knows at
once what it has to forget and to write; the tree leaves that to the next adoption. Main statement: a
host who goes through the tree now and then gets the same answers from every later action, and at no time
reads anything else (`looksLike_byTree`).

In particular a new node is new to its scene, also in a slot that was used before: it has no values of
its own, no computed style, and no manager but the one that its parent uses (`ReadsNew`).
-/

namespace StyledScene

namespace SceneAction

/-- What a host may do to the tree in place of an action of the scene, if anything. -/
inductive ByTree : SceneAction → SceneAction → Prop where
  | same (a : SceneAction) : ByTree a a
  | destroy (id : NodeId) : ByTree (.destroy id) (.editTree (.destroy id))
  | createNode : ByTree (.createNode .container) (.editTree (.create "container"))
  | createChild (parent : NodeId) :
      ByTree (.createChild parent .container) (.editTree (.createChild parent "container"))

/-- The kind of the node that an action creates; on the tree, every node is a container. -/
def createdKind : SceneAction → Kind
  | .createNode kind | .createChild _ kind => kind
  | _ => .container

end SceneAction

namespace NodeTree

/-- The node that an edit has created lives, and no node had its id before. -/
theorem created_of_edit_eq_ok {t t' : NodeTree} (hwf : t.WellFormed) {e : TreeEdit} {id : NodeId}
    (h : t.edit e = .ok (.created id, t')) : ¬ t.Issued id ∧ t'.contains id = true := by
  cases adds_of_edit_eq_ok hwf h with
  | created hperm hserial =>
    refine ⟨t.not_issued_take, contains_iff.mpr ?_⟩
    obtain ⟨n, hn, hident⟩ := List.mem_map.mp (hperm.mem_iff.mpr List.mem_cons_self)
    exact (Prod.mk.inj hident).1 ▸ List.mem_map_of_mem hn
  | kept hreply _ _ => exact absurd rfl (hreply id)

end NodeTree

namespace Scene

variable {s s' : Scene}

/-! ## §1 New nodes -/

/-- A node that reads as if nothing had been done to it yet. -/
structure ReadsNew (s : Scene) (id : NodeId) (k : Kind) : Prop where
  kind : s.kind id = .ok k
  ownValues : s.ownValues id = .ok Style.empty
  defaults : s.defaults id = .ok k.defaults
  computedStyle : s.computedStyle id = .ok Style.empty
  boxFlags : s.boxFlags id = .ok FlagSet.empty
  /-- The node has no manager of its own. -/
  managerNumber : s.managerNumber? id = (s.tree.parentId? id).bind s.managerNumber?

/-- Without an attachment, a node uses what its parent uses. -/
theorem managerNumber?_of_unattached (hnd : s.tree.forest.ids.Nodup) {id : NodeId}
    (hlive : s.tree.contains id = true) (hnone : s.attachments.get? id = none) :
    s.managerNumber? id = (s.tree.parentId? id).bind s.managerNumber? := by
  obtain ⟨n, above, hp, hn⟩ := NodeTree.path?_of_contains hlive
  rw [managerNumber?_of_path? hp, List.findSome?_cons, hn, hnone]
  cases above with
  | nil =>
    rw [NodeTree.parentId?_of_root hp]
    rfl
  | cons m up =>
    rw [NodeTree.parentId?_of_path? hp, Option.bind_some,
      managerNumber?_of_path? (Forest.path?_above hnd hp)]

theorem readsNew_of_stylesOf (hnd : s.tree.forest.ids.Nodup) {id : NodeId} {kind : Kind}
    (hlive : s.tree.contains id = true) (hstyles : s.stylesOf id = NodeStyles.new kind)
    (hnone : s.attachments.get? id = none) : s.ReadsNew id kind := by
  have hread {α : Type} (answer : NodeStyles → α) :
      s.read id answer = .ok (answer (NodeStyles.new kind)) := by
    rw [read, if_pos hlive, hstyles]
  exact ⟨hread _, hread _, hread _, hread _, hread _, managerNumber?_of_unattached hnd hlive hnone⟩

section Answers

variable {α : Type} {id : NodeId}

theorem map_ne_created {ε : Type} {r : Except ε α} {f : α → SceneReply} (hf : ∀ a, f a ≠ .created id) :
    r.map f ≠ .ok (.created id) := by
  cases r with
  | error e => nofun
  | ok a => exact fun h => hf a (Except.ok.inj h)

theorem outcome_fst_ne_created {r : Except SceneError α} {f : α → SceneReply × Scene}
    (hf : ∀ a, (f a).1 ≠ .created id) : (s.outcome (r.map f)).1 ≠ .ok (.created id) := by
  cases r with
  | error e => nofun
  | ok a => exact fun h => hf a (Except.ok.inj h)

end Answers

/-- An action that answers with a new node has created it in the tree, and on the scene it has also
written the styles of the node. -/
theorem created_cases {a : SceneAction} {id : NodeId} (h : (s.perform a).1 = .ok (.created id)) :
    ∃ e t', s.tree.edit e = .ok (.created id, t') ∧
      ((s.after a = s.withTree t' ∧ a.createdKind = .container) ∨
        s.after a = s.grown id a.createdKind t') := by
  unfold after
  cases a with
  | editTree e =>
    simp only [perform] at h ⊢
    cases hr : s.tree.edit e with
    | error err =>
      rw [hr] at h
      cases h
    | ok answer =>
      obtain ⟨reply, t'⟩ := answer
      rw [hr] at h
      cases reply with
      | created k =>
        obtain rfl := SceneReply.created.inj (Except.ok.inj h)
        exact ⟨e, t', hr, .inl ⟨rfl, rfl⟩⟩
      | done => cases h
      | changed yes => cases h
  | createNode kind =>
    obtain rfl := SceneReply.created.inj (Except.ok.inj h)
    exact ⟨.create kind.name, _, rfl, .inr rfl⟩
  | createChild parent kind =>
    simp only [perform, createChild] at h ⊢
    cases hr : s.tree.createChild parent kind.name with
    | error err =>
      rw [hr] at h
      cases h
    | ok answer =>
      obtain ⟨k, t'⟩ := answer
      rw [hr] at h
      obtain rfl := SceneReply.created.inj (Except.ok.inj h)
      exact ⟨.createChild parent kind.name, t', by rw [NodeTree.edit, hr]; rfl, .inr rfl⟩
  | addManager config => cases h
  | editManager number e => cases h
  | ensureStyle k => exact absurd h (map_ne_created fun _ => SceneReply.noConfusion)
  | updateStyles => exact absurd h (map_ne_created fun _ => SceneReply.noConfusion)
  | paint k rect => exact absurd h (map_ne_created fun _ => SceneReply.noConfusion)
  | _ => exact absurd h (outcome_fst_ne_created fun _ => SceneReply.noConfusion)

/-- **A new node reads as new**, whoever had its slot before. -/
theorem Addressed.readsNew (h : s.Addressed) {a : SceneAction} {id : NodeId}
    (hcreated : (s.perform a).1 = .ok (.created id)) : (s.after a).ReadsNew id a.createdKind := by
  obtain ⟨e, t', hedit, hafter⟩ := created_cases hcreated
  obtain ⟨hid, hlive⟩ := NodeTree.created_of_edit_eq_ok h.tree hedit
  obtain ⟨hstyles, hattachments⟩ := h.get?_eq_none hid
  have hnd := ((NodeTree.editsTo_of_edit_eq_ok hedit).wellFormed h.tree).nodup_ids
  rcases hafter with ⟨hafter, hkind⟩ | hafter
  · rw [hafter, hkind]
    refine readsNew_of_stylesOf (s := s.withTree t') hnd hlive ?_ hattachments
    show (s.styles.get? id).getD _ = _
    rw [hstyles]
    rfl
  · rw [hafter]
    refine readsNew_of_stylesOf (s := s.grown id _ t') hnd hlive ?_ hattachments
    show ((s.styles.insert id _).get? id).getD _ = _
    rw [NodeMap.get?_insert_self]
    rfl

/-! ## §2 One action -/

/-- A new container has the styles that it would be read with anyway. -/
theorem Addressed.alike_grown (h : s.Addressed) {e : TreeEdit} {id : NodeId} {t' : NodeTree}
    (hedit : s.tree.edit e = .ok (.created id, t')) :
    (s.grown id .container t').Alike (s.withTree t') := by
  obtain ⟨hid, hlive⟩ := NodeTree.created_of_edit_eq_ok h.tree hedit
  have hwf := (NodeTree.editsTo_of_edit_eq_ok hedit).wellFormed h.tree
  refine ⟨rfl, fun k hk => ?_, fun _ _ => rfl, rfl⟩
  show (s.styles.get? k).getD _ = ((s.styles.insert id (NodeStyles.new .container)).get? k).getD _
  rw [NodeMap.get?_insert]
  by_cases hslot : k.index = id.index
  · -- in the slot of the new node nobody else lives
    obtain rfl := hwf.eq_of_index_eq (NodeTree.contains_iff.mp hk) (NodeTree.contains_iff.mp hlive)
      hslot
    rw [if_pos rfl, (h.get?_eq_none hid).1]
    rfl
  · rw [if_neg fun heq => hslot (congrArg NodeId.index heq), if_neg hslot]

/-- On the tree the action gets the same answer, and a host cannot see how it was done. -/
theorem Addressed.perform_byTree (h : s.Addressed) {a a' : SceneAction} (hby : a.ByTree a') :
    (s.perform a').1 = (s.perform a).1 ∧ (s.after a).Alike (s.after a') := by
  unfold after
  cases hby with
  | same => exact ⟨rfl, .refl _⟩
  | destroy id =>
    simp only [perform, destroy, NodeTree.edit]
    cases s.tree.destroy id with
    | error err => exact ⟨rfl, .refl s⟩
    | ok t' => exact ⟨rfl, (alike_forgetDead _).symm⟩
  | createNode => exact ⟨rfl, h.alike_grown (e := .create "container") rfl⟩
  | createChild parent =>
    simp only [perform, createChild, NodeTree.edit]
    cases hr : s.tree.createChild parent Kind.container.name with
    | error err =>
      have hr' : s.tree.createChild parent "container" = .error err := hr
      rw [hr']
      exact ⟨rfl, .refl s⟩
    | ok answer =>
      obtain ⟨id, t'⟩ := answer
      have hr' : s.tree.createChild parent "container" = .ok (id, t') := hr
      rw [hr']
      refine ⟨rfl, h.alike_grown (e := .createChild parent "container") ?_⟩
      rw [NodeTree.edit, hr']
      rfl

/-! ## §3 Runs -/

/-- The answers to a run of actions, in their order. -/
def replies (s : Scene) : List SceneAction → List (Except SceneError SceneReply)
  | [] => []
  | a :: actions => (s.perform a).1 :: (s.after a).replies actions

/-- **Runs that go through the tree now and then** get the same answers and end alike. -/
theorem Alike.run_byTree (h : s.Alike s') (hs : s.Addressed) (hs' : s'.Addressed)
    {actions actions' : List SceneAction}
    (hby : List.Forall₂ SceneAction.ByTree actions actions') :
    s'.replies actions' = s.replies actions ∧ (s.run actions).Alike (s'.run actions') := by
  induction hby generalizing s s' with
  | nil => exact ⟨rfl, h⟩
  | @cons a a' actions actions' ha _ ih =>
    -- both scenes make the first action, and then the second one makes it on the tree instead
    obtain ⟨hreply, hafter⟩ := h.perform hs hs' a
    obtain ⟨hreply', hafter'⟩ := hs'.perform_byTree ha
    obtain ⟨hreplies, hrun⟩ := ih (hafter.trans hafter') ((s.stepsTo_after a).addressed hs)
      ((s'.stepsTo_after a').addressed hs')
    exact ⟨by rw [replies, replies, hreply', hreply, hreplies], hrun⟩

/-- **Editing through the tree equals editing through the scene.** From a reachable scene, a run in which
some nodes are destroyed and some containers are created on the tree gets the same answers as the run
that does all of it on the scene, and after every step the two scenes read the same. A node that an action
creates reads as new, whichever node had its slot before. -/
theorem looksLike_byTree (h : s.Reachable) :
    (∀ actions actions', List.Forall₂ SceneAction.ByTree actions actions' →
      s.replies actions' = s.replies actions ∧
        ∀ n, (s.run (actions.take n)).LooksLike (s.run (actions'.take n))) ∧
    ∀ a id, (s.perform a).1 = .ok (.created id) → (s.after a).ReadsNew id a.createdKind := by
  have hs := addressed_of_reachable h
  refine ⟨fun actions actions' hby => ⟨?_, fun n => ?_⟩, fun a id => hs.readsNew⟩
  · exact ((Alike.refl s).run_byTree hs hs hby).1
  · exact ((Alike.refl s).run_byTree hs hs (List.forall₂_take n hby)).2.looksLike

/-- A row with a manager. A label in it, with a manager and a value of its own, has been destroyed on the
tree, and the scene still keeps what belonged to it. -/
def vacatedRow : Scene :=
  empty.run [.createNode .container, .createChild ⟨1, 1⟩ .text, .addManager .usual, .addManager .usual,
    .attach ⟨1, 1⟩ 0, .attach ⟨2, 1⟩ 1, .editOwn ⟨2, 1⟩ [.set .fontWeight 700],
    .editTree (.destroy ⟨2, 1⟩)]

/-- A box takes the slot of the label. On the scene or on the tree, it has nothing of the label and uses
the manager of the row, and the pass after it counts the same. -/
theorem looksLike_byTree_vacatedRow :
    let onScene := [.createChild ⟨1, 1⟩ .container, .updateStyles]
    let onTree := [.editTree (.createChild ⟨1, 1⟩ "container"), .updateStyles]
    vacatedRow.attachments.get? ⟨2, 1⟩ = some 1 ∧
      vacatedRow.replies onTree = vacatedRow.replies onScene ∧
      (vacatedRow.run onScene).LooksLike (vacatedRow.run onTree) ∧
      (vacatedRow.run (onTree.take 1)).ReadsNew ⟨2, 3⟩ .container ∧
      (vacatedRow.run (onTree.take 1)).managerNumber? ⟨2, 3⟩ = some 0 := by
  intro onScene onTree
  have hby : List.Forall₂ SceneAction.ByTree onScene onTree :=
    .cons (.createChild _) (.cons (.same _) .nil)
  obtain ⟨hruns, hnew⟩ := looksLike_byTree (s := vacatedRow) ⟨_, rfl⟩
  obtain ⟨hreplies, hlooks⟩ := hruns _ _ hby
  exact ⟨by decide, hreplies, hlooks 2, hnew _ _ rfl, by decide⟩

end Scene

end StyledScene
