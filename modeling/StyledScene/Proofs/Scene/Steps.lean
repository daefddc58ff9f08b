import StyledScene.Proofs.Scene.Agenda
import StyledScene.Proofs.Tree.Roots
import StyledScene.Scene.Action

/-!
# What an action does

`StepsTo` has one case per kind of change that an action makes to a scene, with everything that the
action has checked; `stepsTo_after` reads it off the actions themselves. What every reachable scene
has in common, a well-formed tree (`wellFormed_of_reachable`) whose roots stand in slot order
(`rootsAscend_of_reachable`), follows by cases.
-/

namespace StyledScene

namespace NodeTree

theorem contains_create (t : NodeTree) (tag : String) :
    (t.create tag).2.contains t.pool.take.1 = true :=
  contains_iff.mpr ((t.ids_perm_create tag).mem_iff.mpr List.mem_cons_self)

end NodeTree

namespace Scene

/-! ## §1 The changes of a scene -/

/-- The scene with a new node of a kind in its tree. -/
def grown (s : Scene) (id : NodeId) (kind : Kind) (tree : NodeTree) : Scene :=
  { s with tree := tree, styles := s.styles.insert id (NodeStyles.new kind) }

/-- The scene with other styles for a node, and everything below the node marked. -/
def restyled (s : Scene) (id : NodeId) (styles : NodeStyles) : Scene :=
  { s with tree := s.tree.marked id, styles := s.styles.insert id styles }

/-- The nodes that an action computes anew, each with its manager. -/
def renewed (s : Scene) : SceneAction → List (NodeId × StyleManager)
  | .ensureStyle id | .paint id _ => s.sync.served (s.sync.stalePath id)
  | .updateStyles => s.sync.agenda s.sync.visible
  | _ => []

/-- The scene `s'` comes from an action. -/
inductive StepsTo (s : Scene) : SceneAction → Scene → Prop where
  /-- The action was refused. -/
  | refused {a : SceneAction} (hnobody : s.renewed a = []) : StepsTo s a s
  | editTree {e : TreeEdit} {t' : NodeTree} (h : s.tree.EditsTo e t') :
      StepsTo s (.editTree e) (s.withTree t')
  | grow {a : SceneAction} {e : TreeEdit} {kind : Kind} {t' : NodeTree} (h : s.tree.EditsTo e t')
      (he : (∃ tag, e = .create tag) ∨ ∃ parent tag, e = .createChild parent tag)
      (hlive : s.tree.WellFormed → t'.contains s.tree.pool.take.1 = true)
      (hnobody : s.renewed a = []) : StepsTo s a (s.grown s.tree.pool.take.1 kind t')
  | destroy {id : NodeId} {t' : NodeTree} (h : s.tree.EditsTo (.destroy id) t') :
      StepsTo s (.destroy id) (s.withTree t').forgetDead
  | addManager (config : ManagerConfig) : StepsTo s (.addManager config) (s.addManager config)
  | editManager (number : Nat) (e : ManagerEdit) :
      StepsTo s (.editManager number e) (s.modifyManager number fun m => m.after e)
  | attach {id : NodeId} (number : Nat) (hlive : s.tree.contains id = true) :
      StepsTo s (.attach id number)
        { s with tree := s.tree.marked id, attachments := s.attachments.insert id number }
  | detach {id : NodeId} (hlive : s.tree.contains id = true) :
      StepsTo s (.detach id)
        { s with tree := s.tree.marked id, attachments := s.attachments.erase id }
  | restyle {a : SceneAction} {id : NodeId} {styles : NodeStyles} (hlive : s.tree.contains id = true)
      (hnobody : s.renewed a = []) : StepsTo s a (s.restyled id styles)
  /-- Nodes were computed anew that a single node needs. -/
  | settle {a : SceneAction} (h : s.tree.WellFormed → s.sync.Settles (s.renewed a)) :
      StepsTo s a (s.sync.recomputeAll (s.renewed a))
  | pass : StepsTo s .updateStyles s.passed

/-! ## §2 From actions to changes -/

/-- A result of the tree that the scene takes over is the result of the tree. -/
theorem exists_of_liftTree_eq_ok {α : Type} {r : Except TreeError α} {a : α}
    (h : liftTree r = .ok a) : r = .ok a := by
  cases r with
  | error e => cases h
  | ok b => exact congrArg _ (Except.ok.inj h)

/-- An action that leaves the scene alone when it is refused. -/
theorem stepsTo_outcome {s : Scene} {a : SceneAction} {r : Except SceneError (SceneReply × Scene)}
    (hnobody : s.renewed a = []) (h : ∀ reply s', r = .ok (reply, s') → s.StepsTo a s') :
    s.StepsTo a (s.outcome r).2 := by
  cases r with
  | error e => exact .refused hnobody
  | ok result => exact h result.1 result.2 rfl

theorem markDirty_eq_ok {t t' : NodeTree} {id : NodeId} (h : t.markDirty id = .ok t') :
    t.contains id = true ∧ t' = t.marked id := by
  obtain ⟨sub, hsub, rfl⟩ := NodeTree.ask_eq_ok_iff.mp h
  exact ⟨by rw [NodeTree.contains, hsub]; rfl, rfl⟩

theorem stepsTo_revise {s s' : Scene} {a : SceneAction} {id : NodeId} {f : NodeStyles → NodeStyles}
    (hnobody : s.renewed a = []) (h : s.revise id f = .ok s') : s.StepsTo a s' := by
  obtain ⟨tree, hmark, rfl⟩ := NodeTree.exists_of_map_eq_ok (exists_of_liftTree_eq_ok h)
  obtain ⟨hlive, rfl⟩ := markDirty_eq_ok hmark
  exact .restyle hlive hnobody

/-- Bringing a path up to date computes its served part. -/
theorem refresh_snd (s : Scene) (ns : List Node) :
    (s.refresh ns).2 = s.recomputeAll (s.served ns) := by
  induction ns generalizing s with
  | nil => rfl
  | cons n ns ih =>
    unfold refresh served
    cases hm : s.manager? n.id with
    | none => rfl
    | some m =>
      -- computing a node does not change who has which manager
      have hserved : (s.recompute m n.id).served ns = s.served ns := by
        have hmanager := manager?_congr (s.equalUpToMarks_recompute m n.id) rfl rfl
        clear ih
        induction ns with
        | nil => rfl
        | cons k ns ihk => unfold served; rw [hmanager, ihk]
      simp only [ih, hserved]
      rfl

theorem stalePath_of_dead {s : Scene} {id : NodeId} (hdead : ¬ s.tree.contains id = true) :
    s.stalePath id = [] := by
  have hnone : s.tree.path? id = none :=
    Forest.path?_eq_none fun hid => hdead (NodeTree.contains_iff.mpr hid)
  rw [stalePath, hnone]
  rfl

/-- Bringing a node up to date computes the served part of its stale path. -/
theorem ensureStyle_snd (s : Scene) (id : NodeId) :
    (s.ensureStyle id).2 = s.sync.recomputeAll (s.sync.served (s.sync.stalePath id)) := by
  unfold ensureStyle
  simp only
  split
  · rw [← refresh_snd]
    -- whether the path was served to its end changes the answer only
    rcases s.sync.refresh (s.sync.stalePath id) with ⟨e | u, after⟩ <;> rfl
  · rename_i hdead
    rw [stalePath_of_dead hdead]
    rfl

/-- Bringing a node up to date changes nothing but marks in the tree. -/
theorem equalUpToMarks_ensureStyle (s : Scene) (id : NodeId) :
    s.tree.EqualUpToMarks (s.ensureStyle id).2.tree := by
  rw [ensureStyle_snd]
  exact s.sync.equalUpToMarks_recomputeAll _

theorem manager?_ensureStyle (s : Scene) (id k : NodeId) :
    (s.ensureStyle id).2.manager? k = s.sync.manager? k := by
  rw [ensureStyle_snd]
  exact manager?_congr (s.sync.equalUpToMarks_recomputeAll _) (attachments_recomputeAll _ _)
    (managers_recomputeAll _ _) k

theorem after_updateStyles (s : Scene) : s.after .updateStyles = s.passed :=
  congrArg Prod.snd s.updateStyles_eq

theorem after_ensureStyle (s : Scene) (id : NodeId) :
    s.after (.ensureStyle id) = s.sync.recomputeAll (s.renewed (.ensureStyle id)) :=
  s.ensureStyle_snd id

theorem paint_snd (s : Scene) (id : NodeId) (rect : Rect) :
    (s.paint id rect).2 = (s.ensureStyle id).2 := by
  -- painting itself reads the scene only
  unfold paint
  rcases s.ensureStyle id with ⟨e | style, after⟩
  · rfl
  · simp only
    cases after.manager? id <;> rfl

/-- **Every action is refused or makes one of the changes above.** -/
theorem stepsTo_after (s : Scene) (a : SceneAction) : s.StepsTo a (s.after a) := by
  unfold after
  cases a with
  | editTree e =>
    apply stepsTo_outcome rfl
    intro reply s' h
    obtain ⟨⟨r, t'⟩, hr, heq⟩ := NodeTree.exists_of_map_eq_ok h
    obtain ⟨-, rfl⟩ := Prod.mk.inj heq
    exact .editTree (NodeTree.editsTo_of_edit_eq_ok (exists_of_liftTree_eq_ok hr))
  | createNode kind =>
    exact .grow (.create kind.name) (Or.inl ⟨_, rfl⟩) (fun _ => s.tree.contains_create kind.name) rfl
  | createChild parent kind =>
    apply stepsTo_outcome rfl
    intro reply s' h
    obtain ⟨id, hr⟩ := NodeTree.exists_of_map_pair_eq_ok (fun _ _ => rfl) h
    obtain ⟨⟨id', t'⟩, hchild, heq'⟩ := NodeTree.exists_of_map_eq_ok (exists_of_liftTree_eq_ok hr)
    obtain ⟨rfl, rfl⟩ := Prod.mk.inj heq'
    obtain ⟨rfl, hmoves⟩ := NodeTree.createChild_eq_ok hchild
    refine .grow (.createChild hmoves) (Or.inr ⟨_, _, rfl⟩) (fun hwf => ?_) rfl
    -- a move keeps all nodes alive, the new one among them
    rw [NodeTree.contains_iff, (hmoves.ids_perm (hwf.create _).nodup_ids).1.mem_iff,
      ← NodeTree.contains_iff]
    exact s.tree.contains_create kind.name
  | destroy id =>
    apply stepsTo_outcome rfl
    intro reply s' h
    have hr := NodeTree.eq_ok_of_map_eq_ok h
    obtain ⟨t', hdestroy, rfl⟩ := NodeTree.exists_of_map_eq_ok (exists_of_liftTree_eq_ok hr)
    obtain ⟨sub, hsub, rfl⟩ := NodeTree.ask_eq_ok_iff.mp hdestroy
    exact .destroy (.destroy hsub)
  | addManager config => exact .addManager config
  | editManager number e => exact .editManager number e
  | attach id number =>
    apply stepsTo_outcome rfl
    intro reply s' h
    have hr := NodeTree.eq_ok_of_map_eq_ok h
    obtain ⟨t', hmark, rfl⟩ := NodeTree.exists_of_map_eq_ok (exists_of_liftTree_eq_ok hr)
    obtain ⟨hlive, rfl⟩ := markDirty_eq_ok hmark
    exact .attach number hlive
  | detach id =>
    apply stepsTo_outcome rfl
    intro reply s' h
    obtain ⟨number, hr⟩ := NodeTree.exists_of_map_pair_eq_ok (fun _ _ => rfl) h
    obtain ⟨t', hmark, heq⟩ := NodeTree.exists_of_map_eq_ok (exists_of_liftTree_eq_ok hr)
    obtain ⟨-, rfl⟩ := Prod.mk.inj heq
    obtain ⟨hlive, rfl⟩ := markDirty_eq_ok hmark
    exact .detach hlive
  | editOwn id edits =>
    apply stepsTo_outcome rfl
    intro reply s' h
    have hr := NodeTree.eq_ok_of_map_eq_ok h
    exact stepsTo_revise rfl hr
  | editDefaults id edits =>
    apply stepsTo_outcome rfl
    intro reply s' h
    have hr := NodeTree.eq_ok_of_map_eq_ok h
    exact stepsTo_revise rfl hr
  | ensureStyle id =>
    show s.StepsTo (.ensureStyle id) (s.after (.ensureStyle id))
    rw [after_ensureStyle]
    exact .settle fun hwf => settles_served (s := s.sync) hwf.nodup_ids id
  | updateStyles =>
    show s.StepsTo .updateStyles (s.after .updateStyles)
    rw [after_updateStyles]
    exact .pass
  | paint id rect =>
    show s.StepsTo (.paint id rect) (s.paint id rect).2
    rw [paint_snd, ensureStyle_snd]
    exact .settle fun hwf => settles_served (s := s.sync) hwf.nodup_ids id

/-! ## §3 Scenes in step -/

/-- What a pass leaves if it has nobody to adopt. -/
def passedInStep (s : Scene) : Scene := (s.recomputeAll (s.agenda s.visible)).validated s.visible

/-- What bringing a node up to date leaves if there is nobody to adopt. -/
def ensuredInStep (s : Scene) (id : NodeId) : Scene := s.recomputeAll (s.served (s.stalePath id))

theorem after_updateStyles_of_synced {s : Scene} (h : s.Synced) :
    s.after .updateStyles = s.passedInStep := by
  rw [after_updateStyles, passed, sync_eq_self h, passedInStep]

theorem after_ensureStyle_of_synced {s : Scene} (h : s.Synced) (id : NodeId) :
    s.after (.ensureStyle id) = s.ensuredInStep id := by
  rw [after_ensureStyle, renewed, sync_eq_self h, ensuredInStep]

/-! ## §4 Every reachable scene -/

theorem equalUpToMarks_passed (s : Scene) : s.tree.EqualUpToMarks s.passed.tree :=
  equalUpToMarks_recomputeAll s.sync _

theorem StepsTo.wellFormed {s s' : Scene} {a : SceneAction} (h : s.StepsTo a s')
    (hwf : s.tree.WellFormed) : s'.tree.WellFormed := by
  cases h with
  | refused _ => exact hwf
  | editTree h => exact h.wellFormed hwf
  | grow h _ _ _ => exact h.wellFormed hwf
  | destroy h => exact h.wellFormed hwf
  | addManager config => exact hwf
  | editManager number e => exact hwf
  | attach number _ => exact hwf.of_equalUpToMarks (.marked s.tree _)
  | detach _ => exact hwf.of_equalUpToMarks (.marked s.tree _)
  | restyle _ _ => exact hwf.of_equalUpToMarks (.marked s.tree _)
  | settle _ => exact hwf.of_equalUpToMarks (equalUpToMarks_recomputeAll s.sync _)
  | pass => exact hwf.of_equalUpToMarks s.equalUpToMarks_passed

theorem wellFormed_run {s : Scene} (hwf : s.tree.WellFormed) (actions : List SceneAction) :
    (s.run actions).tree.WellFormed := by
  induction actions generalizing s with
  | nil => exact hwf
  | cons a actions ih => exact ih ((s.stepsTo_after a).wellFormed hwf)

/-- **The tree of every reachable scene is well formed.** -/
theorem wellFormed_of_reachable {s : Scene} (h : s.Reachable) : s.tree.WellFormed := by
  obtain ⟨actions, rfl⟩ := h
  exact wellFormed_run NodeTree.wellFormed_empty actions

theorem StepsTo.rootsAscend {s s' : Scene} {a : SceneAction} (h : s.StepsTo a s')
    (hwf : s.tree.WellFormed) (hroots : s.tree.RootsAscend) : s'.tree.RootsAscend := by
  have hmarked (id : NodeId) : (s.tree.marked id).RootsAscend :=
    (NodeTree.EqualUpToMarks.marked s.tree id).rootsAscend hroots
  cases h with
  | refused _ => exact hroots
  | editTree h => exact h.rootsAscend hwf hroots
  | grow h _ _ _ => exact h.rootsAscend hwf hroots
  | destroy h => exact h.rootsAscend hwf hroots
  | addManager config => exact hroots
  | editManager number e => exact hroots
  | attach number _ => exact hmarked _
  | detach _ => exact hmarked _
  | restyle _ _ => exact hmarked _
  | settle _ => exact (equalUpToMarks_recomputeAll s.sync _).rootsAscend hroots
  | pass => exact s.equalUpToMarks_passed.rootsAscend hroots

theorem rootsAscend_run {s : Scene} (hwf : s.tree.WellFormed) (hroots : s.tree.RootsAscend)
    (actions : List SceneAction) : (s.run actions).tree.RootsAscend := by
  induction actions generalizing s with
  | nil => exact hroots
  | cons a actions ih =>
    have hstep := s.stepsTo_after a
    exact ih (hstep.wellFormed hwf) (hstep.rootsAscend hwf hroots)

/-- **The roots of every reachable scene stand in slot order.** -/
theorem rootsAscend_of_reachable {s : Scene} (h : s.Reachable) : s.tree.RootsAscend := by
  obtain ⟨actions, rfl⟩ := h
  exact rootsAscend_run (s := empty) NodeTree.wellFormed_empty List.Pairwise.nil actions

end Scene

end StyledScene
