import StyledScene.Proofs.Scene.LazyStyles
import StyledScene.Proofs.Scene.Refusals
import StyledScene.Proofs.Tree.Births

/-!
# Scenes that are alike

The tables of a scene may still hold entries of dead nodes and lack entries of living ones, until the
next adoption. None of this can be noticed: two scenes are `Alike` if they agree on what living nodes
read, and then every action gets the same answer from both and leaves them alike again
(`Alike.perform`).

A new node is the delicate case. Nobody has written its styles yet, so it reads whatever stands under
its id. That is nothing, because tables only know ids that the tree has issued (`Addressed`), and the
tree issues no id twice.
-/

namespace StyledScene

namespace Scene

variable {s s' : Scene}

/-! ## §1 Ids in tables -/

/-- The tables know no id that the tree has not issued. -/
structure Addressed (s : Scene) : Prop where
  tree : s.tree.WellFormed
  styles : ∀ id, s.styles.contains id = true → s.tree.Issued id
  attachments : ∀ id, s.attachments.contains id = true → s.tree.Issued id

theorem addressed_empty : empty.Addressed where
  tree := NodeTree.wellFormed_empty
  styles id h := by cases h
  attachments id h := by cases h

theorem contains_of_entries {α : Type} {m : NodeMap α} {id : NodeId} (h : m.contains id = true) :
    ∃ entry ∈ m.entries, entry.1 = id := by
  rw [NodeMap.contains, NodeMap.get?, Option.isSome_map, List.find?_isSome] at h
  obtain ⟨entry, hentry, hkey⟩ := h
  exact ⟨entry, hentry, beq_iff_eq.mp hkey⟩

/-- In step with its tree, a scene knows living nodes only. -/
theorem Synced.addressed (h : s.Synced) (hwf : s.tree.WellFormed) : s.Addressed where
  tree := hwf
  styles id hid := by
    obtain ⟨entry, hentry, rfl⟩ := contains_of_entries hid
    exact hwf.issued_of_mem (NodeTree.contains_iff.mp (h.styles_live entry hentry))
  attachments id hid := by
    obtain ⟨entry, hentry, rfl⟩ := contains_of_entries hid
    exact hwf.issued_of_mem (NodeTree.contains_iff.mp (h.attachments_live entry hentry))

theorem Addressed.editsTo (h : s.Addressed) {e : TreeEdit} {t' : NodeTree}
    (he : s.tree.EditsTo e t') : (s.withTree t').Addressed where
  tree := he.wellFormed h.tree
  styles id hid := he.issued h.tree (h.styles id hid)
  attachments id hid := he.issued h.tree (h.attachments id hid)

theorem Addressed.marked (h : s.Addressed) (id : NodeId) : (s.withTree (s.tree.marked id)).Addressed :=
  h.editsTo (.markDirty id)

/-- An entry for a living node is an entry for an issued id. -/
theorem Addressed.insert_styles (h : s.Addressed) {id : NodeId} (hlive : s.tree.contains id = true)
    (styles : NodeStyles) : { s with styles := s.styles.insert id styles }.Addressed where
  tree := h.tree
  styles k hk := by
    rcases NodeMap.contains_of_insert hk with rfl | hold
    · exact h.tree.issued_of_mem (NodeTree.contains_iff.mp hlive)
    · exact h.styles k hold
  attachments := h.attachments

/-- Whatever a host does, the tables know no id that was not issued. -/
theorem StepsTo.addressed {a : SceneAction} (hstep : s.StepsTo a s') (h : s.Addressed) :
    s'.Addressed := by
  cases hstep with
  | refused _ => exact h
  | editTree he => exact h.editsTo he
  | grow he _ hlive _ => exact (h.editsTo he).insert_styles (hlive h.tree) _
  | destroy he =>
    have hedited := h.editsTo he
    exact ⟨hedited.tree, fun id hid => hedited.styles id (NodeMap.contains_of_retain hid),
      fun id hid => hedited.attachments id (NodeMap.contains_of_retain hid)⟩
  | addManager config => exact ⟨h.tree, h.styles, h.attachments⟩
  | editManager number e => exact ⟨h.tree, h.styles, h.attachments⟩
  | @attach id number hlive =>
    have hmarked := h.marked id
    refine ⟨hmarked.tree, hmarked.styles, fun k hk => ?_⟩
    rcases NodeMap.contains_of_insert hk with rfl | hold
    · refine hmarked.tree.issued_of_mem ?_
      rw [withTree, NodeTree.ids_marked]
      exact NodeTree.contains_iff.mp hlive
    · exact hmarked.attachments k hold
  | @detach id hlive =>
    have hmarked := h.marked id
    exact ⟨hmarked.tree, hmarked.styles,
      fun k hk => hmarked.attachments k (NodeMap.contains_of_erase hk)⟩
  | @restyle _ id _ hlive _ =>
    refine (h.marked id).insert_styles ?_ _
    exact (NodeTree.EqualUpToMarks.marked s.tree id).contains id ▸ hlive
  | settle hsettles =>
    have hord := (hsettles h.tree).order
    refine ((synced_sync h.tree).recomputeAll h.tree ?_).addressed ?_
    · exact fun entry hentry => hord.live entry.1 (List.mem_map_of_mem hentry)
    · exact h.tree.of_equalUpToMarks (equalUpToMarks_recomputeAll s.sync _)
  | pass => exact (synced_passed h.tree).addressed (h.tree.of_equalUpToMarks s.equalUpToMarks_passed)

theorem addressed_run (h : s.Addressed) (actions : List SceneAction) : (s.run actions).Addressed := by
  induction actions generalizing s with
  | nil => exact h
  | cons a actions ih => exact ih ((s.stepsTo_after a).addressed h)

/-- **The tables of a reachable scene know no id that its tree has not issued.** -/
theorem addressed_of_reachable (h : s.Reachable) : s.Addressed := by
  obtain ⟨actions, rfl⟩ := h
  exact addressed_run addressed_empty actions

/-- A node that is not there yet has no entries. -/
theorem Addressed.get?_eq_none (h : s.Addressed) {id : NodeId} (hid : ¬ s.tree.Issued id) :
    s.styles.get? id = none ∧ s.attachments.get? id = none := by
  constructor
  · rw [← Option.not_isSome_iff_eq_none]
    exact fun hsome => hid (h.styles id hsome)
  · rw [← Option.not_isSome_iff_eq_none]
    exact fun hsome => hid (h.attachments id hsome)

/-! ## §2 Alike -/

/-- The scenes agree on their trees, on their managers, and on what living nodes read. -/
structure Alike (s s' : Scene) : Prop where
  tree : s'.tree = s.tree
  styles : ∀ id, s.tree.contains id = true → s'.stylesOf id = s.stylesOf id
  attachments : ∀ id, s.tree.contains id = true → s'.attachments.get? id = s.attachments.get? id
  managers : s'.managers = s.managers

namespace Alike

theorem refl (s : Scene) : s.Alike s := ⟨rfl, fun _ _ => rfl, fun _ _ => rfl, rfl⟩

theorem symm (h : s.Alike s') : s'.Alike s :=
  ⟨h.tree.symm, fun id hid => (h.styles id (h.tree ▸ hid)).symm,
    fun id hid => (h.attachments id (h.tree ▸ hid)).symm, h.managers.symm⟩

theorem trans {s'' : Scene} (h : s.Alike s') (h' : s'.Alike s'') : s.Alike s'' :=
  ⟨h'.tree.trans h.tree,
    fun id hid => (h'.styles id (h.tree.symm ▸ hid)).trans (h.styles id hid),
    fun id hid => (h'.attachments id (h.tree.symm ▸ hid)).trans (h.attachments id hid),
    h'.managers.trans h.managers⟩

/-- Adoption only adds what was read before, and forgets what could not be read. -/
theorem sync (hwf : s.tree.WellFormed) : s.Alike s.sync :=
  ⟨rfl, fun _ => stylesOf_sync hwf, fun _ => attachments_sync, rfl⟩

theorem managerNumber? (h : s.Alike s') {id : NodeId} (hlive : s.tree.contains id = true) :
    s'.managerNumber? id = s.managerNumber? id := by
  obtain ⟨n, above, hp, -⟩ := NodeTree.path?_of_contains hlive
  rw [managerNumber?_of_path? hp, managerNumber?_of_path? (h.tree ▸ hp)]
  exact findSome?_congr fun n hn => h.attachments n.id (contains_of_mem_path hp hn)

theorem manager? (h : s.Alike s') {id : NodeId} (hlive : s.tree.contains id = true) :
    s'.manager? id = s.manager? id := by
  rw [Scene.manager?, Scene.manager?, h.managerNumber? hlive, h.managers]

/-- A host cannot tell the scenes apart. -/
theorem looksLike (h : s.Alike s') : s.LooksLike s' :=
  looksLike_of_stylesOf h.tree h.styles (fun _ => h.managerNumber?) h.managers

/-! ## §3 Edits -/

/-- After an edit of the tree the living nodes are old ones, or new ones that nobody has entries for. -/
theorem editsTo (h : s.Alike s') (hs : s.Addressed) (hs' : s'.Addressed) {e : TreeEdit} {t' : NodeTree}
    (he : s.tree.EditsTo e t') : (s.withTree t').Alike (s'.withTree t') := by
  have hsame {id : NodeId} (hlive : t'.contains id = true) :
      s'.stylesOf id = s.stylesOf id ∧ s'.attachments.get? id = s.attachments.get? id := by
    by_cases hid : s.tree.Issued id
    · have hold := NodeTree.contains_iff.mpr
        (he.mem_ids_of_issued hs.tree hid (NodeTree.contains_iff.mp hlive))
      exact ⟨h.styles id hold, h.attachments id hold⟩
    · obtain ⟨hstyles, hattachments⟩ := hs.get?_eq_none hid
      obtain ⟨hstyles', hattachments'⟩ := hs'.get?_eq_none (h.tree ▸ hid)
      rw [stylesOf, stylesOf, hstyles, hstyles', hattachments, hattachments']
      exact ⟨rfl, rfl⟩
  exact ⟨rfl, fun _ hlive => (hsame hlive).1, fun _ hlive => (hsame hlive).2, h.managers⟩

/-- Marks do not bring anyone to life. -/
theorem withTree (h : s.Alike s') {t' : NodeTree} (hsame : s.tree.EqualUpToMarks t') :
    (s.withTree t').Alike (s'.withTree t') :=
  ⟨rfl, fun k hk => h.styles k (hsame.contains k ▸ hk),
    fun k hk => h.attachments k (hsame.contains k ▸ hk), h.managers⟩

theorem insert_styles (h : s.Alike s') (id : NodeId) {styles styles' : NodeStyles}
    (hsame : styles' = styles) :
    { s with styles := s.styles.insert id styles }.Alike
      { s' with styles := s'.styles.insert id styles' } := by
  refine ⟨h.tree, fun k hk => ?_, h.attachments, h.managers⟩
  simp only [stylesOf, NodeMap.get?_insert, hsame]
  split
  · rfl
  · split
    · rfl
    · exact h.styles k hk

theorem insert_attachments (h : s.Alike s') (id : NodeId) (number : Nat) :
    { s with attachments := s.attachments.insert id number }.Alike
      { s' with attachments := s'.attachments.insert id number } := by
  refine ⟨h.tree, h.styles, fun k hk => ?_, h.managers⟩
  simp only [NodeMap.get?_insert, h.attachments k hk]

theorem erase_attachments (h : s.Alike s') (id : NodeId) :
    { s with attachments := s.attachments.erase id }.Alike
      { s' with attachments := s'.attachments.erase id } := by
  refine ⟨h.tree, h.styles, fun k hk => ?_, h.managers⟩
  simp only [NodeMap.get?_erase, h.attachments k hk]

end Alike

/-- Forgetting dead nodes cannot be noticed. -/
theorem alike_forgetDead (s : Scene) : s.Alike s.forgetDead where
  tree := rfl
  styles id hlive := by rw [stylesOf, s.styles_forgetDead hlive, stylesOf]
  attachments _ hlive := attachments_sync hlive
  managers := rfl

/-! ## §4 Work -/

namespace Alike

/-- A change of the styles of a node is refused by both or done by both. -/
theorem revise (h : s.Alike s') (id : NodeId) (f : NodeStyles → NodeStyles) :
    let done (u : Scene) := u.outcome ((u.revise id f).map fun after => (SceneReply.done, after))
    (done s').1 = (done s).1 ∧ (done s).2.Alike (done s').2 := by
  simp only [Scene.revise, h.tree]
  cases hr : s.tree.markDirty id with
  | error err => exact ⟨rfl, h⟩
  | ok t' =>
    obtain ⟨hlive, rfl⟩ := markDirty_eq_ok hr
    refine ⟨rfl, (h.withTree (.marked s.tree id)).insert_styles id ?_⟩
    rw [h.styles id hlive]

/-- From scenes in step with their trees the same style is computed. -/
theorem freshStyles (h : s.Alike s') (hs : s.Synced) (hs' : s'.Synced) (m : StyleManager) {id : NodeId}
    (hlive : s.tree.contains id = true) : s'.freshStyles m id = s.freshStyles m id := by
  refine freshStyles_congr m ?_ ?_ ?_ ?_ ?_ fun p hp => ?_
  · rw [h.tree]
  · rw [h.tree]
  · rw [h.styles id hlive]
  · rw [h.styles id hlive]
  · rw [h.styles id hlive]
  · have hplive := NodeTree.contains_of_parentId? hp
    rw [hs.styles_of_live hplive, hs'.styles_of_live (h.tree ▸ hplive), h.styles p hplive]

theorem recompute (h : s.Alike s') (hs : s.Synced) (hs' : s'.Synced) (m : StyleManager)
    {id : NodeId} (hlive : s.tree.contains id = true) :
    (s.recompute m id).Alike (s'.recompute m id) := by
  have hinserted := h.insert_styles id (h.freshStyles hs hs' m hlive)
  have hcleaned := hinserted.withTree (NodeTree.EqualUpToMarks.cleaned s.tree id)
  rw [Scene.recompute, Scene.recompute, h.tree]
  exact hcleaned

theorem recomputeAll {due : List (NodeId × StyleManager)} (h : s.Alike s') (hs : s.Synced)
    (hs' : s'.Synced) (hwf : s.tree.WellFormed)
    (hlive : ∀ entry ∈ due, s.tree.contains entry.1 = true) :
    (s.recomputeAll due).Alike (s'.recomputeAll due) := by
  induction due generalizing s s' with
  | nil => exact h
  | cons entry due ih =>
    have hsame := s.equalUpToMarks_recompute entry.2 entry.1
    have hentry := hlive entry List.mem_cons_self
    refine ih (h.recompute hs hs' entry.2 hentry) (hs.recompute hwf _ hentry)
      (hs'.recompute (h.tree.symm ▸ hwf) _ (h.tree.symm ▸ hentry)) (hwf.of_equalUpToMarks hsame) ?_
    exact fun e he => (hsame.contains e.1).trans (hlive e (List.mem_cons_of_mem _ he))

theorem served (h : s.Alike s') {ns : List Node} (hlive : ∀ n ∈ ns, s.tree.contains n.id = true) :
    s'.served ns = s.served ns := by
  induction ns with
  | nil => rfl
  | cons n ns ih =>
    unfold Scene.served
    rw [h.manager? (hlive n List.mem_cons_self), ih fun k hk => hlive k (List.mem_cons_of_mem n hk)]

/-- The same nodes look stale, and the same managers serve them. -/
theorem served_stalePath (h : s.Alike s') (id : NodeId) :
    s'.served (s'.stalePath id) = s.served (s.stalePath id) := by
  cases hp : s.tree.path? id with
  | none =>
    have hp' : s'.tree.path? id = none := h.tree ▸ hp
    rw [stalePath, stalePath, hp, hp']
    rfl
  | some p =>
    have hp' : s'.tree.path? id = some p := h.tree ▸ hp
    have hlive (n : Node) (hn : n ∈ p) := contains_of_mem_path hp hn
    have hstale : s'.stalePath id = s.stalePath id := by
      rw [stalePath_of_path? hp, stalePath_of_path? hp']
      refine List.filter_congr fun n hn => ?_
      rw [isStale, isStale, h.manager? (hlive n (List.mem_reverse.mp hn))]
    rw [hstale, h.served]
    exact fun n hn => hlive n (mem_path_of_mem_stalePath hp hn)

theorem unserved? (h : s.Alike s') (id : NodeId) : s'.unserved? id = s.unserved? id := by
  rw [Scene.unserved?, Scene.unserved?, pathIds, pathIds, h.tree]
  refine List.find?_congr fun k hk => ?_
  -- whoever is on a path is alive
  cases hp : s.tree.path? id with
  | none => simp [hp] at hk
  | some p =>
    rw [hp, List.mem_reverse] at hk
    obtain ⟨n, hn, rfl⟩ := List.mem_map.mp hk
    rw [h.manager? (contains_of_mem_path hp hn)]

end Alike

theorem visits_congr {attachments attachments' : NodeMap Nat} {f : Forest}
    (h : ∀ id ∈ f.ids, attachments'.get? id = attachments.get? id) (inherited : Option Nat) :
    visits attachments' inherited f = visits attachments inherited f := by
  induction f generalizing inherited with
  | nil => rfl
  | tree n children rest ihc ihr =>
    simp only [Forest.ids_tree, List.mem_cons, List.mem_append] at h
    rw [visits, visits, h n.id (.inl rfl)]
    simp only [ihc fun k hk => h k (.inr (.inl hk)), ihr fun k hk => h k (.inr (.inr hk))]

namespace Alike

theorem visible (h : s.Alike s') : s'.visible = s.visible := by
  rw [Scene.visible, Scene.visible, h.tree]
  exact visits_congr (fun id hid => h.attachments id (NodeTree.contains_iff.mpr hid)) none

theorem agenda (h : s.Alike s') (found : List Visit) : s'.agenda found = s.agenda found := by
  have hdue : s'.due? = s.due? := by
    funext v
    rw [due?, due?, h.managers]
  rw [Scene.agenda, Scene.agenda, hdue]

/-- Adoption leaves scenes alike. -/
theorem synced (h : s.Alike s') (hwf : s.tree.WellFormed) : s.sync.Alike s'.sync :=
  ((sync hwf).symm.trans h).trans (sync (h.tree.symm ▸ hwf))

variable (h : s.Alike s') (hwf : s.tree.WellFormed)

include h hwf

theorem passed : s.passed.Alike s'.passed := by
  have hsync := h.synced hwf
  have hwf' : s'.tree.WellFormed := h.tree.symm ▸ hwf
  have hlive : ∀ entry ∈ s.sync.agenda s.sync.visible, s.sync.tree.contains entry.1 = true :=
    fun entry hentry =>
      (settles_agenda (s := s.sync) hwf.nodup_ids).order.live _ (List.mem_map_of_mem hentry)
  have hall := hsync.recomputeAll (synced_sync hwf) (synced_sync hwf') hwf hlive
  rw [Scene.passed, Scene.passed, hsync.visible, hsync.agenda]
  refine ⟨hall.tree, hall.styles, hall.attachments, ?_⟩
  rw [validated, validated, hall.managers]

theorem updateStyles : s'.updateStyles.1 = s.updateStyles.1 := by
  obtain ⟨p, hp, -, hdone⟩ := s.framePass_eq
  obtain ⟨p', hp', -, hdone'⟩ := s'.framePass_eq
  rw [updateStyles_eq, updateStyles_eq, hp, hp', hdone, hdone', (h.synced hwf).visible,
    (h.synced hwf).agenda]

theorem ensureStyle (id : NodeId) : (s'.ensureStyle id).1 = (s.ensureStyle id).1 ∧
    (s.ensureStyle id).2.Alike (s'.ensureStyle id).2 := by
  have hsync := h.synced hwf
  have hwf' : s'.tree.WellFormed := h.tree.symm ▸ hwf
  have hafter : (s.ensureStyle id).2.Alike (s'.ensureStyle id).2 := by
    rw [ensureStyle_snd, ensureStyle_snd, hsync.served_stalePath]
    refine hsync.recomputeAll (synced_sync hwf) (synced_sync hwf') hwf fun entry hentry => ?_
    exact (settles_served (s := s.sync) hwf.nodup_ids id).order.live _ (List.mem_map_of_mem hentry)
  refine ⟨?_, hafter⟩
  cases hlive : s.tree.contains id with
  | false => rw [ensureStyle_of_dead hlive, ensureStyle_of_dead (h.tree.symm ▸ hlive)]
  | true =>
    have hstays := ((s.equalUpToMarks_ensureStyle id).contains id).trans hlive
    rw [ensureStyle_fst_eq hlive, ensureStyle_fst_eq (h.tree.symm ▸ hlive), hsync.unserved?,
      hafter.styles id hstays]

theorem paint (id : NodeId) (rect : Rect) : (s'.paint id rect).1 = (s.paint id rect).1 ∧
    (s.paint id rect).2.Alike (s'.paint id rect).2 := by
  obtain ⟨hanswer, hafter⟩ := h.ensureStyle hwf id
  rw [paint_snd, paint_snd]
  refine ⟨?_, hafter⟩
  have hlive {style : Style} (hok : (s.ensureStyle id).1 = .ok style) :
      (s.ensureStyle id).2.tree.contains id = true :=
    ((s.equalUpToMarks_ensureStyle id).contains id).trans (ensureStyle_eq_ok hok).1
  unfold Scene.paint
  revert hanswer hafter hlive
  rcases s.ensureStyle id with ⟨e | style, after⟩ <;>
    rcases s'.ensureStyle id with ⟨e' | style', after'⟩ <;> intro hanswer hafter hlive
  · obtain rfl := Except.error.inj hanswer
    rfl
  · cases hanswer
  · cases hanswer
  · -- the manager that paints is the same as well
    obtain rfl := Except.ok.inj hanswer
    simp only [hafter.manager? (hlive rfl)]
    cases after.manager? id <;> rfl

end Alike

/-! ## §5 Every action -/

/-- **Alike scenes answer alike and stay alike**, whatever a host does. -/
theorem Alike.perform (h : s.Alike s') (hs : s.Addressed) (hs' : s'.Addressed) (a : SceneAction) :
    (s'.perform a).1 = (s.perform a).1 ∧ (s.after a).Alike (s'.after a) := by
  unfold after
  cases a with
  | editTree e =>
    simp only [Scene.perform, h.tree]
    cases hr : s.tree.edit e with
    | error err => exact ⟨rfl, h⟩
    | ok answer => exact ⟨rfl, h.editsTo hs hs' (NodeTree.editsTo_of_edit_eq_ok hr)⟩
  | createNode kind =>
    simp only [Scene.perform, createNode, h.tree, true_and]
    exact (h.editsTo hs hs' (.create kind.name)).insert_styles _ rfl
  | createChild parent kind =>
    simp only [Scene.perform, createChild, h.tree]
    cases hr : s.tree.createChild parent kind.name with
    | error err => exact ⟨rfl, h⟩
    | ok answer =>
      obtain ⟨id, t'⟩ := answer
      obtain ⟨rfl, hmoves⟩ := NodeTree.createChild_eq_ok hr
      exact ⟨rfl, (h.editsTo hs hs' (.createChild hmoves)).insert_styles _ rfl⟩
  | destroy id =>
    simp only [Scene.perform, destroy, h.tree]
    cases hr : s.tree.destroy id with
    | error err => exact ⟨rfl, h⟩
    | ok t' =>
      obtain ⟨sub, hsub, rfl⟩ := NodeTree.ask_eq_ok_iff.mp hr
      have hedited := h.editsTo hs hs' (.destroy hsub)
      exact ⟨rfl, ((alike_forgetDead _).symm.trans hedited).trans (alike_forgetDead _)⟩
  | addManager config =>
    refine ⟨?_, h.tree, h.styles, h.attachments, ?_⟩
    · simp only [Scene.perform, h.managers]
    · simp only [Scene.perform, addManager, h.managers]
  | editManager number e =>
    refine ⟨rfl, h.tree, h.styles, h.attachments, ?_⟩
    simp only [Scene.perform, modifyManager, h.managers]
  | attach id number =>
    simp only [Scene.perform, attach, h.tree]
    cases hr : s.tree.markDirty id with
    | error err => exact ⟨rfl, h⟩
    | ok t' =>
      obtain ⟨-, rfl⟩ := markDirty_eq_ok hr
      exact ⟨rfl, (h.withTree (.marked s.tree id)).insert_attachments id number⟩
  | detach id =>
    simp only [Scene.perform, detach, h.tree]
    cases hr : s.tree.markDirty id with
    | error err => exact ⟨rfl, h⟩
    | ok t' =>
      obtain ⟨hlive, rfl⟩ := markDirty_eq_ok hr
      refine ⟨?_, (h.withTree (.marked s.tree id)).erase_attachments id⟩
      rw [h.attachments id hlive]
      rfl
  | editOwn id edits => exact h.revise id _
  | editDefaults id edits => exact h.revise id _
  | ensureStyle id =>
    obtain ⟨hanswer, hafter⟩ := h.ensureStyle hs.tree id
    exact ⟨congrArg (Except.map SceneReply.style) hanswer, hafter⟩
  | updateStyles =>
    refine ⟨congrArg (Except.map SceneReply.count) (h.updateStyles hs.tree), ?_⟩
    show s.updateStyles.2.Alike s'.updateStyles.2
    rw [updateStyles_eq, updateStyles_eq]
    exact h.passed hs.tree
  | paint id rect =>
    obtain ⟨hanswer, hafter⟩ := h.paint hs.tree id rect
    exact ⟨congrArg (Except.map SceneReply.calls) hanswer, hafter⟩

end Scene

end StyledScene
