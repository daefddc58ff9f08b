import StyledScene.Proofs.Scene.Following

/-!
# Styles on demand

Bringing a single node up to date computes what is stale on its path, hidden or not. In a scene of a
careful host the answer is the style from scratch, with one exception. A pass leaves hidden nodes as they
are; but it makes their manager valid, if the manager is in use elsewhere, and then a hidden node without
a mark no longer looks stale (`Skipped`). Main statement: a node whose path no pass has skipped in this
way, since it was marked or computed last, has its style from scratch on demand
(`ensureStyle_eq_scratch`); `ensureStyle_ne_scratch` is a node that a pass has skipped.
-/

namespace StyledScene

namespace Scene

/-! ## §1 One manager, hidden nodes -/

/-- The pass leaves the hidden node as it is, and yet makes its manager valid, which was not. -/
def Skipped (s : Scene) (a : SceneAction) (id : NodeId) : Prop :=
  a = .updateStyles ∧ s.tree.isEffectivelyVisible id = .ok false ∧
    (∃ m, s.manager? id = some m ∧ m.valid = false) ∧
    ∃ m, (s.after a).manager? id = some m ∧ m.valid = true

variable {s : Scene} {missed : NodeId → Prop} {misses : Scene → SceneAction → NodeId → Prop}

/-- A traced run of a careful host is a run of a careful host. -/
theorem Traced.hosted (h : Traced SceneAction.Admissible misses s missed) : s.Hosted := by
  induction h with
  | empty => exact .empty
  | step _ ha ih => exact ih.step ha

/-- Every run of a careful host has a trace. -/
theorem Hosted.traced (h : s.Hosted) : ∃ missed, Traced SceneAction.Admissible misses s missed := by
  induction h with
  | empty => exact ⟨_, .empty⟩
  | step _ ha ih =>
    obtain ⟨missed, htraced⟩ := ih
    exact ⟨_, htraced.step ha⟩

/-- In a well-hosted scene a node has the manager of its parent. -/
theorem WellHosted.manager?_parent (hk : s.WellHosted) {id p : NodeId}
    (hparent : s.tree.parentId? id = some p) : s.manager? id = s.manager? p := by
  obtain ⟨n, q, up, hp, rfl⟩ := NodeTree.parentId?_eq_some_iff.mp hparent
  exact hk.manager?_above hp

/-- A node and its parent have one manager, so nobody outside the pass falls behind. -/
theorem Traced.current (h : Traced SceneAction.Admissible Skipped s missed) :
    s.Current fun id => ¬ missed id := by
  induction h with
  | empty => exact current_empty _
  | @step s missed a h ha ih =>
    have hk := h.hosted.wellHosted
    refine ih.after hk.wellKept ha.discreet ?_ ?_ ?_
    · exact fun id hclean hnot _ hid hmissed => hid ⟨hclean, hnot, Or.inl hmissed⟩
    · rintro rfl id hid hclean hnot k hk' - m m' hm hm' hvalid
      have hshape := (accounts_passed hk.tree).shape
      have hafter := (h.step (a := .updateStyles) ha).hosted.wellHosted
      -- it is the node's own manager
      have hown : s.manager? id = some m ∧ (s.after .updateStyles).manager? id = some m' := by
        rcases hk' with rfl | hparent
        · exact ⟨hm, hm'⟩
        · rw [hk.manager?_parent hparent, hafter.manager?_parent (p := k)]
          · exact ⟨hm, hm'⟩
          · rw [after_updateStyles, hshape.parentId?, hparent]
      cases hbefore : m.valid with
      | true => rfl
      | false =>
        -- a visible node would have been computed
        refine absurd ⟨hclean, hnot, Or.inr ⟨rfl, ?_, ⟨m, hown.1, hbefore⟩, m', hown.2, hvalid⟩⟩ hid
        have hlive := contains_of_clean hclean
        rw [after_updateStyles, hshape.contains] at hlive
        obtain ⟨n, above, hp, -⟩ := NodeTree.path?_of_contains hlive
        rw [NodeTree.isEffectivelyVisible_of_path? hp]
        refine congrArg _ (Bool.eq_false_iff.mpr fun hvis => hnot ?_)
        refine ((accounts_passed hk.tree).mem_iff id).mpr ⟨?_, m, hown.1, Or.inr hbefore⟩
        rw [NodeTree.isEffectivelyVisible_of_path? hp, hvis]
    · intro id _ _ _ p m m' hparent hm hvalid hm' hinvalid
      -- one manager is not both valid and not
      rw [hk.manager?_parent hparent, hm'] at hm
      rw [Option.some.inj hm, hvalid] at hinvalid
      cases hinvalid

/-! ## §2 Answers on demand -/

/-- A path of nodes that all have managers is brought up to date to its end. -/
theorem refresh_fst {ns : List Node} (h : ∀ n ∈ ns, (s.manager? n.id).isSome = true) :
    (s.refresh ns).1 = .ok () := by
  induction ns generalizing s with
  | nil => rfl
  | cons n ns ih =>
    obtain ⟨m, hm⟩ := Option.isSome_iff_exists.mp (h n List.mem_cons_self)
    unfold refresh
    rw [hm]
    apply ih
    intro k hk
    rw [manager?_congr (s.equalUpToMarks_recompute m n.id) rfl rfl]
    exact h k (List.mem_cons_of_mem n hk)

theorem mem_path_of_mem_stalePath {id : NodeId} {p : List Node} (hp : s.tree.path? id = some p)
    {n : Node} (hn : n ∈ s.stalePath id) : n ∈ p := by
  rw [stalePath_of_path? hp] at hn
  exact List.mem_reverse.mp (List.mem_filter.mp hn).1

/-- The nodes of such a path are all served. -/
theorem mem_served_of_mem {ns : List Node} (h : ∀ n ∈ ns, (s.manager? n.id).isSome = true)
    {n : Node} (hn : n ∈ ns) : n.id ∈ (s.served ns).map Prod.fst := by
  induction ns with
  | nil => cases hn
  | cons k ns ih =>
    obtain ⟨m, hm⟩ := Option.isSome_iff_exists.mp (h k List.mem_cons_self)
    unfold served
    rw [hm, List.map_cons, List.mem_cons]
    rcases List.mem_cons.mp hn with rfl | hlater
    · exact Or.inl rfl
    · exact Or.inr (ih (fun q hq => h q (List.mem_cons_of_mem k hq)) hlater)

theorem ensureStyle_fst {id : NodeId} (hlive : s.tree.contains id = true)
    (h : ∀ n ∈ s.sync.stalePath id, (s.sync.manager? n.id).isSome = true) :
    (s.ensureStyle id).1 = .ok ((s.ensureStyle id).2.stylesOf id).computed := by
  have hrefresh := refresh_fst h
  unfold ensureStyle
  simp only
  rw [if_pos (show s.sync.tree.contains id = true from hlive)]
  revert hrefresh
  rcases s.sync.refresh (s.sync.stalePath id) with ⟨e | u, after⟩
  · intro hrefresh
    cases hrefresh
  · exact fun _ => rfl

/-- All nodes of a path use the manager of its root. -/
theorem WellHosted.manager?_of_mem_path (hk : s.WellHosted) {id : NodeId} {p : List Node}
    (hp : s.tree.path? id = some p) {n : Node} (hn : n ∈ p) :
    s.manager? n.id = s.rootManager? id := by
  obtain ⟨below, up, rfl, hup⟩ := NodeTree.path?_of_mem_path hk.tree.nodup_ids hp hn
  -- the two paths end at the same root
  rw [hk.manager?_eq_rootManager? (NodeTree.contains_of_path? hup), rootManager?, rootManager?,
    pathIds_of_path? hp, pathIds_of_path? hup, List.map_append, List.map_cons,
    List.getLast?_append_cons]

theorem WellHosted.manager?_sync_of_mem_path (hk : s.WellHosted) {id : NodeId} {p : List Node}
    (hp : s.tree.path? id = some p) {n : Node} (hn : n ∈ p) :
    s.sync.manager? n.id = s.rootManager? id := by
  rw [manager?_sync (contains_of_mem_path hp hn), hk.manager?_of_mem_path hp hn]

/-- Styles from scratch do not depend on what has been computed. -/
theorem scratch_ensureStyle (hwf : s.tree.WellFormed) (m : StyleManager) {id : NodeId}
    {p : List Node} (hp : s.tree.path? id = some p) :
    (s.ensureStyle id).2.scratch m (p.map Node.id) = s.scratch m (p.map Node.id) := by
  have hsettles := settles_served (s := s.sync) hwf.nodup_ids id
  have hshape := s.sync.equalUpToMarks_recomputeAll (s.sync.served (s.sync.stalePath id))
  rw [ensureStyle_snd]
  refine scratch_congr (fun k hk => ?_) fun _ _ => rfl
  obtain ⟨n, hn, rfl⟩ := List.mem_map.mp hk
  have hlive := contains_of_mem_path hp hn
  obtain ⟨hkind, hown, hdefaults⟩ := own_recomputeAll (s := s.sync) hwf hsettles.order hlive
  rw [stylesOf_sync hwf hlive] at hkind hown hdefaults
  exact ⟨hshape.lineage n.id, hkind, hown, hdefaults⟩

/-- After a node was brought up to date, its whole path follows the manager of the root. -/
theorem follows_ensureStyle (h : Traced SceneAction.Admissible Skipped s missed) {id : NodeId}
    {m : StyleManager} (hroot : s.rootManager? id = some m) {p : List Node}
    (hp : s.tree.path? id = some p) (hunmissed : m.valid = false ∨ ∀ n ∈ p, ¬ missed n.id)
    {n : Node} (hn : n ∈ p) : (s.ensureStyle id).2.Follows m n.id := by
  have hk := h.hosted.wellHosted
  have hwf := hk.tree
  have hsettles := settles_served (s := s.sync) hwf.nodup_ids id
  have hshape := s.sync.equalUpToMarks_recomputeAll (s.sync.served (s.sync.stalePath id))
  have hmanager {a : Node} (ha : a ∈ p) : s.sync.manager? a.id = some m :=
    (hk.manager?_sync_of_mem_path hp ha).trans hroot
  by_cases hdue : n.id ∈ (s.sync.served (s.sync.stalePath id)).map Prod.fst
  · obtain ⟨⟨k, m'⟩, hentry, heq⟩ := List.mem_map.mp hdue
    obtain rfl : k = n.id := heq
    obtain rfl : m' = m :=
      Option.some.inj ((hsettles.manager _ hentry).symm.trans (hmanager hn))
    rw [ensureStyle_snd]
    exact follows_recomputeAll (s := s.sync) hwf (synced_sync hwf) hsettles.order hentry
  · -- a node that is not computed was not stale
    have hlive := contains_of_mem_path hp hn
    obtain ⟨-, above, -, hpn⟩ := NodeTree.path?_of_mem_path hwf.nodup_ids hp hn
    have hfresh : ¬ s.sync.isStale n = true := by
      intro hstale
      apply hdue
      refine mem_served_of_mem (fun a ha => ?_) ?_
      · rw [hmanager (mem_path_of_mem_stalePath (s := s.sync) hp ha)]
        rfl
      · rw [stalePath_of_path? (s := s.sync) hp]
        exact List.mem_filter.mpr ⟨List.mem_reverse.mpr hn, hstale⟩
    rw [isStale_iff (s := s.sync) hpn (hmanager hn), not_or] at hfresh
    have hvalid : m.valid = true := by simpa using hfresh.2
    refine (h.step (a := .ensureStyle id) trivial).current.follows n.id ?_ ?_ m ?_ hvalid
    · rintro ⟨-, -, hmissed | ⟨heq, -⟩⟩
      · rcases hunmissed with hinvalid | hunmissed
        · rw [hvalid] at hinvalid
          cases hinvalid
        · exact hunmissed n hn hmissed
      · cases heq
    · rw [after_ensureStyle, renewed, isDirty_recomputeAll (s := s.sync) hlive hdue]
      exact NodeTree.isDirty_eq_false hlive hfresh.1
    · rw [after_ensureStyle, renewed, manager?_congr hshape (attachments_recomputeAll _ _)
        (managers_recomputeAll _ _)]
      exact hmanager hn

/-- **On demand, styles are from scratch.** In a scene of a careful host, every living node whose root
carries a manager is answered with the style that this manager computes from the root down; unless a
pass has skipped a node on the path, which has not been marked or computed since, and the manager is
valid. -/
theorem ensureStyle_eq_scratch (h : Traced SceneAction.Admissible Skipped s missed) {id : NodeId}
    {m : StyleManager} (hlive : s.tree.contains id = true) (hroot : s.rootManager? id = some m)
    (hunmissed : m.valid = false ∨ ∀ k ∈ s.pathIds id, ¬ missed k) :
    ∃ style, s.scratch m (s.pathIds id) = some style ∧ (s.ensureStyle id).1 = .ok style := by
  have hk := h.hosted.wellHosted
  have hwf := hk.tree
  obtain ⟨n, above, hp, -⟩ := NodeTree.path?_of_contains hlive
  have hids := pathIds_of_path? hp
  have hshape : s.tree.EqualUpToMarks (s.ensureStyle id).2.tree := by
    rw [ensureStyle_snd]
    exact s.sync.equalUpToMarks_recomputeAll _
  rw [hids] at hunmissed ⊢
  refine ⟨((s.ensureStyle id).2.stylesOf id).computed, ?_, ?_⟩
  · have hfollows : ∀ k ∈ (s.ensureStyle id).2.pathIds id, (s.ensureStyle id).2.Follows m k := by
      rw [pathIds_congr hshape, hids]
      intro k hin
      obtain ⟨a, ha, rfl⟩ := List.mem_map.mp hin
      exact follows_ensureStyle h hroot hp
        (hunmissed.imp_right fun hall b hb => hall b.id (List.mem_map_of_mem hb)) ha
    rw [computed_eq_scratch (hwf.of_equalUpToMarks hshape).nodup_ids
      ((hshape.contains id).trans hlive) hfollows, pathIds_congr hshape, hids,
      scratch_ensureStyle hwf m hp]
  · apply ensureStyle_fst hlive
    intro a ha
    rw [hk.manager?_sync_of_mem_path hp (mem_path_of_mem_stalePath (s := s.sync) hp ha), hroot]
    rfl

/-- A managed column with a hidden label. The font weight of labels is declared while the label bears
the mark from being hidden. -/
def hiddenLabel : Scene :=
  empty.run [.createNode .container, .addManager .usual, .attach ⟨1, 1⟩ 0,
    .createChild ⟨1, 1⟩ .text, .updateStyles, .editTree (.setVisible ⟨2, 1⟩ false),
    .editManager 0 (.access "text"),
    .editManager 0 (.change (.keyed "text") (.edit (.set .fontWeight 700)))]

theorem hosted_hiddenLabel : hiddenLabel.Hosted :=
  Hosted.empty.run ⟨trivial, trivial, rfl, trivial, trivial, trivial, trivial, trivial, trivial⟩

/-- The next pass leaves the label marked, and on demand it has its style from scratch. -/
theorem ensureStyle_hiddenLabel :
    (hiddenLabel.after .updateStyles).tree.isEffectivelyVisible ⟨2, 1⟩ = .ok false ∧
      ∃ m style, (hiddenLabel.after .updateStyles).rootManager? ⟨2, 1⟩ = some m ∧
        (hiddenLabel.after .updateStyles).scratch m [⟨2, 1⟩, ⟨1, 1⟩] = some style ∧
        ((hiddenLabel.after .updateStyles).ensureStyle ⟨2, 1⟩).1 = .ok style := by
  have hpath : (hiddenLabel.after .updateStyles).pathIds ⟨2, 1⟩ = [⟨2, 1⟩, ⟨1, 1⟩] := by
    decide
  have hcarried : ((hiddenLabel.after .updateStyles).rootManager? ⟨2, 1⟩).isSome = true := by
    decide
  have hmarked : (hiddenLabel.after .updateStyles).tree.isDirty ⟨2, 1⟩ = .ok true := by
    decide
  have hrenewed : ⟨1, 1⟩ ∈ (hiddenLabel.renewed .updateStyles).map Prod.fst := by decide
  obtain ⟨m, hm⟩ := Option.isSome_iff_exists.mp hcarried
  obtain ⟨missed, htraced⟩ := @Hosted.traced _ Skipped hosted_hiddenLabel
  have hunmissed : ∀ k ∈ (hiddenLabel.after .updateStyles).pathIds ⟨2, 1⟩,
      ¬ missedAfter Skipped hiddenLabel missed .updateStyles k := by
    rw [hpath]
    rintro k hk ⟨hclean, hnot, -⟩
    simp only [List.mem_cons, List.not_mem_nil, or_false] at hk
    rcases hk with rfl | rfl
    · -- the label is marked
      rw [hmarked] at hclean
      cases hclean
    · -- the column was computed
      exact hnot hrenewed
  have hlive : (hiddenLabel.after .updateStyles).tree.contains ⟨2, 1⟩ = true := by decide
  obtain ⟨style, hscratch, hanswer⟩ := ensureStyle_eq_scratch
    (htraced.step (a := .updateStyles) trivial) hlive hm (Or.inr hunmissed)
  rw [hpath] at hscratch
  exact ⟨by decide, m, style, hm, hscratch, hanswer⟩

/-- A managed column with a hidden label. -/
def tuckedLabel : Scene :=
  empty.run [.createNode .container, .createChild ⟨1, 1⟩ .text, .addManager .usual,
    .attach ⟨1, 1⟩ 0, .editTree (.setVisible ⟨2, 1⟩ false)]

/-- The label is brought up to date while hidden. Then the font weight of labels is declared, and a
pass computes the column. -/
def skippedLabel : Scene :=
  tuckedLabel.run [.ensureStyle ⟨2, 1⟩, .updateStyles, .editManager 0 (.access "text"),
    .editManager 0 (.change (.keyed "text") (.edit (.set .fontWeight 700))), .updateStyles]

theorem hosted_skippedLabel : skippedLabel.Hosted := by
  have hhidden : tuckedLabel.Hosted :=
    Hosted.empty.run ⟨trivial, trivial, trivial, rfl, trivial, trivial⟩
  exact hhidden.run ⟨trivial, trivial, trivial, trivial, trivial, trivial⟩

/-- Nobody is adopted on the way, so that the scene can be computed without sorting ids. -/
theorem skippedLabel_eq :
    skippedLabel = (((tuckedLabel.ensuredInStep ⟨2, 1⟩).passedInStep.run
      [.editManager 0 (.access "text"),
        .editManager 0 (.change (.keyed "text") (.edit (.set .fontWeight 700)))]).passedInStep) := by
  have hread := after_ensureStyle_of_synced (s := tuckedLabel) (by decide) ⟨2, 1⟩
  have hpass := after_updateStyles_of_synced (s := tuckedLabel.ensuredInStep ⟨2, 1⟩)
    (by decide)
  rw [← after_updateStyles_of_synced (by decide), ← hpass, ← hread]
  rfl

/-- The label is answered without its font weight, which it has from scratch. -/
theorem ensureStyle_ne_scratch :
    skippedLabel.Hosted ∧ skippedLabel.tree.isEffectivelyVisible ⟨2, 1⟩ = .ok false ∧
      ∃ m style answer, skippedLabel.rootManager? ⟨2, 1⟩ = some m ∧
        skippedLabel.scratch m (skippedLabel.pathIds ⟨2, 1⟩) = some style ∧
        (skippedLabel.ensureStyle ⟨2, 1⟩).1 = .ok answer ∧
        style.get? .fontWeight = some 700 ∧ answer.get? .fontWeight = none := by
  have hanswer := @ensureStyle_fst skippedLabel ⟨2, 1⟩
  have hsynced : skippedLabel.Synced := by
    rw [skippedLabel_eq]
    decide
  have hafter : (skippedLabel.ensureStyle ⟨2, 1⟩).2 = skippedLabel.ensuredInStep ⟨2, 1⟩ :=
    after_ensureStyle_of_synced hsynced ⟨2, 1⟩
  rw [sync_eq_self hsynced, hafter] at hanswer
  have hweights : ((skippedLabel.rootManager? ⟨2, 1⟩).bind fun m =>
      (skippedLabel.scratch m (skippedLabel.pathIds ⟨2, 1⟩)).map fun style =>
        style.get? .fontWeight) = some (some 700) := by
    rw [skippedLabel_eq]
    decide +kernel
  obtain ⟨m, hm, hweights⟩ := Option.bind_eq_some_iff.mp hweights
  obtain ⟨style, hstyle, hweight⟩ := Option.map_eq_some_iff.mp hweights
  refine ⟨hosted_skippedLabel, ?_, m, style, _, hm, hstyle, hanswer ?_ ?_, hweight, ?_⟩
  · rw [skippedLabel_eq]
    decide
  · rw [skippedLabel_eq]
    decide
  · rw [skippedLabel_eq]
    decide
  · rw [skippedLabel_eq]
    decide +kernel

end Scene

end StyledScene
