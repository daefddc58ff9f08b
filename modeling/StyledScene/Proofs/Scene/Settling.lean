import StyledScene.Proofs.Scene.Pass
import StyledScene.Proofs.Scene.Sync

/-!
# Computing several nodes anew

Computing the styles of some nodes one after the other settles each of them: afterwards, computing any
of them once more would give the same again (`freshStyles_recomputeAll`), provided that no node comes
before its parent. All other nodes keep their styles and their marks (`styles_recomputeAll`,
`isDirty_recomputeAll`). In a scene that is in step, a settled node has the style that its manager computes
from the style of its parent, and the flags that its kind reads off it (`Synced.computed_of_settled`).
-/

namespace StyledScene

/-! ## §1 One mark less -/

namespace NodeTree

theorem path?_cleaned (t : NodeTree) (id k : NodeId) :
    (t.cleaned id).path? k =
      (t.path? k).map (List.map fun n => if n.id = id then n.clean else n) :=
  Forest.path?_map (fun n => by split <;> rfl) t.forest k

theorem isDirty_cleaned_self {t : NodeTree} {id : NodeId} (hlive : t.contains id = true) :
    (t.cleaned id).isDirty id = .ok false := by
  obtain ⟨n, above, hp, hn⟩ := path?_of_contains hlive
  have hp' := t.path?_cleaned id id
  rw [hp, Option.map_some, List.map_cons, if_pos hn] at hp'
  exact isDirty_of_path? hp'

theorem isDirty_cleaned_of_ne {t : NodeTree} {id k : NodeId} (hlive : t.contains k = true)
    (hne : k ≠ id) : (t.cleaned id).isDirty k = t.isDirty k := by
  obtain ⟨n, above, hp, hn⟩ := path?_of_contains hlive
  have hp' := t.path?_cleaned id k
  rw [hp, Option.map_some, List.map_cons, if_neg (hn.symm ▸ hne)] at hp'
  rw [isDirty_of_path? hp, isDirty_of_path? hp']

/-- No node is its own parent. -/
theorem parentId?_ne_self {t : NodeTree} (hnd : t.forest.ids.Nodup) (id : NodeId) :
    t.parentId? id ≠ some id := by
  intro h
  obtain ⟨n, m, above, hp, hm⟩ := parentId?_eq_some_iff.mp h
  have hn := Forest.id_of_path? hp
  have hpath := Forest.nodup_path hnd hp
  rw [List.map_cons, List.map_cons, List.nodup_cons] at hpath
  exact hpath.1 (by simp [hn, hm])

theorem contains_of_parentId? {t : NodeTree} {id parent : NodeId}
    (h : t.parentId? id = some parent) : t.contains parent = true := by
  obtain ⟨n, m, above, hp, rfl⟩ := parentId?_eq_some_iff.mp h
  exact contains_iff.mpr (Forest.mem_ids_of_mem_path hp (by simp))

/-- Living nodes, each once, and none before its parent. -/
structure InOrder (t : NodeTree) (ids : List NodeId) : Prop where
  nodup : ids.Nodup
  live : ∀ id ∈ ids, t.contains id = true
  parents_first : ids.Pairwise fun a b => t.parentId? a ≠ some b

theorem InOrder.tail {t : NodeTree} {id : NodeId} {ids : List NodeId} (h : t.InOrder (id :: ids)) :
    t.InOrder ids where
  nodup := (List.nodup_cons.mp h.nodup).2
  live k hk := h.live k (List.mem_cons_of_mem id hk)
  parents_first := (List.pairwise_cons.mp h.parents_first).2

theorem InOrder.of_equalUpToMarks {t t' : NodeTree} {ids : List NodeId} (h : t.InOrder ids)
    (hsame : t.EqualUpToMarks t') : t'.InOrder ids where
  nodup := h.nodup
  live k hk := (hsame.contains k).trans (h.live k hk)
  parents_first := h.parents_first.imp fun {a _} hab => (hsame.parentId? a).symm ▸ hab

theorem WellFormed.of_equalUpToMarks {t t' : NodeTree} (hwf : t.WellFormed)
    (hsame : t.EqualUpToMarks t') : t'.WellFormed :=
  hwf.of_perm ⟨by rw [hsame.ids], hsame.2.1⟩

end NodeTree

namespace Scene

/-! ## §2 One node -/

variable {s : Scene}

theorem equalUpToMarks_recompute (s : Scene) (m : StyleManager) (id : NodeId) :
    s.tree.EqualUpToMarks (s.recompute m id).tree :=
  .cleaned s.tree id

@[simp] theorem stylesOf_recompute_self (s : Scene) (m : StyleManager) (id : NodeId) :
    (s.recompute m id).stylesOf id = s.freshStyles m id := by
  show ((s.styles.insert id (s.freshStyles m id)).get? id).getD _ = _
  rw [NodeMap.get?_insert_self, Option.getD_some]

theorem styles_recompute_of_ne (hwf : s.tree.WellFormed) (m : StyleManager) {id k : NodeId}
    (hid : s.tree.contains id = true) (hk : s.tree.contains k = true) (hne : k ≠ id) :
    (s.recompute m id).styles.get? k = s.styles.get? k := by
  refine NodeMap.get?_insert_of_index_ne _ _ fun hslot => hne ?_
  exact hwf.eq_of_index_eq (NodeTree.contains_iff.mp hk) (NodeTree.contains_iff.mp hid) hslot

/-- What is computed for a node depends on its lineage, its own part of its styles, and the style that
its parent was given last. -/
theorem freshStyles_congr {s s' : Scene} {id : NodeId} (m : StyleManager)
    (hlineage : s'.tree.lineage id = s.tree.lineage id)
    (hparent : s'.tree.parentId? id = s.tree.parentId? id)
    (hkind : (s'.stylesOf id).kind = (s.stylesOf id).kind)
    (hown : (s'.stylesOf id).ownValues = (s.stylesOf id).ownValues)
    (hdefaults : (s'.stylesOf id).defaults = (s.stylesOf id).defaults)
    (hstyles : ∀ p, s.tree.parentId? id = some p → s'.styles.get? p = s.styles.get? p) :
    s'.freshStyles m id = s.freshStyles m id := by
  have hcontext : s'.contextOf id = s.contextOf id := by
    simp only [contextOf, hkind, hown, hdefaults, hparent]
    congr 1
    cases hp : s.tree.parentId? id with
    | none => rfl
    | some p => rw [Option.bind_some, Option.bind_some, hstyles p hp]
  simp only [freshStyles, hcontext, hlineage, hkind, hown, hdefaults]

/-! ## §3 Several nodes -/

section RecomputeAll

variable {due : List (NodeId × StyleManager)}

/-- Nodes that are not computed keep their styles. -/
theorem styles_recomputeAll (hwf : s.tree.WellFormed) (hord : s.tree.InOrder (due.map Prod.fst))
    {k : NodeId} (hk : s.tree.contains k = true) (hnot : k ∉ due.map Prod.fst) :
    (s.recomputeAll due).styles.get? k = s.styles.get? k := by
  induction due generalizing s with
  | nil => rfl
  | cons entry due ih =>
    obtain ⟨id, m⟩ := entry
    have hsame := s.equalUpToMarks_recompute m id
    rw [List.map_cons, List.mem_cons, not_or] at hnot
    rw [recomputeAll, List.foldl_cons]
    refine (ih (hwf.of_equalUpToMarks hsame) (hord.tail.of_equalUpToMarks hsame)
      ((hsame.contains k).trans hk) hnot.2).trans ?_
    exact styles_recompute_of_ne hwf m (hord.live id List.mem_cons_self) hk hnot.1

/-- Nodes that are not computed keep their marks. -/
theorem isDirty_recomputeAll {k : NodeId} (hk : s.tree.contains k = true)
    (hnot : k ∉ due.map Prod.fst) : (s.recomputeAll due).tree.isDirty k = s.tree.isDirty k := by
  induction due generalizing s with
  | nil => rfl
  | cons entry due ih =>
    rw [List.map_cons, List.mem_cons, not_or] at hnot
    rw [recomputeAll, List.foldl_cons]
    refine (ih (((s.equalUpToMarks_recompute entry.2 entry.1).contains k).trans hk) hnot.2).trans ?_
    exact NodeTree.isDirty_cleaned_of_ne hk hnot.1

/-- Nodes that are computed lose their marks. -/
theorem isDirty_recomputeAll_of_mem (hord : s.tree.InOrder (due.map Prod.fst)) {k : NodeId}
    (hmem : k ∈ due.map Prod.fst) : (s.recomputeAll due).tree.isDirty k = .ok false := by
  induction due generalizing s with
  | nil => cases hmem
  | cons entry due ih =>
    obtain ⟨id, m⟩ := entry
    have hsame := s.equalUpToMarks_recompute m id
    rw [recomputeAll, List.foldl_cons]
    rcases List.mem_cons.mp hmem with rfl | hlater
    · -- the mark goes now and does not come back
      have hlive := hord.live k List.mem_cons_self
      have hnot := (List.nodup_cons.mp hord.nodup).1
      refine (isDirty_recomputeAll ((hsame.contains k).trans hlive) hnot).trans ?_
      exact NodeTree.isDirty_cleaned_self hlive
    · exact ih (hord.tail.of_equalUpToMarks hsame) hlater

/-- What the host gave to a node stays. -/
theorem own_recomputeAll (hwf : s.tree.WellFormed) (hord : s.tree.InOrder (due.map Prod.fst))
    {k : NodeId} (hk : s.tree.contains k = true) :
    ((s.recomputeAll due).stylesOf k).kind = (s.stylesOf k).kind ∧
      ((s.recomputeAll due).stylesOf k).ownValues = (s.stylesOf k).ownValues ∧
      ((s.recomputeAll due).stylesOf k).defaults = (s.stylesOf k).defaults := by
  induction due generalizing s with
  | nil => exact ⟨rfl, rfl, rfl⟩
  | cons entry due ih =>
    obtain ⟨id, m⟩ := entry
    have hsame := s.equalUpToMarks_recompute m id
    obtain ⟨hkind, hown, hdefaults⟩ := ih (hwf.of_equalUpToMarks hsame)
      (hord.tail.of_equalUpToMarks hsame) ((hsame.contains k).trans hk)
    rw [recomputeAll, List.foldl_cons]
    by_cases hne : k = id
    · -- what is computed is the style and the flags, not what the host gave
      subst hne
      rw [stylesOf_recompute_self] at hkind hown hdefaults
      exact ⟨hkind, hown, hdefaults⟩
    · have hstyles : (s.recompute m id).stylesOf k = s.stylesOf k := by
        rw [stylesOf, stylesOf,
          styles_recompute_of_ne hwf m (hord.live id List.mem_cons_self) hk hne]
      rw [hstyles] at hkind hown hdefaults
      exact ⟨hkind, hown, hdefaults⟩

/-- **Every node that is computed is settled**: computing it once more would change nothing. -/
theorem freshStyles_recomputeAll (hwf : s.tree.WellFormed)
    (hord : s.tree.InOrder (due.map Prod.fst)) {id : NodeId} {m : StyleManager}
    (hmem : (id, m) ∈ due) :
    (s.recomputeAll due).stylesOf id = (s.recomputeAll due).freshStyles m id := by
  induction due generalizing s with
  | nil => cases hmem
  | cons entry due ih =>
    obtain ⟨id', m'⟩ := entry
    have hsame := s.equalUpToMarks_recompute m' id'
    have hwf' := hwf.of_equalUpToMarks hsame
    have hord' := hord.tail.of_equalUpToMarks hsame
    -- either the node is computed now, or it is settled by the rest of the list
    rcases List.mem_cons.mp hmem with heq | hlater
    · obtain ⟨rfl, rfl⟩ := Prod.mk.inj heq
      have hlive := hord.live id List.mem_cons_self
      have hnot := (List.nodup_cons.mp hord.nodup).1
      have hall := s.equalUpToMarks_recomputeAll ((id, m) :: due)
      obtain ⟨hkind, hown, hdefaults⟩ := own_recomputeAll hwf hord hlive
      -- nobody computes the node again, and nobody computes its parent afterwards
      have hlast : (s.recomputeAll ((id, m) :: due)).stylesOf id = s.freshStyles m id := by
        rw [← stylesOf_recompute_self s m id, stylesOf, stylesOf]
        exact congrArg (Option.getD · _)
          (styles_recomputeAll hwf' hord' ((hsame.contains id).trans hlive) hnot)
      rw [hlast]
      refine (freshStyles_congr m (hall.lineage id) (hall.parentId? id) hkind hown hdefaults
        fun p hp => ?_).symm
      have hplive := NodeTree.contains_of_parentId? hp
      have hpne : p ≠ id := by
        rintro rfl
        exact NodeTree.parentId?_ne_self hwf.nodup_ids p hp
      have hpnot : p ∉ due.map Prod.fst := fun hin =>
        (List.pairwise_cons.mp hord.parents_first).1 p hin hp
      refine (styles_recomputeAll hwf' hord' ((hsame.contains p).trans hplive) hpnot).trans ?_
      exact styles_recompute_of_ne hwf m hlive hplive hpne
    · exact ih hwf' hord' hlater

theorem Synced.recomputeAll (h : s.Synced) (hwf : s.tree.WellFormed)
    (hlive : ∀ entry ∈ due, s.tree.contains entry.1 = true) : (s.recomputeAll due).Synced := by
  induction due generalizing s with
  | nil => exact h
  | cons entry due ih =>
    have hsame := s.equalUpToMarks_recompute entry.2 entry.1
    refine ih (h.recompute hwf _ (hlive entry List.mem_cons_self)) (hwf.of_equalUpToMarks hsame) ?_
    exact fun e he => (hsame.contains e.1).trans (hlive e (List.mem_cons_of_mem _ he))

end RecomputeAll

/-! ## §4 Settled nodes -/

/-- In step with its tree, a scene has the style of every parent. -/
theorem Synced.contextOf_eq {s : Scene} (h : s.Synced) (id : NodeId) :
    s.contextOf id =
      { parent := (s.tree.parentId? id).map fun p => (s.stylesOf p).computed
        ownValues := some (s.stylesOf id).ownValues
        defaults := some (s.stylesOf id).defaults
        inherits := (s.stylesOf id).kind.inherits } := by
  unfold contextOf
  cases hp : s.tree.parentId? id with
  | none => rfl
  | some p =>
    simp only [Option.bind_some, Option.map_some,
      h.styles_of_live (NodeTree.contains_of_parentId? hp)]

/-- A node that is settled has the style that its manager computes from what there is. -/
theorem Synced.computed_of_settled {s : Scene} (h : s.Synced) {m : StyleManager} {id : NodeId}
    (hsettled : s.stylesOf id = s.freshStyles m id) :
    (s.stylesOf id).computed = m.computeStyle (s.tree.lineage id)
      { parent := (s.tree.parentId? id).map fun p => (s.stylesOf p).computed
        ownValues := some (s.stylesOf id).ownValues
        defaults := some (s.stylesOf id).defaults
        inherits := (s.stylesOf id).kind.inherits } ∧
    (s.stylesOf id).flags = (s.stylesOf id).kind.summarize (s.stylesOf id).computed := by
  have hcomputed := congrArg NodeStyles.computed hsettled
  have hflags := congrArg NodeStyles.flags hsettled
  refine ⟨?_, ?_⟩
  · rw [← h.contextOf_eq]
    exact hcomputed
  · refine hflags.trans ?_
    rw [hcomputed]
    rfl

end Scene

end StyledScene
