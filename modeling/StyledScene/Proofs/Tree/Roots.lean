import StyledScene.Proofs.Tree.Marking

/-!
# Roots

A root stays a root as long as it lives, unless it is itself given a parent (`EditsTo.mem_rootIds`).
Whatever a host does, the roots stand in slot order (`rootsAscend_run`).
-/

namespace StyledScene

theorem Forest.not_mem_ids_prune {f : Forest} (hnd : f.ids.Nodup) (x : NodeId) :
    x ∉ (f.prune x).ids := by
  intro hmem
  obtain ⟨p, hp⟩ := Forest.exists_path? hmem
  obtain ⟨hp', hx⟩ := (Forest.path?_prune_iff hnd).mp hp
  obtain ⟨n, above, rfl, rfl⟩ := Forest.path?_head hp'
  exact hx List.mem_cons_self

/-- A new root takes its place in slot order. -/
theorem Forest.pairwise_insertRoot {f : Forest}
    (h : f.rootIds.Pairwise fun a b => a.index ≤ b.index) (sub : Node × Forest) :
    (f.insertRoot sub).rootIds.Pairwise fun a b => a.index ≤ b.index := by
  induction f with
  | nil => simp [insertRoot]
  | tree n children rest _ ihr =>
    rw [rootIds_tree, List.pairwise_cons] at h
    obtain ⟨hfirst, hrest⟩ := h
    rw [insertRoot]
    split
    · -- the roots that follow have no lower slots than the first of them
      rename_i hlt
      simp only [rootIds_tree, List.pairwise_cons, List.mem_cons]
      refine ⟨?_, hfirst, hrest⟩
      rintro b (rfl | hb)
      · exact Nat.le_of_lt hlt
      · exact Nat.le_trans (Nat.le_of_lt hlt) (hfirst b hb)
    · rename_i hle
      rw [rootIds_tree, List.pairwise_cons]
      refine ⟨fun b hb => ?_, ihr hrest⟩
      rcases mem_rootIds_insertRoot.mp hb with rfl | hb
      · exact Nat.le_of_not_lt hle
      · exact hfirst b hb

namespace NodeTree

variable {t t' : NodeTree}

theorem mem_rootIds_iff_parentId? (hnd : t.forest.ids.Nodup) {id : NodeId} :
    id ∈ t.forest.rootIds ↔ t.contains id = true ∧ t.parentId? id = none := by
  rw [Forest.mem_rootIds_iff hnd]
  constructor
  · rintro ⟨n, hn⟩
    have hp : t.path? id = some [n] := hn
    exact ⟨contains_of_path? hp, parentId?_of_root hp⟩
  · rintro ⟨hlive, hparent⟩
    obtain ⟨n, above, hp, -⟩ := path?_of_contains hlive
    cases above with
    | nil => exact ⟨n, hp⟩
    | cons m above =>
      rw [parentId?_of_path? hp] at hparent
      cases hparent

theorem rootIds_marked (t : NodeTree) (id : NodeId) :
    (t.marked id).forest.rootIds = t.forest.rootIds :=
  Forest.rootIds_markUnder id t.forest

theorem rootIds_detached (hnd : t.forest.ids.Nodup) (x : NodeId) :
    (t.detached x).forest.rootIds = t.forest.rootIds.filter (· != x) := by
  rw [← Forest.rootIds_prune hnd x]
  unfold detached
  cases t.parentId? x with
  | none => rfl
  | some parent => exact rootIds_marked _ parent

theorem MovesTo.mem_rootIds {x : NodeId} {parent : Option NodeId} (hnd : t.forest.ids.Nodup)
    (h : t.MovesTo x parent t') {id : NodeId} (hroot : id ∈ t.forest.rootIds)
    (hstay : id = x → parent = none) : id ∈ t'.forest.rootIds := by
  obtain ⟨sub, hsub, -, rfl⟩ := h
  have hkept (hne : id ≠ x) : id ∈ (t.detached x).forest.rootIds := by
    rw [rootIds_detached hnd, List.mem_filter]
    exact ⟨hroot, bne_iff_ne.mpr hne⟩
  cases parent with
  | none =>
    -- what is moved to the top becomes a root, and the other roots stay
    rw [attached, rootIds_marked]
    refine Forest.mem_rootIds_insertRoot.mpr ?_
    by_cases hid : id = x
    · exact Or.inl (hid.trans (subtree?_id hsub).symm)
    · exact Or.inr (hkept hid)
  | some p =>
    have hne : id ≠ x := fun hid => Option.some_ne_none p (hstay hid)
    rw [attached, rootIds_marked]
    exact (Forest.rootIds_graft p sub (t.detached x).forest).symm ▸ hkept hne

/-- **A root that is not given a parent stays a root.** -/
theorem EditsTo.mem_rootIds {e : TreeEdit} (h : t.EditsTo e t') (hwf : t.WellFormed) {id : NodeId}
    (hroot : id ∈ t.forest.rootIds) (hlive : id ∈ t'.forest.ids)
    (hstay : ∀ p, e ≠ .setParent id (some p)) : id ∈ t'.forest.rootIds := by
  have hnd := hwf.nodup_ids
  cases h with
  | create tag => exact Forest.mem_rootIds_insertRoot.mpr (Or.inr hroot)
  | @createChild _ tag _ h =>
    refine h.mem_rootIds (hwf.create tag).nodup_ids ?_ fun hid => ?_
    · exact Forest.mem_rootIds_insertRoot.mpr (Or.inr hroot)
    · -- the moved node is the new one
      exact absurd (hid ▸ Forest.mem_ids_of_mem_rootIds hroot) hwf.take_not_mem
  | @destroy x sub h =>
    have hne : id ≠ x := by
      rintro rfl
      rw [ids_detached] at hlive
      exact Forest.not_mem_ids_prune hnd id hlive
    show id ∈ (t.detached x).forest.rootIds
    rw [rootIds_detached hnd, List.mem_filter]
    exact ⟨hroot, bne_iff_ne.mpr hne⟩
  | @setParent x parent _ h =>
    apply h.mem_rootIds hnd hroot
    intro hid
    cases parent with
    | none => rfl
    | some p => exact absurd (hid ▸ rfl) (hstay p)
  | @revise _ x n hn =>
    rw [revised, rootIds_marked]
    refine (Forest.rootIds_map (fun k => ?_) t.forest).symm ▸ hroot
    split
    · rename_i hk
      exact hn.trans hk.symm
    · rfl
  | keep => exact hroot
  | markDirty x => exact (t.rootIds_marked x).symm ▸ hroot
  | clearDirty x => exact (EqualUpToMarks.cleaned t x).rootIds.symm ▸ hroot

/-! ## Slot order -/

/-- The roots stand in the order of their slots. -/
def RootsAscend (t : NodeTree) : Prop := t.forest.rootIds.Pairwise fun a b => a.index ≤ b.index

/-- No two roots share a slot. -/
theorem RootsAscend.pairwise_lt (h : t.RootsAscend) (hwf : t.WellFormed) :
    t.roots.Pairwise fun a b => a.index < b.index := by
  have hapart : t.roots.Nodup := (Forest.rootIds_sublist _).nodup hwf.nodup_ids
  refine (h.and hapart).imp_of_mem fun {a b} ha hb h => ?_
  -- two roots in one slot would be the same node
  apply Nat.lt_of_le_of_ne h.1
  intro hslot
  apply h.2
  exact hwf.eq_of_index_eq (Forest.mem_ids_of_mem_rootIds ha) (Forest.mem_ids_of_mem_rootIds hb) hslot

theorem EqualUpToMarks.rootsAscend (h : t.EqualUpToMarks t') (hroots : t.RootsAscend) :
    t'.RootsAscend := by
  rw [RootsAscend, h.rootIds]
  exact hroots

theorem MovesTo.rootsAscend {x : NodeId} {parent : Option NodeId} (hnd : t.forest.ids.Nodup)
    (h : t.MovesTo x parent t') (hroots : t.RootsAscend) : t'.RootsAscend := by
  obtain ⟨sub, -, -, rfl⟩ := h
  have hleft : (t.detached x).RootsAscend := by
    rw [RootsAscend, rootIds_detached hnd]
    apply List.Pairwise.filter
    exact hroots
  rw [RootsAscend]
  cases parent with
  | none =>
    rw [attached, rootIds_marked]
    exact Forest.pairwise_insertRoot hleft sub
  | some p =>
    rw [attached, rootIds_marked]
    simpa [RootsAscend] using hleft

theorem EditsTo.rootsAscend {e : TreeEdit} (h : t.EditsTo e t') (hwf : t.WellFormed)
    (hroots : t.RootsAscend) : t'.RootsAscend := by
  have hnd := hwf.nodup_ids
  cases h with
  | create tag => exact Forest.pairwise_insertRoot hroots _
  | @createChild _ tag _ h =>
    apply h.rootsAscend (hwf.create tag).nodup_ids
    exact Forest.pairwise_insertRoot hroots _
  | @destroy x =>
    show (t.detached x).RootsAscend
    rw [RootsAscend, rootIds_detached hnd]
    apply List.Pairwise.filter
    exact hroots
  | setParent h => exact h.rootsAscend hnd hroots
  | @revise _ x n hn =>
    have hkeep (k : Node) : (if k.id = x then n else k).id = k.id := by
      split
      · rename_i hk
        exact hn.trans hk.symm
      · rfl
    rw [RootsAscend, revised, rootIds_marked]
    simpa [RootsAscend, Forest.modify, Forest.rootIds_map hkeep] using hroots
  | keep => exact hroots
  | markDirty x => simpa [RootsAscend, rootIds_marked] using hroots
  | clearDirty x => simpa [RootsAscend, (EqualUpToMarks.cleaned t x).rootIds] using hroots

/-- **After every run the roots stand in slot order.** -/
theorem rootsAscend_run (hwf : t.WellFormed) (hroots : t.RootsAscend) (edits : List TreeEdit) :
    (t.run edits).RootsAscend := by
  induction edits generalizing t with
  | nil => exact hroots
  | cons e edits ih =>
    have hstep := editsTo_after t e
    exact ih (hstep.wellFormed hwf) (hstep.rootsAscend hwf hroots)

end NodeTree

end StyledScene
