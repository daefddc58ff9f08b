import Mathlib.Data.List.Sort
import StyledScene.Proofs.Tree.Simulation

/-!
# The forest invariant

The records of a linked tree could contradict each other, but the edits never let them: after every run
the two links of every edge agree, every climb ends at a root, every walk ends without being refused, and
the roots divide the nodes among them (`isForest_run`).
-/

namespace StyledScene

namespace LinkedTree

/-! ## §1 What makes a table a forest -/

/-- Parent links lead from a node over the ones listed to a node without a parent. -/
inductive Climbs (l : LinkedTree) : NodeId → List NodeId → Prop where
  | root {id : NodeId} {r : Record} (hr : l.record? id = some r) (hparent : r.parent = none) :
      Climbs l id []
  | step {id parent : NodeId} {r : Record} {above : List NodeId} (hr : l.record? id = some r)
      (hparent : r.parent = some parent) (h : Climbs l parent above) : Climbs l id (parent :: above)

/-- The node lives and has no parent. -/
def IsRoot (l : LinkedTree) (id : NodeId) : Prop := ∃ r, l.record? id = some r ∧ r.parent = none

/-- The records agree with each other, and every walk along their links succeeds. -/
structure IsForest (l : LinkedTree) : Prop where
  /-- The parent of a node lives and lists the node exactly once. -/
  parent_lists {id parent : NodeId} {r : Record} (hr : l.record? id = some r)
    (hparent : r.parent = some parent) :
    ∃ q, l.record? parent = some q ∧ q.children.count id = 1
  /-- A listed child lives, is listed once, and has the listing node as its parent. -/
  child_links {id child : NodeId} {r : Record} (hr : l.record? id = some r)
    (hchild : child ∈ r.children) :
    r.children.count child = 1 ∧ ∃ q, l.record? child = some q ∧ q.parent = some id
  /-- Every climb ends at a root and meets no node twice; the questions that climb are answered by
  what it meets. -/
  climbs {id : NodeId} {r : Record} (hr : l.record? id = some r) :
    ∃ above, l.Climbs id above ∧ (id :: above).Nodup ∧
      Ends (depth id) l (.ok above.length) l ∧
      (∀ ancestor, Ends (isUnder ancestor id) l (.ok (decide (ancestor ∈ id :: above))) l) ∧
      ∃ visible, Ends (isEffectivelyVisible id) l (.ok visible) l ∧
        (visible = true ↔ ∀ k ∈ id :: above, ∃ q, l.record? k = some q ∧ q.data.isVisible = true)
  /-- Every downward walk ends: it meets once each node whose climb leads over the start, and marking
  marks these and the start. -/
  walks {id : NodeId} {r : Record} (hr : l.record? id = some r) :
    ∃ below, Ends (descendants id) l (.ok below) l ∧ (id :: below).Nodup ∧
      (∀ k, k ∈ below ↔ ∃ above, l.Climbs k above ∧ id ∈ above) ∧
      Ends (markDirty id) l (.ok ()) (l.markedOn (id :: below))
  /-- Every node is met once from one root, and from no other. -/
  one_root {id : NodeId} {r : Record} (hr : l.record? id = some r) :
    ∃ root order, l.IsRoot root ∧ Ends (preorder root) l (.ok order) l ∧ order.count id = 1 ∧
      ∀ root' order', l.IsRoot root' → Ends (preorder root') l (.ok order') l → id ∈ order' →
        root' = root

/-! ## §2 Tables that represent a tree -/

namespace Represents

variable {l : LinkedTree} {t : NodeTree}

theorem climbs_iff (h : l.Represents t) (hnd : t.forest.ids.Nodup) {id : NodeId}
    {above : List NodeId} :
    l.Climbs id above ↔ ∃ n up, t.path? id = some (n :: up) ∧ above = up.map Node.id := by
  constructor
  · intro hclimbs
    induction hclimbs with
    | @root id r hr hparent =>
      obtain ⟨up, hp, hup, -⟩ := h.record?_eq_some hr
      cases up with
      | nil => exact ⟨_, [], hp, rfl⟩
      | cons m up =>
        rw [hparent, NodeTree.parentId?_of_path? hp] at hup
        cases hup
    | @step id parent r above hr hparent _ ih =>
      obtain ⟨up, hp, hup, -⟩ := h.record?_eq_some hr
      obtain ⟨m, up', hp', rfl⟩ := ih
      cases up with
      | nil =>
        rw [hparent, NodeTree.parentId?_of_root hp] at hup
        cases hup
      | cons m' up =>
        rw [hparent, NodeTree.parentId?_of_path? hp] at hup
        obtain rfl := Option.some.inj hup
        have habove := Forest.path?_above hnd hp
        rw [NodeTree.path?_eq, habove] at hp'
        obtain ⟨rfl, rfl⟩ := List.cons.inj (Option.some.inj hp')
        exact ⟨_, _, hp, rfl⟩
  · rintro ⟨n, up, hp, rfl⟩
    have hclimb := (climb h.recorded hnd hp
      (motive := fun p => ∀ k up, p = k :: up → l.Climbs k.id (up.map Node.id)) ?_ ?_).2
    · rw [← Forest.id_of_path? hp]
      exact hclimb n up rfl
    · exact fun k up heq => (List.cons_ne_nil k up heq.symm).elim
    · intro k up hk hup k' up' heq
      obtain ⟨rfl, rfl⟩ := List.cons.inj heq
      cases up with
      | nil => exact .root hk rfl
      | cons m up => exact .step hk rfl (hup m up rfl)

theorem parent_lists (h : l.Represents t) (hnd : t.forest.ids.Nodup) {id parent : NodeId}
    {r : Record} (hr : l.record? id = some r) (hparent : r.parent = some parent) :
    ∃ q, l.record? parent = some q ∧ q.children.count id = 1 := by
  obtain ⟨-, -, hup, -⟩ := h.record?_eq_some hr
  rw [hparent] at hup
  obtain ⟨n, m, above, hp, rfl⟩ := NodeTree.parentId?_eq_some_iff.mp hup.symm
  refine ⟨_, h.record?_of_path? (Forest.path?_above hnd hp), ?_⟩
  exact List.count_eq_one_of_mem (Forest.nodup_childIds hnd m.id)
    ((NodeTree.mem_childIds_iff_parentId? hnd).mpr hup.symm)

theorem child_links (h : l.Represents t) (hnd : t.forest.ids.Nodup) {id child : NodeId}
    {r : Record} (hr : l.record? id = some r) (hchild : child ∈ r.children) :
    r.children.count child = 1 ∧ ∃ q, l.record? child = some q ∧ q.parent = some id := by
  obtain ⟨-, -, -, hchildren⟩ := h.record?_eq_some hr
  rw [hchildren] at hchild ⊢
  have hparent := (NodeTree.mem_childIds_iff_parentId? hnd).mp hchild
  obtain ⟨n, m, above, hp, -⟩ := NodeTree.parentId?_eq_some_iff.mp hparent
  exact ⟨List.count_eq_one_of_mem (Forest.nodup_childIds hnd id) hchild, _,
    h.record?_of_path? hp, hparent⟩

theorem climbs (h : l.Represents t) (hnd : t.forest.ids.Nodup) {id : NodeId} {r : Record}
    (hr : l.record? id = some r) :
    ∃ above, l.Climbs id above ∧ (id :: above).Nodup ∧
      Ends (depth id) l (.ok above.length) l ∧
      (∀ ancestor, Ends (isUnder ancestor id) l (.ok (decide (ancestor ∈ id :: above))) l) ∧
      ∃ visible, Ends (isEffectivelyVisible id) l (.ok visible) l ∧
        (visible = true ↔
          ∀ k ∈ id :: above, ∃ q, l.record? k = some q ∧ q.data.isVisible = true) := by
  obtain ⟨up, hp, -, -⟩ := h.record?_eq_some hr
  have hids : id :: up.map Node.id = (r.data :: up).map Node.id := by
    rw [List.map_cons, Forest.id_of_path? hp]
  refine ⟨up.map Node.id, (h.climbs_iff hnd).mpr ⟨_, up, hp, rfl⟩, ?_, ?_, fun ancestor => ?_,
    (r.data :: up).all Node.isVisible, ends_isEffectivelyVisible h.recorded hnd hp, ?_⟩
  · rw [hids]
    exact Forest.nodup_path hnd hp
  · rw [List.length_map]
    exact ends_depth h.recorded hnd hp
  · have hanswer : (r.data :: up).any (fun k => k.id == ancestor) =
        decide (ancestor ∈ id :: up.map Node.id) := by
      rw [hids, Bool.eq_iff_iff, List.any_eq_true, decide_eq_true_iff, List.mem_map]
      simp only [beq_iff_eq]
    rw [← hanswer]
    exact LinkedTree.ends_isUnder h.recorded hnd ancestor hp
  · rw [hids, List.all_eq_true, List.forall_mem_map]
    -- the record of a node on the path holds that node
    refine forall₂_congr fun k hk => ?_
    obtain ⟨-, rest, -, hk'⟩ := NodeTree.path?_of_mem_path hnd hp hk
    rw [h.record?_of_path? hk']
    simp

theorem walks (h : l.Represents t) (hnd : t.forest.ids.Nodup) {id : NodeId} {r : Record}
    (hr : l.record? id = some r) :
    ∃ below, Ends (descendants id) l (.ok below) l ∧ (id :: below).Nodup ∧
      (∀ k, k ∈ below ↔ ∃ above, l.Climbs k above ∧ id ∈ above) ∧
      Ends (markDirty id) l (.ok ()) (l.markedOn (id :: below)) := by
  obtain ⟨up, hp, -, -⟩ := h.record?_eq_some hr
  obtain ⟨below, hsub⟩ := NodeTree.subtree?_of_path? hp
  obtain ⟨_, hsingle⟩ := h.single_recorded hsub
  have hid := NodeTree.subtree?_id hsub
  have hids : (Forest.single (r.data, below)).ids = id :: below.ids := by
    rw [Forest.single, Forest.ids_tree, Forest.ids_nil, List.append_nil, hid]
  have hsubnd := Forest.nodup_ids_single hnd hsub
  have hends := ends_descendants hsingle
  have hmark := ends_markDirty hsingle hsubnd
  rw [hid] at hends hmark
  rw [hids] at hmark hsubnd
  refine ⟨below.ids, hends, hsubnd, fun k => ?_, hmark⟩
  have hmem := Forest.mem_ids_single_iff (k := k) hnd hsub
  rw [hids, List.mem_cons] at hmem
  constructor
  · intro hk
    obtain ⟨p, hpk, hidp⟩ := hmem.mp (.inr hk)
    obtain ⟨n, above, rfl, rfl⟩ := Forest.path?_head hpk
    refine ⟨_, (h.climbs_iff hnd).mpr ⟨n, above, hpk, rfl⟩, ?_⟩
    -- the start does not lie below itself
    exact (List.mem_cons.mp hidp).resolve_left fun heq =>
      (List.nodup_cons.mp hsubnd).1 (heq ▸ hk)
  · rintro ⟨_, hclimbs, hidup⟩
    obtain ⟨n, above, hpk, rfl⟩ := (h.climbs_iff hnd).mp hclimbs
    refine (hmem.mpr ⟨_, hpk, List.mem_cons_of_mem _ hidup⟩).resolve_left fun heq => ?_
    have hnot := (List.nodup_cons.mp (Forest.nodup_path hnd hpk)).1
    exact hnot (Forest.id_of_path? hpk ▸ heq ▸ hidup)

theorem isRoot_iff (h : l.Represents t) {id : NodeId} :
    l.IsRoot id ↔ ∃ n, t.path? id = some [n] := by
  constructor
  · rintro ⟨r, hr, hparent⟩
    obtain ⟨above, hp, hup, -⟩ := h.record?_eq_some hr
    cases above with
    | nil => exact ⟨_, hp⟩
    | cons m above =>
      rw [hparent, NodeTree.parentId?_of_path? hp] at hup
      cases hup
  · rintro ⟨n, hn⟩
    exact ⟨_, h.record?_of_path? hn, NodeTree.parentId?_of_root hn⟩

/-- The walk from a root meets the nodes whose paths end at it. -/
theorem ends_preorder (h : l.Represents t) (hnd : t.forest.ids.Nodup) {root : NodeId} {n : Node}
    (hroot : t.path? root = some [n]) :
    ∃ order, Ends (preorder root) l (.ok order) l ∧ order.Nodup ∧
      ∀ id p, t.path? id = some p → (id ∈ order ↔ p.getLast? = some n) := by
  obtain ⟨below, hsub⟩ := NodeTree.subtree?_of_path? hroot
  obtain ⟨_, hsingle⟩ := h.single_recorded hsub
  have hends := LinkedTree.ends_preorder hsingle
  rw [NodeTree.subtree?_id hsub] at hends
  refine ⟨_, hends, Forest.nodup_ids_single hnd hsub, fun id p hp => ?_⟩
  rw [Forest.mem_ids_single_iff hnd hsub]
  constructor
  · rintro ⟨p', hp', hmem⟩
    obtain rfl := Option.some.inj (hp.symm.trans hp')
    obtain ⟨a, ha, rfl⟩ := List.mem_map.mp hmem
    -- nothing stands above a root on any path
    obtain ⟨lower, above, rfl, ha'⟩ := NodeTree.path?_of_mem_path hnd hp ha
    rw [hroot] at ha'
    obtain ⟨rfl, rfl⟩ := List.cons.inj (Option.some.inj ha')
    rw [List.getLast?_append, List.getLast?_singleton, Option.some_or]
  · intro hlast
    refine ⟨p, hp, List.mem_map.mpr ⟨n, List.mem_of_getLast? hlast, Forest.id_of_path? hroot⟩⟩

theorem one_root (h : l.Represents t) (hnd : t.forest.ids.Nodup) {id : NodeId} {r : Record}
    (hr : l.record? id = some r) :
    ∃ root order, l.IsRoot root ∧ Ends (preorder root) l (.ok order) l ∧ order.count id = 1 ∧
      ∀ root' order', l.IsRoot root' → Ends (preorder root') l (.ok order') l → id ∈ order' →
        root' = root := by
  obtain ⟨up, hp, -, -⟩ := h.record?_eq_some hr
  -- the root is where the path ends
  have hsplit := List.dropLast_append_getLast (List.cons_ne_nil r.data up)
  generalize hq : (r.data :: up).getLast (List.cons_ne_nil _ _) = q at hsplit
  have hroot : t.path? q.id = some [q] := by
    rw [← hsplit] at hp
    exact Forest.path?_of_append hnd hp
  have hlast : (r.data :: up).getLast? = some q := by
    rw [List.getLast?_eq_some_getLast (List.cons_ne_nil _ _), hq]
  obtain ⟨order, hends, horder, hmem⟩ := h.ends_preorder hnd hroot
  refine ⟨q.id, order, (h.isRoot_iff).mpr ⟨q, hroot⟩, hends,
    List.count_eq_one_of_mem horder ((hmem id _ hp).mpr hlast),
    fun root' order' hroot' hends' hid => ?_⟩
  obtain ⟨n, hn⟩ := (h.isRoot_iff).mp hroot'
  obtain ⟨order'', hends'', -, hmem'⟩ := h.ends_preorder hnd hn
  obtain ⟨heq, -⟩ := hends'.unique hends''
  obtain rfl := Except.ok.inj heq
  have hlast' := (hmem' id _ hp).mp hid
  rw [hlast] at hlast'
  rw [Option.some.inj hlast']
  exact (Forest.id_of_path? hn).symm

/-- A table that represents a tree is a forest. -/
theorem isForest (h : l.Represents t) (hwf : t.WellFormed) : l.IsForest where
  parent_lists := h.parent_lists hwf.nodup_ids
  child_links := h.child_links hwf.nodup_ids
  climbs := h.climbs hwf.nodup_ids
  walks := h.walks hwf.nodup_ids
  one_root := h.one_root hwf.nodup_ids

/-! ## §3 The nodes and the roots in slot order -/

theorem record?_isSome_iff (h : l.Represents t) {id : NodeId} :
    (l.record? id).isSome = true ↔ id ∈ t.forest.ids := by
  constructor
  · intro hsome
    by_contra hdead
    simp [h.dead id hdead] at hsome
  · intro hlive
    obtain ⟨r, hr⟩ := h.recorded.exists_record? hlive
    simp [hr]

/-- The nodes of the tree, in its order, are those of the table. -/
theorem enumerates (h : l.Represents t) (hwf : t.WellFormed) : l.Enumerates t.ids := by
  have hsorted : t.ids.Pairwise fun a b => a.index ≤ b.index := by
    have hsort := @List.pairwise_mergeSort NodeId (fun a b => decide (a.index ≤ b.index))
      (fun a b c => by simpa using Nat.le_trans) (fun a b => by simpa using Nat.le_total _ _)
      t.forest.ids
    simpa [NodeTree.ids] using hsort
  have hapart : t.ids.Nodup := (List.mergeSort_perm _ _).nodup_iff.mpr hwf.nodup_ids
  have hmem (id : NodeId) : id ∈ t.ids ↔ id ∈ t.forest.ids := List.mem_mergeSort
  refine ⟨(hsorted.and hapart).imp_of_mem fun {a b} ha hb hab => ?_, fun id => ?_⟩
  · -- no slot holds two nodes
    apply Nat.lt_of_le_of_ne hab.1
    exact fun hslot => hab.2 (hwf.eq_of_index_eq ((hmem a).mp ha) ((hmem b).mp hb) hslot)
  · rw [hmem, h.record?_isSome_iff]

/-- The table has the roots of the tree, in the same order. -/
theorem rootsAmong_eq (h : l.Represents t) (hwf : t.WellFormed) (hroots : t.RootsAscend)
    {ids : List NodeId} (hids : l.Enumerates ids) : l.rootsAmong ids = t.roots := by
  have : Std.Antisymm fun a b : NodeId => a.index < b.index :=
    ⟨fun _ _ hab hba => absurd hab (Nat.lt_asymm hba)⟩
  have : Std.Irrefl fun a b : NodeId => a.index < b.index := ⟨fun _ => Nat.lt_irrefl _⟩
  have hamong := hids.1.filter fun id => (l.record? id).any fun r => r.parent.isNone
  refine hamong.eq_of_mem_iff (hroots.pairwise_lt hwf) fun id => ?_
  have hroot : (l.record? id).any (fun r => r.parent.isNone) = true ↔ l.IsRoot id := by
    simp [IsRoot, Option.any_eq_true]
  rw [List.mem_filter, hids.2, h.record?_isSome_iff, hroot, h.isRoot_iff, NodeTree.roots,
    Forest.mem_rootIds_iff hwf.nodup_ids]
  refine ⟨fun hid => hid.2, fun hid => ⟨?_, hid⟩⟩
  obtain ⟨n, hn⟩ := hid
  exact Forest.mem_ids_of_path? hn

end Represents

/-! ## §4 Every run -/

/-- **The forest invariant.** Make any edits, with whatever ids, from the empty tree on. None of them runs
for ever; the table of records that they lead to represents the tree that the same edits make of the
forest, and it is a forest itself, with the roots of that tree. No two nodes that were ever created had the
same auto id, and the living ones still have theirs. -/
theorem isForest_run (edits : List TreeEdit) :
    ∃ l, empty.run edits = some l ∧ l.Represents (NodeTree.empty.run edits) ∧ l.IsForest ∧
      (∀ id, id ∈ (NodeTree.empty.run edits).roots ↔ l.IsRoot id) ∧
      (NodeTree.empty.run edits).roots.Nodup ∧
      ((NodeTree.empty.births edits).map Prod.snd).Nodup ∧
      ∀ id r, l.record? id = some r → (id, r.data.autoId) ∈ NodeTree.empty.births edits := by
  have hwf := NodeTree.wellFormed_run NodeTree.wellFormed_empty edits
  have hnd := hwf.nodup_ids
  obtain ⟨l, hrun, h⟩ := represents_empty.run NodeTree.wellFormed_empty edits
  refine ⟨l, hrun, h, h.isForest hwf, fun id => ?_,
    (Forest.rootIds_sublist _).nodup hnd, NodeTree.nodup_births edits, fun id r hr => ?_⟩
  · rw [h.isRoot_iff]
    exact Forest.mem_rootIds_iff hnd
  · obtain ⟨up, hp, -, -⟩ := h.record?_eq_some hr
    obtain rfl := Forest.id_of_path? hp
    have hlive : r.data.ident ∈ (NodeTree.empty.run edits).idents :=
      List.mem_map_of_mem (Forest.mem_nodes_of_mem_path hp _ List.mem_cons_self)
    exact (NodeTree.idents_run NodeTree.wellFormed_empty edits _ hlive).resolve_left
      (List.not_mem_nil)

end LinkedTree

end StyledScene
