import Mathlib.Logic.Relation
import StyledScene.Proofs.Tree.ForestInvariant

/-!
# Traversals

A downward walk keeps the nodes that it has still to visit on a stack, and does not remember the ones it has
met. On the records of a forest it nevertheless comes to the end and meets the same nodes, in the same order,
as the recursive listing of the subtree (`InPreorder`): each node once, after its parent, and no node from
which no climb leads to the start. Marking a node changes the marks of these nodes and nothing else
(`traverses_run`).
-/

namespace StyledScene

namespace LinkedTree

variable {l : LinkedTree} {t : NodeTree} {id : NodeId}

/-! ## §1 Recursive listings -/

/-- The order lists the given nodes, each followed by the listing of its own children. -/
inductive InPreorder (l : LinkedTree) : List NodeId → List NodeId → Prop where
  | nil : InPreorder l [] []
  | cons {id : NodeId} {r : Record} {others below beside : List NodeId} (hr : l.record? id = some r)
      (hbelow : InPreorder l r.children below) (hbeside : InPreorder l others beside) :
      InPreorder l (id :: others) (id :: (below ++ beside))

namespace InPreorder

variable {starts order order' : List NodeId}

/-- The records leave the listing no choice. -/
theorem unique (h : l.InPreorder starts order) (h' : l.InPreorder starts order') : order = order' := by
  induction h generalizing order' with
  | nil =>
    cases h'
    rfl
  | cons hr _ _ ihbelow ihbeside =>
    cases h' with
    | cons hr' hbelow' hbeside' =>
      obtain rfl := Option.some.inj (hr.symm.trans hr')
      rw [ihbelow hbelow', ihbeside hbeside']

theorem starts_subset (h : l.InPreorder starts order) : starts ⊆ order := by
  induction h with
  | nil => simp
  | cons _ _ _ _ ihbeside =>
    apply List.cons_subset_cons
    exact List.subset_append_of_subset_right _ ihbeside

/-- The children of a listed node are listed after it. -/
theorem child_after (h : l.InPreorder starts order) {parent child : NodeId} {r : Record}
    (hparent : parent ∈ order) (hr : l.record? parent = some r) (hchild : child ∈ r.children) :
    [parent, child].Sublist order := by
  induction h with
  | nil => simp at hparent
  | @cons id q _ below beside hq hbelow _ ihbelow ihbeside =>
    simp only [List.mem_cons, List.mem_append] at hparent
    rcases hparent with rfl | hparent | hparent
    · -- the children of the node itself come next
      obtain rfl := Option.some.inj (hr.symm.trans hq)
      apply List.Sublist.cons_cons
      apply List.singleton_sublist.mpr
      simp [hbelow.starts_subset hchild]
    · apply List.Sublist.cons
      exact (ihbelow hparent).trans (List.sublist_append_left below beside)
    · apply List.Sublist.cons
      exact (ihbeside hparent).trans (List.sublist_append_right below beside)

end InPreorder

/-- Where the records hold a forest, its ids are the recursive listing from its roots. -/
theorem inPreorder_of_recorded {f : Forest} {up : Option NodeId} (h : f.Recorded l.record? up) :
    l.InPreorder f.rootIds f.ids := by
  induction f generalizing up with
  | nil => exact .nil
  | tree n children rest ihc ihr =>
    obtain ⟨hn, hc, hr⟩ := h
    rw [Forest.rootIds_tree, Forest.ids_tree]
    exact .cons hn (ihc hc) (ihr hr)

/-! ## §2 Climbs -/

/-- The record of a node links up to its parent. -/
def IsParent (l : LinkedTree) (id parent : NodeId) : Prop :=
  ∃ r, l.record? id = some r ∧ r.parent = some parent

/-- A climb of one or more steps leads from a node to the one on top. -/
def LiesBelow (l : LinkedTree) (id top : NodeId) : Prop := Relation.TransGen l.IsParent id top

/-- In a forest every climb can go on to a root. -/
theorem IsForest.liesBelow_iff (h : l.IsForest) {k : NodeId} :
    l.LiesBelow k id ↔ ∃ above, l.Climbs k above ∧ id ∈ above := by
  constructor
  · intro hbelow
    induction hbelow using Relation.TransGen.head_induction_on with
    | single hstep =>
      obtain ⟨r, hr, hparent⟩ := hstep
      obtain ⟨q, hq, -⟩ := h.parent_lists hr hparent
      obtain ⟨above, hclimbs, -⟩ := h.climbs hq
      exact ⟨id :: above, .step hr hparent hclimbs, List.mem_cons_self⟩
    | head hstep _ ih =>
      obtain ⟨r, hr, hparent⟩ := hstep
      obtain ⟨above, hclimbs, hid⟩ := ih
      exact ⟨_, .step hr hparent hclimbs, List.mem_cons_of_mem _ hid⟩
  · rintro ⟨above, hclimbs, hid⟩
    induction hclimbs with
    | root => simp at hid
    | @step k parent r above hr hparent _ ih =>
      have hstep : l.IsParent k parent := ⟨r, hr, hparent⟩
      rcases List.mem_cons.mp hid with rfl | hid
      · exact .single hstep
      · exact .head hstep (ih hid)

/-! ## §3 Walks and listings -/

/-- What the downward walks from a living node come to, in the table and in the tree that it represents. -/
structure Traverses (l : LinkedTree) (t : NodeTree) (id : NodeId) (below : List NodeId) : Prop where
  ends_descendants : Ends (descendants id) l (.ok below) l ∧ t.descendants id = .ok below
  ends_preorder : Ends (preorder id) l (.ok (id :: below)) l ∧ t.preorder id = .ok (id :: below)
  /-- The walk finds what the recursive listing of the children lists. -/
  listing {r : Record} (hr : l.record? id = some r) (order : List NodeId) :
    l.InPreorder r.children order ↔ order = below
  /-- It meets a node once if a climb from that node leads to the start, and else not at all. -/
  met_once {k : NodeId} (hk : l.LiesBelow k id) : below.count k = 1
  not_met {k : NodeId} (hk : ¬ l.LiesBelow k id) : below.count k = 0
  /-- The children of a node that is met are met later. -/
  parent_first {parent child : NodeId} (hparent : parent ∈ id :: below)
    (hchild : l.IsParent child parent) : [parent, child].Sublist (id :: below)
  /-- Marking changes the marks of the nodes that are met, whatever they were, and nothing else: those
  nodes are marked afterwards, and every other record, and so every other mark, is the one it was. -/
  marks : ∃ l' t', Ends (markDirty id) l (.ok ()) l' ∧ t.markDirty id = .ok t' ∧ l'.Represents t' ∧
    (∀ k, l'.record? k =
      if k ∈ id :: below then (l.record? k).map Record.mark else l.record? k) ∧
    (∀ k ∈ id :: below, ∃ r, l'.record? k = some r ∧ r.data.dirty = true ∧
      t'.isDirty k = .ok true) ∧
    (∀ k, k ∉ id :: below → l'.record? k = l.record? k ∧ t'.isDirty k = t.isDirty k) ∧
    l'.pool = l.pool ∧ l'.nextSerial = l.nextSerial

namespace Represents

/-- The children of a record are where its listing starts. -/
theorem inPreorder_single (h : l.Represents t) {sub : Node × Forest}
    (hsub : t.subtree? id = some sub) {r : Record} (hr : l.record? id = some r) :
    l.InPreorder r.children sub.2.ids := by
  obtain ⟨_, hsingle⟩ := h.single_recorded hsub
  obtain ⟨hroot, hbelow⟩ := Forest.recorded_single.mp hsingle
  rw [NodeTree.subtree?_id hsub, hr] at hroot
  obtain rfl := Option.some.inj hroot
  exact inPreorder_of_recorded hbelow

/-- Whoever a walk from a living node meets has a record. -/
theorem exists_record?_of_preorder (h : l.Represents t) {sub : Node × Forest}
    (hsub : t.subtree? id = some sub) {k : NodeId} (hk : k ∈ id :: sub.2.ids) :
    ∃ r, l.record? k = some r := by
  obtain ⟨_, hsingle⟩ := h.single_recorded hsub
  apply hsingle.exists_record?
  rw [Forest.mem_ids_single, NodeTree.subtree?_id hsub]
  exact List.mem_cons.mp hk

theorem traverses (h : l.Represents t) (hwf : t.WellFormed) {r : Record}
    (hr : l.record? id = some r) : ∃ below, l.Traverses t id below := by
  have hforest := h.isForest hwf
  obtain ⟨up, hp, -, -⟩ := h.record?_eq_some hr
  obtain ⟨f, hsub⟩ := NodeTree.subtree?_of_path? hp
  obtain ⟨_, hsingle⟩ := h.single_recorded hsub
  have hid := NodeTree.subtree?_id hsub
  -- the walk along the links and the forest of the tree tell the same nodes
  obtain ⟨below, hends, hnd, hmem, hmark⟩ := hforest.walks hr
  have hids : below = f.ids := by
    have hends' := LinkedTree.ends_descendants hsingle
    rw [hid] at hends'
    exact Except.ok.inj (hends.unique hends').1
  have hlisted : l.InPreorder r.children below := hids ▸ h.inPreorder_single hsub hr
  have hwhole : l.InPreorder [id] (id :: below) := by
    simpa using InPreorder.cons hr hlisted .nil
  refine ⟨below, ?_, ?_, fun hr' order => ?_, fun hk => ?_, fun hk => ?_, ?_, ?_⟩
  · refine ⟨hends, ?_⟩
    rw [NodeTree.descendants, NodeTree.ask, hsub, hids]
  · refine ⟨hends.bind (ends_pure _), ?_⟩
    rw [NodeTree.preorder, NodeTree.ask, hsub, hids]
  · obtain rfl := Option.some.inj (hr.symm.trans hr')
    exact ⟨fun horder => horder.unique hlisted, fun heq => heq ▸ hlisted⟩
  · apply List.count_eq_one_of_mem (List.nodup_cons.mp hnd).2
    exact (hmem _).mpr (hforest.liesBelow_iff.mp hk)
  · apply List.count_eq_zero_of_not_mem
    exact fun hmet => hk (hforest.liesBelow_iff.mpr ((hmem _).mp hmet))
  · -- the parent of a node lists it
    rintro parent child hparent ⟨q, hq, hup⟩
    obtain ⟨r', hr', hcount⟩ := hforest.parent_lists hq hup
    apply hwhole.child_after hparent hr'
    exact List.count_pos_iff.mp (by simp [hcount])
  · have hagrees := h.agrees_markDirty hwf id
    cases ht : t.markDirty id with
    | error e =>
      -- the table has been marked, so the tree does not refuse
      rw [ht] at hagrees
      cases (hmark.unique hagrees).1
    | ok t' =>
      rw [ht] at hagrees
      obtain ⟨l', hends', hl'⟩ := hagrees
      obtain ⟨-, rfl⟩ := hmark.unique hends'
      refine ⟨_, t', hmark, rfl, hl', fun k => rfl, fun k hk => ?_, fun k hk => ?_, rfl, rfl⟩
      · -- what is met is alive, so there is a record whose mark is set
        obtain ⟨q, hq⟩ := h.exists_record?_of_preorder hsub (hids ▸ hk)
        have hmarked : (l.markedOn (id :: below)).record? k = some q.mark := by
          rw [record?_markedOn, if_pos hk, hq]
          rfl
        refine ⟨q.mark, hmarked, rfl, ?_⟩
        rw [hl'.isDirty_eq, hmarked]
        rfl
      · have hkept : (l.markedOn (id :: below)).record? k = l.record? k := by
          rw [record?_markedOn, if_neg hk]
        exact ⟨hkept, by rw [hl'.isDirty_eq, h.isDirty_eq, hkept]⟩

end Represents

/-- **A walk over an explicit stack visits exactly the subtree.** After any run of edits, from any living node:
the walk ends, lists what the recursive pre-order listing lists, meets a node once if a climb from it leads to
the start and never otherwise, and meets no node before its parent; marking marks exactly what it meets. -/
theorem traverses_run (edits : List TreeEdit) :
    ∃ l, empty.run edits = some l ∧ l.Represents (NodeTree.empty.run edits) ∧
      ∀ id r, l.record? id = some r → ∃ below, l.Traverses (NodeTree.empty.run edits) id below := by
  have hwf := NodeTree.wellFormed_run NodeTree.wellFormed_empty edits
  obtain ⟨l, hrun, h⟩ := represents_empty.run NodeTree.wellFormed_empty edits
  exact ⟨l, hrun, h, fun id r hr => h.traverses hwf hr⟩

end LinkedTree

end StyledScene
