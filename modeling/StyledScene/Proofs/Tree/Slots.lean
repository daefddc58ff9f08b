import Mathlib.Data.List.Nodup
import StyledScene.Proofs.Tree.Edits

/-!
# Slots

Every reachable tree is well formed: no slot holds two nodes, and no slot is both in use and free
(`wellFormed_of_reachable`). An id is issued once a node has had it. The next id of the supply is
never an issued one (`not_issued_take`), so a tree never gives an id a second time; and what is issued
stays issued whatever the host does (`EditsTo.issued`).
-/

namespace StyledScene

namespace NodeTree

/-! ## §1 Well-formed trees -/

/-- Every slot below the first unused one holds at most one node or waits in the free list. -/
structure WellFormed (t : NodeTree) : Prop where
  /-- No slot is listed twice, neither among the living nodes nor in the free list. -/
  slots_nodup : (t.forest.ids.map NodeId.index ++ t.pool.free.map NodeId.index).Nodup
  slots_lt : ∀ id ∈ t.forest.ids ++ t.pool.free, id.index < t.pool.fresh

/-- A node has or had the id. -/
def Issued (t : NodeTree) (id : NodeId) : Prop :=
  id.index < t.pool.fresh ∧
    (∀ k ∈ t.pool.free, k.index = id.index → id.version < k.version) ∧
    ∀ k ∈ t.forest.ids, k.index = id.index → id.version ≤ k.version

namespace WellFormed

variable {t t' : NodeTree}

theorem nodup_ids (hwf : t.WellFormed) : t.forest.ids.Nodup :=
  (List.nodup_append.mp hwf.slots_nodup).1.of_map _

/-- Two living nodes in one slot are the same. -/
theorem eq_of_index_eq (hwf : t.WellFormed) {id id' : NodeId} (h : id ∈ t.forest.ids)
    (h' : id' ∈ t.forest.ids) (hslot : id.index = id'.index) : id = id' :=
  List.inj_on_of_nodup_map (List.nodup_append.mp hwf.slots_nodup).1 h h' hslot

/-- The slot of a living node is not free. -/
theorem index_ne_of_free (hwf : t.WellFormed) {id k : NodeId} (h : id ∈ t.forest.ids)
    (hk : k ∈ t.pool.free) : id.index ≠ k.index :=
  (List.nodup_append.mp hwf.slots_nodup).2.2 _ (List.mem_map_of_mem h) _ (List.mem_map_of_mem hk)

/-- Living nodes have issued ids. -/
theorem issued_of_mem (hwf : t.WellFormed) {id : NodeId} (h : id ∈ t.forest.ids) : t.Issued id := by
  refine ⟨hwf.slots_lt id (List.mem_append_left _ h), ?_, ?_⟩
  · intro k hk hslot
    exact absurd hslot.symm (hwf.index_ne_of_free h hk)
  · intro k hk hslot
    exact Nat.le_of_eq (congrArg NodeId.version (hwf.eq_of_index_eq hk h hslot)).symm

end WellFormed

theorem wellFormed_empty : empty.WellFormed where
  slots_nodup := by simp [empty, IdPool.initial]
  slots_lt := by simp [empty, IdPool.initial]

/-! ## §2 The supply of ids -/

/-- The next id is that of the slot freed last or, when no slot is free, that of an unused one. -/
theorem take_cases (pool : IdPool) :
    (∃ k rest, pool.free = k :: rest ∧ pool.take = (k, { pool with free := rest })) ∨
      (pool.free = [] ∧ pool.take = (⟨pool.fresh, 1⟩, { pool with fresh := pool.fresh + 1 })) := by
  unfold IdPool.take
  split
  · rename_i k rest hfree
    exact Or.inl ⟨k, rest, hfree, rfl⟩
  · rename_i hfree
    exact Or.inr ⟨hfree, rfl⟩

/-- The next id was never issued. -/
theorem not_issued_take (t : NodeTree) : ¬ t.Issued t.pool.take.1 := by
  rintro ⟨hlt, hfree, -⟩
  rcases take_cases t.pool with ⟨k, rest, hk, htake⟩ | ⟨-, htake⟩
  · -- an issued id has a smaller version than the free entry of its slot
    rw [htake] at hfree
    exact Nat.lt_irrefl _ (hfree k (by simp [hk]) rfl)
  · rw [htake] at hlt
    exact Nat.lt_irrefl _ hlt

theorem WellFormed.take_not_mem {t : NodeTree} (hwf : t.WellFormed) :
    t.pool.take.1 ∉ t.forest.ids :=
  fun h => t.not_issued_take (hwf.issued_of_mem h)

/-- The tree of a new node shares no id with the living nodes. -/
theorem WellFormed.new_not_mem {t : NodeTree} (hwf : t.WellFormed) (tag : String) :
    ∀ id ∈ (Forest.single (Node.new t.pool.take.1 tag t.nextSerial, .nil)).ids,
      id ∉ t.forest.ids := by
  intro id hid hmem
  rcases Forest.mem_ids_single.mp hid with rfl | hnil
  · exact hwf.take_not_mem hmem
  · cases hnil

theorem free_foldl_release (ids : List NodeId) (pool : IdPool) :
    (ids.foldl IdPool.release pool).fresh = pool.fresh ∧
      (ids.foldl IdPool.release pool).free =
        (ids.map fun id => (⟨id.index, id.version + 2⟩ : NodeId)).reverse ++ pool.free := by
  induction ids generalizing pool with
  | nil => exact ⟨rfl, rfl⟩
  | cons id ids ih =>
    obtain ⟨hfresh, hfree⟩ := ih (pool.release id)
    refine ⟨hfresh, ?_⟩
    rw [List.foldl_cons, hfree, List.map_cons, List.reverse_cons, List.append_assoc]
    rfl

/-! ## §3 What the changes do to the ids -/

@[simp] theorem ids_marked (t : NodeTree) (id : NodeId) :
    (t.marked id).forest.ids = t.forest.ids :=
  Forest.ids_markUnder id t.forest

@[simp] theorem ids_markedAt (t : NodeTree) (id : Option NodeId) :
    (t.markedAt id).forest.ids = t.forest.ids := by
  cases id with
  | none => rfl
  | some id => exact t.ids_marked id

@[simp] theorem pool_markedAt (t : NodeTree) (id : Option NodeId) :
    (t.markedAt id).pool = t.pool := by
  cases id <;> rfl

@[simp] theorem ids_cleaned (t : NodeTree) (id : NodeId) :
    (t.cleaned id).forest.ids = t.forest.ids :=
  Forest.ids_map (fun n => by split <;> rfl) t.forest

theorem ids_revised (t : NodeTree) {id : NodeId} {n : Node} (hid : n.id = id) :
    (t.revised id n).forest.ids = t.forest.ids := by
  rw [revised, ids_marked]
  refine Forest.ids_map (fun k => ?_) t.forest
  split
  · rename_i hk
    exact hid.trans hk.symm
  · rfl

@[simp] theorem ids_detached (t : NodeTree) (id : NodeId) :
    (t.detached id).forest.ids = (t.forest.prune id).ids :=
  ids_markedAt ..

@[simp] theorem pool_detached (t : NodeTree) (id : NodeId) : (t.detached id).pool = t.pool :=
  pool_markedAt ..

@[simp] theorem pool_attached (t : NodeTree) (sub : Node × Forest) (parent : Option NodeId) :
    (t.attached sub parent).pool = t.pool := by
  cases parent <;> rfl

section View

variable {β : Type} {g : Node → β} {t : NodeTree}

/-- Marking is invisible to a view of the nodes that does not look at the mark. -/
theorem view_markUnder (hg : ∀ n, g n.mark = g n) (id : NodeId) (f : Forest) :
    (f.markUnder id).nodes.map g = f.nodes.map g := by
  have hmap (f : Forest) : (f.map Node.mark).nodes.map g = f.nodes.map g := by
    rw [Forest.nodes_map, List.map_map]
    exact List.map_congr_left fun n _ => hg n
  induction f with
  | nil => rfl
  | tree n children rest ihc ihr =>
    rw [Forest.markUnder]
    split
    · simp only [Forest.nodes, List.map_cons, List.map_append, hg, hmap]
    · simp only [Forest.nodes, List.map_cons, List.map_append, ihc, ihr]

theorem view_markedAt (hg : ∀ n, g n.mark = g n) (t : NodeTree) (id : Option NodeId) :
    (t.markedAt id).forest.nodes.map g = t.forest.nodes.map g := by
  cases id with
  | none => rfl
  | some id => exact view_markUnder hg id t.forest

/-- The nodes of a tree are those of a subtree together with those that stay when it is detached. -/
theorem view_perm_detached (hg : ∀ n, g n.mark = g n) (hnd : t.forest.ids.Nodup) {id : NodeId}
    {sub : Node × Forest} (h : t.subtree? id = some sub) :
    (t.forest.nodes.map g).Perm
      ((Forest.single sub).nodes.map g ++ (t.detached id).forest.nodes.map g) := by
  have hperm := ((Forest.nodes_perm_of_subtree? hnd h).2).map g
  rw [List.map_append] at hperm
  rw [detached, view_markedAt hg]
  exact hperm

theorem view_perm_attached (hg : ∀ n, g n.mark = g n) (hnd : t.forest.ids.Nodup)
    {sub : Node × Forest} {parent : Option NodeId}
    (h : ∀ p, parent = some p → p ∈ t.forest.ids) :
    ((t.attached sub parent).forest.nodes.map g).Perm
      ((Forest.single sub).nodes.map g ++ t.forest.nodes.map g) := by
  cases parent with
  | none =>
    refine (List.Perm.of_eq (view_markUnder hg sub.1.id _)).trans ?_
    have hperm := (Forest.nodes_insertRoot sub t.forest).map g
    rw [List.map_append] at hperm
    simpa [Forest.single, Forest.nodes] using hperm
  | some p =>
    refine (List.Perm.of_eq (view_markUnder hg p _)).trans ?_
    have hperm := (Forest.nodes_graft (t := sub) hnd (h p rfl)).map g
    rw [List.map_append] at hperm
    exact hperm

end View

/-- The ids of a tree are those of a subtree together with those that stay when it is detached. -/
theorem ids_perm_detached {t : NodeTree} (hnd : t.forest.ids.Nodup) {id : NodeId}
    {sub : Node × Forest} (h : t.subtree? id = some sub) :
    t.forest.ids.Perm ((Forest.single sub).ids ++ (t.detached id).forest.ids) :=
  view_perm_detached (fun _ => rfl) hnd h

theorem ids_perm_attached {t : NodeTree} (hnd : t.forest.ids.Nodup) {sub : Node × Forest}
    {parent : Option NodeId} (h : ∀ p, parent = some p → p ∈ t.forest.ids) :
    (t.attached sub parent).forest.ids.Perm ((Forest.single sub).ids ++ t.forest.ids) :=
  view_perm_attached (fun _ => rfl) hnd h

/-- A new parent that does not lie below the moved node stays when that node is detached. -/
theorem mem_ids_detached_of_not_isUnder {t : NodeTree} (hnd : t.forest.ids.Nodup) {id p : NodeId}
    (hlive : t.contains p = true) (hunder : t.isUnder id p = false) :
    p ∈ (t.detached id).forest.ids := by
  rw [ids_detached]
  obtain ⟨path, hpath⟩ := Forest.exists_path? (contains_iff.mp hlive)
  unfold isUnder at hunder
  rw [path?_eq, hpath] at hunder
  refine Forest.mem_ids_of_path? ((Forest.path?_prune_iff hnd).mpr ⟨hpath, fun hmem => ?_⟩)
  obtain ⟨a, ha, hid⟩ := List.mem_map.mp hmem
  simp only [List.any_eq_false, beq_iff_eq] at hunder
  exact hunder a ha hid

/-- A move gives the nodes back in another order, apart from their marks. -/
theorem MovesTo.view_perm {β : Type} {g : Node → β} (hg : ∀ n, g n.mark = g n) {t t' : NodeTree}
    (hnd : t.forest.ids.Nodup) {id : NodeId} {parent : Option NodeId} (h : t.MovesTo id parent t') :
    (t'.forest.nodes.map g).Perm (t.forest.nodes.map g) := by
  obtain ⟨sub, hsub, hparent, rfl⟩ := h
  have hnd' : (t.detached id).forest.ids.Nodup := by
    rw [ids_detached]
    exact Forest.nodup_ids_prune hnd id
  refine (view_perm_attached hg hnd' fun p hp => ?_).trans (view_perm_detached hg hnd hsub).symm
  exact mem_ids_detached_of_not_isUnder hnd (hparent p hp).1 (hparent p hp).2

/-- A move gives the ids back in another order. -/
theorem MovesTo.ids_perm {t t' : NodeTree} (hnd : t.forest.ids.Nodup) {id : NodeId}
    {parent : Option NodeId} (h : t.MovesTo id parent t') :
    t'.forest.ids.Perm t.forest.ids ∧ t'.pool = t.pool := by
  refine ⟨h.view_perm (fun _ => rfl) hnd, ?_⟩
  obtain ⟨sub, -, -, rfl⟩ := h
  simp

theorem ids_perm_create (t : NodeTree) (tag : String) :
    (t.create tag).2.forest.ids.Perm (t.pool.take.1 :: t.forest.ids) :=
  (Forest.nodes_insertRoot (Node.new t.pool.take.1 tag t.nextSerial, .nil) t.forest).map Node.id

theorem pool_create (t : NodeTree) (tag : String) : (t.create tag).2.pool = t.pool.take.2 := rfl

/-! ## §4 Well-formedness is kept -/

theorem WellFormed.of_perm {t t' : NodeTree} (hwf : t.WellFormed)
    (h : t'.forest.ids.Perm t.forest.ids ∧ t'.pool = t.pool) : t'.WellFormed where
  slots_nodup := by
    rw [h.2, ((h.1.map NodeId.index).append_right _).nodup_iff]
    exact hwf.slots_nodup
  slots_lt := by
    intro id hid
    rw [h.2] at hid ⊢
    refine hwf.slots_lt id ?_
    rwa [List.mem_append, h.1.mem_iff, ← List.mem_append] at hid

theorem WellFormed.create {t : NodeTree} (hwf : t.WellFormed) (tag : String) :
    (t.create tag).2.WellFormed := by
  have hids := t.ids_perm_create tag
  have hpool := t.pool_create tag
  rcases take_cases t.pool with ⟨k, rest, hfree, htake⟩ | ⟨hfree, htake⟩
  · -- the slot moves from the free list to the living nodes
    rw [htake] at hids hpool
    constructor
    · have hnd := hwf.slots_nodup
      rw [hfree] at hnd
      rw [hpool, ((hids.map NodeId.index).append_right _).nodup_iff]
      exact List.perm_middle.nodup_iff.mp hnd
    · intro id hid
      rw [hpool, List.mem_append, hids.mem_iff] at hid
      rw [hpool]
      refine hwf.slots_lt id ?_
      rw [hfree]
      simpa [or_assoc, or_left_comm] using hid
  · -- the slot is the first unused one
    rw [htake] at hids hpool
    constructor
    · rw [hpool, ((hids.map NodeId.index).append_right _).nodup_iff, List.map_cons,
        List.cons_append, List.nodup_cons]
      refine ⟨fun hmem => ?_, hwf.slots_nodup⟩
      rw [← List.map_append] at hmem
      obtain ⟨id, hid, hslot⟩ := List.mem_map.mp hmem
      exact Nat.ne_of_lt (hwf.slots_lt id hid) hslot
    · intro id hid
      rw [hpool, List.mem_append, hids.mem_iff, List.mem_cons, or_assoc, ← List.mem_append] at hid
      rw [hpool]
      rcases hid with rfl | hold
      · exact Nat.lt_succ_self _
      · exact Nat.lt_succ_of_lt (hwf.slots_lt id hold)

/-- The nodes that a destruction removes, in the order in which their slots become free. -/
theorem ids_perm_destroy {t : NodeTree} (hnd : t.forest.ids.Nodup) {id : NodeId}
    {sub : Node × Forest} (h : t.subtree? id = some sub) :
    t.forest.ids.Perm ((sub.2.ids ++ [id]) ++ (t.detached id).forest.ids) := by
  refine (ids_perm_detached hnd h).trans (.append_right _ ?_)
  rw [Forest.single, Forest.ids_tree, Forest.ids_nil, List.append_nil, subtree?_id h]
  exact (List.perm_append_singleton id sub.2.ids).symm

theorem WellFormed.release {t t' : NodeTree} (hwf : t.WellFormed) {doomed : List NodeId}
    (hids : t.forest.ids.Perm (doomed ++ t'.forest.ids))
    (hpool : t'.pool = doomed.foldl IdPool.release t.pool) : t'.WellFormed := by
  obtain ⟨hfresh, hfree⟩ := free_foldl_release doomed t.pool
  constructor
  · have hnd := hwf.slots_nodup
    rw [((hids.map NodeId.index).append_right _).nodup_iff] at hnd
    refine (List.Perm.nodup_iff ?_).mp hnd
    rw [hpool, hfree, List.map_append, List.map_append, List.map_reverse, List.map_map]
    -- a freed slot has a new version but the old place
    have hslots : (doomed.map (NodeId.index ∘ fun id => (⟨id.index, id.version + 2⟩ : NodeId))) =
        doomed.map NodeId.index := rfl
    rw [hslots, List.append_assoc]
    refine .trans (.append_right _ (List.reverse_perm _).symm) ?_
    exact List.perm_append_comm_assoc ..
  · intro id hid
    rw [hpool, hfree, List.mem_append, List.mem_append, List.mem_reverse, List.mem_map] at hid
    rw [hpool, hfresh]
    rcases hid with hlive | ⟨k, hk, rfl⟩ | hold
    · exact hwf.slots_lt id (List.mem_append_left _ (hids.mem_iff.mpr (by simp [hlive])))
    · exact hwf.slots_lt k (List.mem_append_left _ (hids.mem_iff.mpr (by simp [hk])))
    · exact hwf.slots_lt id (List.mem_append_right _ hold)

/-- **Every accepted edit keeps a tree well formed.** -/
theorem EditsTo.wellFormed {t t' : NodeTree} {e : TreeEdit} (h : t.EditsTo e t')
    (hwf : t.WellFormed) : t'.WellFormed := by
  cases h with
  | create tag => exact hwf.create tag
  | @createChild _ tag _ h =>
    have hgrown := hwf.create tag
    exact hgrown.of_perm (h.ids_perm hgrown.nodup_ids)
  | destroy h => exact hwf.release (ids_perm_destroy hwf.nodup_ids h) rfl
  | setParent h => exact hwf.of_perm (h.ids_perm hwf.nodup_ids)
  | revise hid => exact hwf.of_perm ⟨by rw [ids_revised t hid], rfl⟩
  | keep => exact hwf
  | markDirty id => exact hwf.of_perm ⟨by rw [ids_marked], rfl⟩
  | clearDirty id => exact hwf.of_perm ⟨by rw [ids_cleaned], rfl⟩

theorem wellFormed_run {t : NodeTree} (hwf : t.WellFormed) (edits : List TreeEdit) :
    (t.run edits).WellFormed := by
  induction edits generalizing t with
  | nil => exact hwf
  | cons e edits ih => exact ih ((editsTo_after t e).wellFormed hwf)

/-- **Every reachable tree is well formed.** -/
theorem wellFormed_of_reachable {t : NodeTree} (h : t.Reachable) : t.WellFormed := by
  obtain ⟨edits, rfl⟩ := h
  exact wellFormed_run wellFormed_empty edits

/-! ## §5 Issued ids stay issued -/

theorem Issued.of_perm {t t' : NodeTree} {id : NodeId} (h : t.Issued id)
    (hsame : t'.forest.ids.Perm t.forest.ids ∧ t'.pool = t.pool) : t'.Issued id := by
  obtain ⟨hlt, hfree, hlive⟩ := h
  rw [Issued, hsame.2]
  exact ⟨hlt, hfree, fun k hk => hlive k (hsame.1.mem_iff.mp hk)⟩

theorem Issued.create {t : NodeTree} {id : NodeId} (h : t.Issued id) (tag : String) :
    (t.create tag).2.Issued id := by
  obtain ⟨hlt, hfree, hlive⟩ := h
  have hids := t.ids_perm_create tag
  rw [Issued, t.pool_create tag]
  rcases take_cases t.pool with ⟨k, rest, hk, htake⟩ | ⟨-, htake⟩
  · -- the slot is used again, under a version that was never issued
    rw [hk] at hfree
    rw [htake] at hids ⊢
    refine ⟨hlt, fun j hj => hfree j (List.mem_cons_of_mem _ hj), fun j hj hslot => ?_⟩
    rcases List.mem_cons.mp (hids.mem_iff.mp hj) with rfl | hold
    · exact Nat.le_of_lt (hfree j (by simp) hslot)
    · exact hlive j hold hslot
  · rw [htake] at hids ⊢
    refine ⟨Nat.lt_succ_of_lt hlt, hfree, fun j hj hslot => ?_⟩
    rcases List.mem_cons.mp (hids.mem_iff.mp hj) with rfl | hold
    · exact absurd hslot.symm (Nat.ne_of_lt hlt)
    · exact hlive j hold hslot

theorem Issued.release {t t' : NodeTree} {id : NodeId} (h : t.Issued id) {doomed : List NodeId}
    (hids : t.forest.ids.Perm (doomed ++ t'.forest.ids))
    (hpool : t'.pool = doomed.foldl IdPool.release t.pool) : t'.Issued id := by
  obtain ⟨hlt, hfree, hlive⟩ := h
  obtain ⟨hfresh', hfree'⟩ := free_foldl_release doomed t.pool
  refine ⟨by rw [hpool, hfresh']; exact hlt, ?_, ?_⟩
  · intro k hk hslot
    rw [hpool, hfree', List.mem_append, List.mem_reverse, List.mem_map] at hk
    rcases hk with ⟨j, hj, rfl⟩ | hold
    · -- the slot was freed just now, and its version went up
      have hle := hlive j (hids.mem_iff.mpr (List.mem_append_left _ hj)) hslot
      exact Nat.lt_of_le_of_lt hle (Nat.lt_add_of_pos_right (by decide))
    · exact hfree k hold hslot
  · exact fun k hk => hlive k (hids.mem_iff.mpr (List.mem_append_right _ hk))

/-- **An issued id stays issued**, whether or not its node lives on. -/
theorem EditsTo.issued {t t' : NodeTree} {e : TreeEdit} (h : t.EditsTo e t') (hwf : t.WellFormed)
    {id : NodeId} (hid : t.Issued id) : t'.Issued id := by
  cases h with
  | create tag => exact hid.create tag
  | @createChild _ tag _ h =>
    exact (hid.create tag).of_perm (h.ids_perm (hwf.create tag).nodup_ids)
  | destroy h => exact hid.release (ids_perm_destroy hwf.nodup_ids h) rfl
  | setParent h => exact hid.of_perm (h.ids_perm hwf.nodup_ids)
  | revise hn => exact hid.of_perm ⟨by rw [ids_revised t hn], rfl⟩
  | keep => exact hid
  | markDirty id => exact hid.of_perm ⟨by rw [ids_marked], rfl⟩
  | clearDirty id => exact hid.of_perm ⟨by rw [ids_cleaned], rfl⟩

/-- **No issued id comes to life again.** -/
theorem EditsTo.mem_ids_of_issued {t t' : NodeTree} {e : TreeEdit} (h : t.EditsTo e t')
    (hwf : t.WellFormed) {id : NodeId} (hid : t.Issued id) (hlive : id ∈ t'.forest.ids) :
    id ∈ t.forest.ids := by
  -- only a creation brings in an id, and that one was never issued
  have hnew : id ≠ t.pool.take.1 := fun heq => t.not_issued_take (heq ▸ hid)
  cases h with
  | create tag => exact List.mem_of_ne_of_mem hnew ((t.ids_perm_create tag).mem_iff.mp hlive)
  | @createChild _ tag _ h =>
    rw [(h.ids_perm (hwf.create tag).nodup_ids).1.mem_iff] at hlive
    exact List.mem_of_ne_of_mem hnew ((t.ids_perm_create tag).mem_iff.mp hlive)
  | destroy h => exact (ids_perm_destroy hwf.nodup_ids h).mem_iff.mpr (List.mem_append_right _ hlive)
  | setParent h => exact (h.ids_perm hwf.nodup_ids).1.mem_iff.mp hlive
  | revise hn => exact t.ids_revised hn ▸ hlive
  | keep => exact hlive
  | markDirty x => exact t.ids_marked x ▸ hlive
  | clearDirty x => exact t.ids_cleaned x ▸ hlive

end NodeTree

end StyledScene
