import StyledScene.Proofs.Tree.Subtrees

/-!
# Effects of destructions and moves

All that a destruction or a move changes in a tree, and that it changes nothing else. `Destroys` and
`Moves` state it field by field for two trees; `exists_destroys` and `exists_moves` prove it of
every destruction and every move that a reachable tree allows, and that these are never refused.
-/

namespace StyledScene

/-- The record with other links after a move of the node `id` under `parent`, where `k` is the node of
the record. -/
def Record.moved (r : Record) (k id : NodeId) (parent : Option NodeId) : Record where
  data := r.data
  parent := if k = id then parent else r.parent
  children := r.children.filter (· != id) ++ if parent = some k then [id] else []

theorem Forest.markRecords_map {ids : List NodeId} {record? : NodeId → Option Record}
    {g : Record → Record} (k : NodeId) :
    Forest.markRecords ids (fun k => (record? k).map g) k =
      (record? k).map fun r => if k ∈ ids then (g r).mark else g r := by
  unfold Forest.markRecords
  split
  · rw [Option.map_map]
    rfl
  · rfl

namespace Forest

theorem subtree?_push (s : Node × Forest) (f : Forest) (id : NodeId) :
    (f.push s).subtree? id = (f.subtree? id).or ((single s).subtree? id) := by
  induction f with
  | nil => rfl
  | tree n children rest _ ihr =>
    rw [push, subtree?, subtree?, ihr]
    split
    · rfl
    · rw [Option.or_assoc]

theorem subtree?_single_root (s : Node × Forest) : (single s).subtree? s.1.id = some s := by
  rw [single, subtree?, if_pos rfl]

/-- A new tree is found below its parent as it is. -/
theorem subtree?_graft_root {parent : NodeId} {s : Node × Forest} {f : Forest}
    (hparent : parent ∈ f.ids) (hnew : s.1.id ∉ f.ids) :
    (f.graft parent s).subtree? s.1.id = some s := by
  induction f with
  | nil => cases hparent
  | tree n children rest ihc ihr =>
    rw [ids_tree, List.mem_cons, List.mem_append] at hparent
    rw [ids_tree, List.mem_cons, List.mem_append, not_or, not_or] at hnew
    obtain ⟨hn, hc, hr⟩ := hnew
    rw [graft]
    split
    · rw [subtree?, if_neg (Ne.symm hn), subtree?_push, subtree?_eq_none hc, subtree?_single_root]
      rfl
    · rename_i hne
      rw [subtree?, if_neg (Ne.symm hn)]
      by_cases hpc : parent ∈ children.ids
      · rw [ihc hpc hc]
        rfl
      · rw [graft_of_not_mem hpc, subtree?_eq_none hc,
          ihr ((hparent.resolve_left (Ne.symm hne)).resolve_left hpc) hr]
        rfl

/-- A new tree is found among the roots as it is. -/
theorem subtree?_insertRoot_root {s : Node × Forest} {f : Forest} (hnew : s.1.id ∉ f.ids) :
    (f.insertRoot s).subtree? s.1.id = some s := by
  induction f with
  | nil => exact subtree?_single_root s
  | tree n children rest _ ihr =>
    rw [insertRoot]
    split
    · rw [subtree?, if_pos rfl]
    · rw [ids_tree, List.mem_cons, List.mem_append, not_or, not_or] at hnew
      rw [subtree?, if_neg (Ne.symm hnew.1), subtree?_eq_none hnew.2.1, ihr hnew.2.2]
      rfl

end Forest

namespace NodeTree

variable {t t' : NodeTree} {id k : NodeId} {sub : Node × Forest}

/-! ## §1 Reading a changed record -/

section Rewritten

/-! The record of `k` got other links and, if `k` is one of `ids`, a mark. -/

variable {ids : List NodeId} {g : Record → Record}
  (h : t'.recordOf? k = (t.recordOf? k).map fun r => if k ∈ ids then (g r).mark else g r)

include h

theorem parentId?_of_rewritten : t'.parentId? k = (t.recordOf? k).bind fun r => (g r).parent := by
  rw [parentId?_eq_recordOf?, h]
  cases t.recordOf? k with
  | none => rfl
  | some r => simp only [Option.map_some, Option.bind_some]; split <;> rfl

theorem childIds_of_rewritten :
    t'.childIds k = ((t.recordOf? k).map fun r => (g r).children).getD [] := by
  rw [childIds_eq_recordOf?, h]
  cases t.recordOf? k with
  | none => rfl
  | some r => simp only [Option.map_some, Option.getD_some]; split <;> rfl

variable (hdata : ∀ r, (g r).data = r.data)

include hdata

theorem clean_of_rewritten : (t'.get? k).map Node.clean = (t.get? k).map Node.clean := by
  rw [get?_eq_recordOf?, get?_eq_recordOf?, h]
  cases t.recordOf? k with
  | none => rfl
  | some r =>
    simp only [Option.map_some]
    split
    · rw [Record.mark, hdata]
      rfl
    · rw [hdata]

theorem isDirty_of_rewritten (hlive : t.contains k = true) :
    t'.isDirty k = .ok true ↔ t.isDirty k = .ok true ∨ k ∈ ids := by
  obtain ⟨n, above, hp, -⟩ := path?_of_contains hlive
  rw [isDirty_eq_ok_iff, isDirty_eq_ok_iff, h, recordOf?_of_path? hp]
  simp only [Option.map_some, Option.some.injEq]
  split
  · rename_i hk
    simp [Record.mark, Node.mark, hk]
  · rename_i hk
    simp [hdata, hk]

end Rewritten

/-! ## §2 Destructions -/

/-- The tree `t'` is what a destruction of `id` makes of `t`, where `doomed` dies. -/
structure Destroys (t : NodeTree) (id : NodeId) (doomed : List NodeId) (t' : NodeTree) : Prop where
  contains_iff : ∀ k, t'.contains k = true ↔ t.contains k = true ∧ k ∉ doomed
  nodeCount : t'.nodeCount + doomed.length = t.nodeCount
  nextSerial : t'.nextSerial = t.nextSerial
  parentId? : ∀ k, t'.contains k = true → t'.parentId? k = t.parentId? k
  /-- The former parent loses the node from its list, and the others stay in their order. -/
  childIds_parent : ∀ p, t.parentId? id = some p → t'.childIds p = (t.childIds p).filter (· != id)
  childIds_other : ∀ k, t'.contains k = true → t.parentId? id ≠ some k →
    t'.childIds k = t.childIds k
  /-- Of the data of a node nothing but the mark changes. -/
  data : ∀ k, t'.contains k = true → (t'.get? k).map Node.clean = (t.get? k).map Node.clean
  preorder_parent : ∀ p, t.parentId? id = some p → t'.preorder p = .ok (t.leftBehind id)
  isDirty_iff : ∀ k, t'.contains k = true →
    (t'.isDirty k = .ok true ↔ t.isDirty k = .ok true ∨ k ∈ t.leftBehind id)

/-- Whoever is not the parent of a node does not list it. -/
theorem filter_childIds (hnd : t.forest.ids.Nodup) (hk : t.parentId? id ≠ some k) :
    (t.childIds k).filter (· != id) = t.childIds k := by
  refine List.filter_eq_self.mpr fun j hj => bne_iff_ne.mpr ?_
  rintro rfl
  exact hk ((mem_childIds_iff_parentId? hnd).mp hj)

theorem mem_detached_iff (hnd : t.forest.ids.Nodup) (hsub : t.subtree? id = some sub) :
    k ∈ (t.detached id).forest.ids ↔ k ∈ t.forest.ids ∧ k ∉ t.subtreeIds id := by
  rw [ids_detached, Forest.ids_prune hnd hsub, List.mem_filter, subtreeIds_of_subtree? hsub,
    decide_eq_true_iff]

/-- A destruction does what detaching does to the nodes that stay. -/
theorem destroys_of_subtree? (hnd : t.forest.ids.Nodup) (hsub : t.subtree? id = some sub)
    (pool : IdPool) : t.Destroys id (t.subtreeIds id) { t.detached id with pool := pool } := by
  have hmem (k : NodeId) : ({ t.detached id with pool := pool } : NodeTree).contains k = true ↔
      k ∈ (t.detached id).forest.ids := NodeTree.contains_iff
  have hold {k : NodeId} (hk : k ∈ (t.detached id).forest.ids) : t.contains k = true :=
    NodeTree.contains_iff.mpr ((mem_detached_iff hnd hsub).mp hk).1
  have hrecord {k : NodeId} (hk : k ∈ (t.detached id).forest.ids) :
      ({ t.detached id with pool := pool } : NodeTree).recordOf? k = (t.recordOf? k).map
        fun r => if k ∈ t.leftBehind id then (r.unlist id).mark else r.unlist id :=
    (recordOf?_of_recorded (recorded_detached hnd id) hk).trans (Forest.markRecords_map k)
  have hchildren {k : NodeId} (hk : k ∈ (t.detached id).forest.ids) :
      ({ t.detached id with pool := pool } : NodeTree).childIds k =
        (t.childIds k).filter (· != id) := by
    rw [childIds_of_rewritten (hrecord hk), childIds_eq_recordOf?]
    cases t.recordOf? k <;> rfl
  constructor
  case contains_iff =>
    intro k
    rw [hmem, mem_detached_iff hnd hsub, NodeTree.contains_iff]
  case nodeCount =>
    have hlength := (ids_perm_detached hnd hsub).length_eq
    rw [List.length_append, ← subtreeIds_of_subtree? hsub, Forest.ids, Forest.ids,
      List.length_map, List.length_map, Nat.add_comm] at hlength
    exact hlength.symm
  case nextSerial => exact t.nextSerial_detached id
  case parentId? =>
    intro k hk
    rw [parentId?_of_rewritten (hrecord ((hmem k).mp hk)), parentId?_eq_recordOf?]
    rfl
  case childIds_parent =>
    intro p hp
    apply hchildren
    rw [ids_detached]
    exact mem_ids_prune_of_parentId? hnd hp
  case childIds_other =>
    intro k hk hp
    rw [hchildren ((hmem k).mp hk), filter_childIds hnd hp]
  case data =>
    intro k hk
    exact clean_of_rewritten (hrecord ((hmem k).mp hk)) fun _ => rfl
  case preorder_parent =>
    intro p hp
    have hlive : (t.detached id).contains p = true := by
      rw [NodeTree.contains_iff, ids_detached]
      exact mem_ids_prune_of_parentId? hnd hp
    exact (preorder_eq_ok hlive).trans (congrArg _ (subtreeIds_detached hnd hp))
  case isDirty_iff =>
    intro k hk
    have hk' := (hmem k).mp hk
    exact isDirty_of_rewritten (hrecord hk') (fun _ => rfl) (hold hk')

/-- **The effect of a destruction.** A living node of a reachable tree can always be destroyed. Its
subtree dies, and nothing else: every other node keeps its data, its parent and its children, apart
from the node itself in the list of its former parent. The nodes left below that parent are marked, and
no other mark changes. The table of linked records makes the same step. -/
theorem exists_destroys (hreach : t.Reachable) (hlive : t.contains id = true) :
    ∃ doomed t', t.preorder id = .ok doomed ∧ t.destroy id = .ok t' ∧ t.Destroys id doomed t' ∧
      ∀ l : LinkedTree, l.Represents t →
        ∃ l', Ends (LinkedTree.destroy id) l (.ok ()) l' ∧ l'.Represents t' := by
  have hwf := wellFormed_of_reachable hreach
  obtain ⟨sub, hsub⟩ := exists_subtree? (NodeTree.contains_iff.mp hlive)
  have hok : t.destroy id =
      .ok { t.detached id with pool := (sub.2.ids ++ [id]).foldl IdPool.release t.pool } := by
    rw [destroy, ask, hsub]
  refine ⟨_, _, preorder_eq_ok hlive, hok, destroys_of_subtree? hwf.nodup_ids hsub _, ?_⟩
  intro l hl
  have hagrees := hl.agrees_destroy hwf id
  rw [hok] at hagrees
  exact hagrees

/-- Two cells of a row without marks, each with something below it. -/
def twoCells : NodeTree :=
  empty.run [.create "row", .createChild ⟨1, 1⟩ "cell", .createChild ⟨1, 1⟩ "cell",
    .createChild ⟨2, 1⟩ "text", .createChild ⟨3, 1⟩ "text", .clearDirty ⟨1, 1⟩,
    .clearDirty ⟨2, 1⟩, .clearDirty ⟨3, 1⟩, .clearDirty ⟨4, 1⟩, .clearDirty ⟨5, 1⟩]

/-- The first cell takes its text along, and the row and the second cell are marked. -/
theorem exists_destroys_twoCells :
    ∃ t', twoCells.destroy ⟨2, 1⟩ = .ok t' ∧ twoCells.Destroys ⟨2, 1⟩ [⟨2, 1⟩, ⟨4, 1⟩] t' ∧
      t'.preorder ⟨1, 1⟩ = .ok [⟨1, 1⟩, ⟨3, 1⟩, ⟨5, 1⟩] ∧ t'.isDirty ⟨5, 1⟩ = .ok true := by
  have hreach : twoCells.Reachable := ⟨_, rfl⟩
  have hlive : twoCells.contains ⟨2, 1⟩ = true := by decide
  obtain ⟨doomed, t', hdoomed, hok, hdestroys, -⟩ := exists_destroys hreach hlive
  have hpre : twoCells.preorder ⟨2, 1⟩ = .ok [⟨2, 1⟩, ⟨4, 1⟩] := by decide
  obtain rfl := Except.ok.inj (hdoomed.symm.trans hpre)
  have hparent : twoCells.parentId? ⟨2, 1⟩ = some ⟨1, 1⟩ := by decide
  have hleft : twoCells.leftBehind ⟨2, 1⟩ = [⟨1, 1⟩, ⟨3, 1⟩, ⟨5, 1⟩] := by decide
  refine ⟨t', hok, hdestroys, hleft ▸ hdestroys.preorder_parent _ hparent, ?_⟩
  have hkept : t'.contains ⟨5, 1⟩ = true := (hdestroys.contains_iff _).mpr (by decide)
  exact (hdestroys.isDirty_iff _ hkept).mpr (.inr (hleft ▸ by decide))

/-! ## §3 Moves -/

/-- The tree `t'` is what moving `id` to a new place makes of `t`. -/
structure Moves (t : NodeTree) (id : NodeId) (parent : Option NodeId) (t' : NodeTree) : Prop where
  contains : ∀ k, t'.contains k = t.contains k
  pool : t'.pool = t.pool
  nextSerial : t'.nextSerial = t.nextSerial
  parentId?_self : t'.parentId? id = parent
  parentId?_other : ∀ k, k ≠ id → t'.parentId? k = t.parentId? k
  /-- The node comes last below its new parent, also if it stood there before. -/
  childIds_new : ∀ p, parent = some p → t'.childIds p = (t.childIds p).filter (· != id) ++ [id]
  childIds_old : ∀ p, t.parentId? id = some p → parent ≠ some p →
    t'.childIds p = (t.childIds p).filter (· != id)
  childIds_other : ∀ k, t.parentId? id ≠ some k → parent ≠ some k → t'.childIds k = t.childIds k
  /-- Of the data of a node nothing but the mark changes. -/
  data : ∀ k, (t'.get? k).map Node.clean = (t.get? k).map Node.clean
  descendants : t'.descendants id = t.descendants id
  isDirty_iff : ∀ k, t.contains k = true →
    (t'.isDirty k = .ok true ↔
      t.isDirty k = .ok true ∨ k ∈ t.leftBehind id ∨ k ∈ t'.subtreeIds (parent.getD id))

/-- The tree with a subtree added, before anything is marked. -/
def placed (t : NodeTree) (sub : Node × Forest) (parent : Option NodeId) : NodeTree :=
  match parent with
  | some p => { t with forest := t.forest.graft p sub }
  | none => { t with forest := t.forest.insertRoot sub }

theorem attached_eq (t : NodeTree) (sub : Node × Forest) (parent : Option NodeId) :
    t.attached sub parent = (t.placed sub parent).marked (parent.getD sub.1.id) := by
  cases parent <;> rfl

/-- The record of a node after a move, before the new place is marked. -/
def movedRecord? (t : NodeTree) (id : NodeId) (parent : Option NodeId) (k : NodeId) :
    Option Record :=
  (Forest.markRecords (t.leftBehind id) t.recordOf? k).map fun r => r.moved k id parent

/-- In the subtree that is moved only the link up from its root changes. -/
theorem movedRecord?_of_mem_subtree (hnd : t.forest.ids.Nodup) {parent : Option NodeId}
    (hsub : t.subtree? id = some sub) (hk : k ∈ t.subtreeIds id) (hne : parent ≠ some k) :
    t.movedRecord? id parent k =
      (t.recordOf? k).map fun r => { r with parent := if k = id then parent else r.parent } := by
  have hout : k ∉ t.leftBehind id := by
    unfold leftBehind
    split
    · exact List.not_mem_nil
    · simp [hk]
  -- the old parent does not lie in the subtree either
  have hold : t.parentId? id ≠ some k := fun hp =>
    not_mem_ids_prune_of_mem_single hnd hsub (subtreeIds_of_subtree? hsub ▸ hk)
      (mem_ids_prune_of_parentId? hnd hp)
  have hlist := filter_childIds hnd hold
  rw [childIds_eq_recordOf?] at hlist
  rw [movedRecord?, Forest.markRecords, if_neg hout]
  cases hr : t.recordOf? k with
  | none => rfl
  | some r =>
    rw [hr] at hlist
    simp only [Option.map_some, Option.getD_some] at hlist
    simp [Record.moved, hlist, hne]

/-- Elsewhere a node is taken from one list and added to another. -/
theorem movedRecord?_of_ne (hne : k ≠ id) (parent : Option NodeId) :
    t.movedRecord? id parent k =
      (Forest.markRecords (t.leftBehind id) (fun k => (t.recordOf? k).map fun r => r.unlist id) k).map
        fun r => if parent = some k then r.enlist id else r := by
  rw [Forest.markRecords_map, movedRecord?, Forest.markRecords]
  cases t.recordOf? k with
  | none => simp
  | some r =>
    -- a mark changes no link
    have hlinks (r : Record) :
        r.moved k id parent = if parent = some k then (r.unlist id).enlist id else r.unlist id := by
      rw [Record.moved, if_neg hne]
      split <;> simp [Record.unlist, Record.enlist]
    split
    · simp only [Option.map_some, hlinks, Record.mark]
      split <;> rfl
    · simp only [Option.map_some, hlinks]

section Placed

variable {parent : Option NodeId} (hnd : t.forest.ids.Nodup) (hsub : t.subtree? id = some sub)
  (hparent : ∀ p, parent = some p → p ∈ (t.detached id).forest.ids)

include hnd hsub hparent

theorem recorded_moved_subtree :
    (Forest.single sub).Recorded (t.movedRecord? id parent) parent := by
  have hid := subtree?_id hsub
  have hrecord {k : NodeId} (hk : k ∈ (Forest.single sub).ids) :
      t.movedRecord? id parent k =
        (t.recordOf? k).map fun r => { r with parent := if k = id then parent else r.parent } := by
    refine movedRecord?_of_mem_subtree hnd hsub (subtreeIds_of_subtree? hsub ▸ hk) fun hp => ?_
    have hstays := hparent k hp
    rw [ids_detached] at hstays
    exact not_mem_ids_prune_of_mem_single hnd hsub hk hstays
  obtain ⟨up, hrecorded⟩ := (recorded_recordOf? hnd).of_subtree? hsub
  obtain ⟨hroot, hbelow⟩ := Forest.recorded_single.mp hrecorded
  obtain ⟨⟨hnot, -⟩, -⟩ := Forest.nodup_ids_tree.mp (Forest.nodup_ids_single hnd hsub)
  refine Forest.recorded_single.mpr ⟨?_, hbelow.congr fun k hk => ?_⟩
  · rw [hrecord (Forest.mem_ids_single.mpr (.inl rfl)), hroot]
    simp [hid]
  · have hne : k ≠ id := fun heq => hnot (hid ▸ heq ▸ hk)
    rw [hrecord (Forest.mem_ids_single.mpr (.inr hk))]
    simp [hne]

/-- The subtree stands in its new place and the other nodes in their old ones. -/
theorem recorded_placed :
    ((t.detached id).placed sub parent).forest.Recorded (t.movedRecord? id parent) none := by
  have hid := subtree?_id hsub
  have hdnd : (t.detached id).forest.ids.Nodup := by
    rw [ids_detached]
    exact Forest.nodup_ids_prune hnd id
  have hne {k : NodeId} (hk : k ∈ (t.detached id).forest.ids) : k ≠ id := by
    rintro rfl
    rw [ids_detached] at hk
    exact Forest.not_mem_ids_prune hnd k hk
  have hmoved := recorded_moved_subtree hnd hsub hparent
  cases parent with
  | none =>
    refine Forest.Recorded.insertRoot ((recorded_detached hnd id).congr fun k hk => ?_) hmoved
    rw [movedRecord?_of_ne (hne hk)]
    simp
  | some p =>
    refine Forest.Recorded.graft (recorded_detached hnd id) hdnd hmoved (fun k hk hkp => ?_) fun hp => ?_
    · rw [movedRecord?_of_ne (hne hk)]
      simp [Ne.symm hkp]
    · rw [movedRecord?_of_ne (hne hp), hid]
      simp

end Placed

/-- The subtree is found in its new place as it was. -/
theorem subtree?_placed {parent : Option NodeId} (hnew : sub.1.id ∉ t.forest.ids)
    (hparent : ∀ p, parent = some p → p ∈ t.forest.ids) :
    (t.placed sub parent).subtree? sub.1.id = some sub := by
  cases parent with
  | none => exact Forest.subtree?_insertRoot_root hnew
  | some p => exact Forest.subtree?_graft_root (hparent p rfl) hnew

theorem descendants_eq_ok (hlive : t.contains id = true) :
    t.descendants id = .ok (t.subtreeIds id).tail := by
  obtain ⟨sub, hsub⟩ := Option.isSome_iff_exists.mp hlive
  rw [subtreeIds, preorder, descendants, ask, ask, hsub]
  rfl

/-- After a move every record has its links changed for the move, and is marked if the node was left
behind or lies in the new place. -/
theorem MovesTo.recordOf? {parent : Option NodeId} (hnd : t.forest.ids.Nodup)
    (h : t.MovesTo id parent t') (k : NodeId) :
    t'.recordOf? k = (t.recordOf? k).map fun r =>
      if k ∈ t.leftBehind id ++ t'.subtreeIds (parent.getD id) then (r.moved k id parent).mark
      else r.moved k id parent := by
  have hperm := (h.ids_perm hnd).1
  by_cases hk : k ∈ t.forest.ids
  case neg => rw [recordOf?_eq_none hk, recordOf?_eq_none fun hk' => hk (hperm.mem_iff.mp hk')]; rfl
  obtain ⟨sub, hsub, hallowed, rfl⟩ := h
  have hparent (p : NodeId) (hp : parent = some p) : p ∈ (t.detached id).forest.ids :=
    mem_ids_detached_of_not_isUnder hnd (hallowed p hp).1 (hallowed p hp).2
  have hk' := hperm.mem_iff.mpr hk
  have hnd' := hperm.nodup_iff.mpr hnd
  rw [attached_eq, subtree?_id hsub] at hk' hnd' ⊢
  rw [ids_marked] at hnd'
  have hrecorded := recorded_marked (recorded_placed hnd hsub hparent) hnd' (parent.getD id)
  rw [recordOf?_of_recorded hrecorded hk', (EqualUpToMarks.marked _ _).subtreeIds]
  -- one mark or two make no difference
  simp only [Forest.markRecords, movedRecord?, List.mem_append]
  cases t.recordOf? k with
  | none => simp
  | some r =>
    by_cases hleft : k ∈ t.leftBehind id
    · simp [hleft, Record.moved, Record.mark, Node.mark]
    · simp only [hleft, if_false, false_or, Option.map_some]
      split <;> rfl

/-- The node is taken from every list, and comes last in that of its new parent. -/
theorem MovesTo.childIds {parent : Option NodeId} (hnd : t.forest.ids.Nodup)
    (h : t.MovesTo id parent t') (hk : parent = some k → t.contains k = true) :
    t'.childIds k = (t.childIds k).filter (· != id) ++ if parent = some k then [id] else [] := by
  rw [childIds_of_rewritten (h.recordOf? hnd k), childIds_eq_recordOf?]
  cases hr : t.recordOf? k with
  | some r => rfl
  | none =>
    -- a dead node is no parent
    have hne : parent ≠ some k := fun hp => by
      obtain ⟨n, above, hpath, -⟩ := path?_of_contains (hk hp)
      rw [recordOf?_of_path? hpath] at hr
      cases hr
    simp [hne]

/-- An accepted move has this effect. -/
theorem MovesTo.moves {parent : Option NodeId} (hnd : t.forest.ids.Nodup)
    (h : t.MovesTo id parent t') : t.Moves id parent t' := by
  have hrecord := h.recordOf? hnd
  have hids := h.ids_perm hnd
  have hcontains (k : NodeId) : t'.contains k = t.contains k := by
    rw [Bool.eq_iff_iff, contains_iff, contains_iff, hids.1.mem_iff]
  have hserial := h.nextSerial
  have hchildren (k : NodeId) := h.childIds (k := k) hnd
  obtain ⟨sub, hsub, hallowed, rfl⟩ := h
  have hid := subtree?_id hsub
  have hlive : t.contains id = true := contains_iff.mpr (mem_ids_of_subtree? hsub)
  have hparent (p : NodeId) (hp : parent = some p) : p ∈ (t.detached id).forest.ids :=
    mem_ids_detached_of_not_isUnder hnd (hallowed p hp).1 (hallowed p hp).2
  constructor
  case contains => exact hcontains
  case pool => exact hids.2
  case nextSerial => exact hserial
  case parentId?_self =>
    obtain ⟨n, above, hpath, -⟩ := path?_of_contains hlive
    rw [parentId?_of_rewritten (hrecord id), recordOf?_of_path? hpath]
    simp [Record.moved]
  case parentId?_other =>
    intro k hne
    rw [parentId?_of_rewritten (hrecord k), parentId?_eq_recordOf?]
    simp [Record.moved, hne]
  case childIds_new =>
    rintro p rfl
    rw [hchildren p fun _ => (hallowed p rfl).1, if_pos rfl]
  case childIds_old =>
    intro p _ hne
    rw [hchildren p fun hp => absurd hp hne, if_neg hne, List.append_nil]
  case childIds_other =>
    intro k hold hne
    rw [hchildren k fun hp => absurd hp hne, if_neg hne, List.append_nil, filter_childIds hnd hold]
  case data =>
    intro k
    exact clean_of_rewritten (hrecord k) fun _ => rfl
  case descendants =>
    have hnew : sub.1.id ∉ (t.detached id).forest.ids := by
      rw [ids_detached, hid]
      exact Forest.not_mem_ids_prune hnd id
    have hplaced := subtree?_placed hnew hparent
    rw [hid] at hplaced
    rw [descendants_eq_ok hlive, descendants_eq_ok ((hcontains id).trans hlive), attached_eq,
      (EqualUpToMarks.marked _ _).subtreeIds, subtreeIds_of_subtree? hplaced,
      subtreeIds_of_subtree? hsub]
  case isDirty_iff =>
    intro k hk
    rw [isDirty_of_rewritten (hrecord k) (fun _ => rfl) hk, List.mem_append]

/-- **The effect of a move.** A living node of a reachable tree can be moved to the top, or below any
living node that does not lie in its own subtree. It leaves the list of its old parent and comes last in
that of its new one; no other link and no data of any node change, so what lies below it stays as it
was. Marked are the nodes left behind below the old parent and everything in the new place, and no
other mark changes. The table of linked records makes the same step. -/
theorem exists_moves (hreach : t.Reachable) (hlive : t.contains id = true)
    {parent : Option NodeId} (hparent : ∀ p, parent = some p → t.contains p = true ∧
      ∀ own, t.preorder id = .ok own → p ∉ own) :
    ∃ t', t.setParent id parent = .ok t' ∧ t.Moves id parent t' ∧
      ∀ l : LinkedTree, l.Represents t →
        ∃ l', Ends (LinkedTree.setParent id parent) l (.ok ()) l' ∧ l'.Represents t' := by
  have hwf := wellFormed_of_reachable hreach
  obtain ⟨sub, hsub⟩ := exists_subtree? (contains_iff.mp hlive)
  have hok : t.setParent id parent = .ok ((t.detached id).attached sub parent) := by
    rw [setParent, hsub]
    cases parent with
    | none => rfl
    | some p =>
      obtain ⟨hplive, hout⟩ := hparent p rfl
      have hunder : t.isUnder id p = false := by
        rw [Bool.eq_false_iff]
        intro hunder
        obtain ⟨own, hown, hmem⟩ := (isUnder_iff_mem_preorder hwf.nodup_ids).mp hunder
        exact hout own hown hmem
      simp [hplive, hunder]
  refine ⟨_, hok, (movesTo_of_setParent_eq_ok hok).moves hwf.nodup_ids, fun l hl => ?_⟩
  have hagrees := hl.agrees_setParent hwf id parent
  rw [hok] at hagrees
  exact hagrees

/-- The first cell is put below the row once more and so becomes the last one. -/
theorem exists_moves_twoCells :
    ∃ t', twoCells.setParent ⟨2, 1⟩ (some ⟨1, 1⟩) = .ok t' ∧
      twoCells.Moves ⟨2, 1⟩ (some ⟨1, 1⟩) t' ∧ twoCells.childIds ⟨1, 1⟩ = [⟨2, 1⟩, ⟨3, 1⟩] ∧
      t'.childIds ⟨1, 1⟩ = [⟨3, 1⟩, ⟨2, 1⟩] := by
  have hreach : twoCells.Reachable := ⟨_, rfl⟩
  have hlive : twoCells.contains ⟨2, 1⟩ = true := by decide
  have hrow : twoCells.childIds ⟨1, 1⟩ = [⟨2, 1⟩, ⟨3, 1⟩] := by decide
  have hparent : ∀ p, (some ⟨1, 1⟩ : Option NodeId) = some p → twoCells.contains p = true ∧
      ∀ own, twoCells.preorder ⟨2, 1⟩ = .ok own → p ∉ own := by
    rintro p hp
    obtain rfl := Option.some.inj hp
    refine ⟨by decide, fun own hown => ?_⟩
    have hpre : twoCells.preorder ⟨2, 1⟩ = .ok [⟨2, 1⟩, ⟨4, 1⟩] := by decide
    obtain rfl := Except.ok.inj (hown.symm.trans hpre)
    decide
  obtain ⟨t', hok, hmoves, -⟩ := exists_moves hreach hlive hparent
  refine ⟨t', hok, hmoves, hrow, ?_⟩
  rw [hmoves.childIds_new _ rfl, hrow]
  decide

end NodeTree

end StyledScene
