import StyledScene.Proofs.Tree.Refusals

/-!
# Subtrees

A node and everything below it, before and after a change. Pruning takes one subtree out of the
pre-order and leaves the rest of it in order (`ids_prune`), and marking changes no subtree at all.

What a place tells about its node is one record: the data, the parent and the children. The changes of
a tree rewrite these records, so their effect is read off at once for all nodes. A node that goes
disappears from one list of children, and what it leaves behind below its parent gets marked
(`recorded_detached`).
-/

namespace StyledScene

/-! ## §1 Subtrees of a changed forest -/

namespace Forest

theorem subtree?_map {g : Node → Node} (hid : ∀ n, (g n).id = n.id) (f : Forest) (id : NodeId) :
    (f.map g).subtree? id = (f.subtree? id).map fun s => (g s.1, s.2.map g) := by
  induction f with
  | nil => rfl
  | tree n children rest ihc ihr =>
    rw [map, subtree?, subtree?, hid, ihc, ihr]
    split
    · rfl
    · cases children.subtree? id <;> simp

/-- Inside a subtree the search finds what it finds in the whole forest. -/
theorem subtree?_of_mem_single {f : Forest} (hnd : f.ids.Nodup) {id k : NodeId} {s : Node × Forest}
    (h : f.subtree? id = some s) (hk : k ∈ (single s).ids) :
    (single s).subtree? k = f.subtree? k := by
  induction f with
  | nil => cases h
  | tree n children rest ihc ihr =>
    obtain ⟨⟨hnc, hnr⟩, hcnd, hrnd, hdisj⟩ := nodup_ids_tree.mp hnd
    rw [subtree?] at h
    split at h
    · -- the subtree is the first tree, and no node of it stands beside it
      obtain rfl := Option.some.inj h
      have hbeside : rest.subtree? k = none := by
        apply subtree?_eq_none
        rcases mem_ids_single.mp hk with rfl | hbelow
        · exact hnr
        · exact hdisj k hbelow
      simp only [single, subtree?, hbeside]
    · rcases Option.or_eq_some_iff.mp h with hbelow | ⟨-, hrest⟩
      · have hkc := ids_single_subset hbelow hk
        obtain ⟨s', hs'⟩ := Option.isSome_iff_exists.mp ((subtree?_isSome k children).mpr hkc)
        rw [ihc hcnd hbelow, subtree?, if_neg fun heq : n.id = k => hnc (heq ▸ hkc), hs']
        rfl
      · have hkr := ids_single_subset hrest hk
        rw [ihr hrnd hrest, subtree?, if_neg fun heq : n.id = k => hnr (heq ▸ hkr),
          subtree?_eq_none fun hkc => hdisj k hkc hkr]
        rfl

/-- Pruning takes the ids of the subtree out and keeps the order of the others. -/
theorem ids_prune {f : Forest} (hnd : f.ids.Nodup) {x : NodeId} {s : Node × Forest}
    (h : f.subtree? x = some s) :
    (f.prune x).ids = f.ids.filter fun k => k ∉ (single s).ids := by
  induction f with
  | nil => cases h
  | tree n children rest ihc ihr =>
    obtain ⟨⟨hnc, hnr⟩, hcnd, hrnd, hdisj⟩ := nodup_ids_tree.mp hnd
    have hkeep (g : Forest) (hg : ∀ k ∈ g.ids, k ∉ (single s).ids) :
        g.ids.filter (fun k => k ∉ (single s).ids) = g.ids :=
      List.filter_eq_self.mpr fun k hk => decide_eq_true (hg k hk)
    rw [subtree?] at h
    rw [prune]
    split at h
    · rename_i hx
      obtain rfl := Option.some.inj h
      have hgone : children.ids.filter (fun k => k ∉ (single (n, children)).ids) = [] :=
        List.filter_eq_nil_iff.mpr fun k hk => by simp [mem_ids_single, hk]
      rw [if_pos hx, ids_tree, List.filter_cons_of_neg (by simp [mem_ids_single]),
        List.filter_append, hgone, List.nil_append, hkeep]
      intro k hk
      rw [mem_ids_single, not_or]
      exact ⟨fun heq => hnr (heq ▸ hk), fun hkc => hdisj k hkc hk⟩
    · rename_i hx
      rw [if_neg hx, ids_tree, ids_tree]
      -- the subtree lies below the root or beside it, and the other part stays as it is
      rcases Option.or_eq_some_iff.mp h with hbelow | ⟨hnot, hrest⟩
      · have hin := ids_single_subset hbelow
        have hxc : x ∈ children.ids := (subtree?_isSome x children).mp (by rw [hbelow]; rfl)
        rw [prune_of_not_mem (hdisj x hxc), ihc hcnd hbelow,
          List.filter_cons_of_pos (by simpa using fun hk => hnc (hin hk)), List.filter_append,
          hkeep rest fun k hk hk' => hdisj k (hin hk') hk]
      · have hin := ids_single_subset hrest
        have hxc : x ∉ children.ids := not_mem_ids_of_subtree? hnot
        rw [prune_of_not_mem hxc, ihr hrnd hrest,
          List.filter_cons_of_pos (by simpa using fun hk => hnr (hin hk)), List.filter_append,
          hkeep children fun k hk hk' => hdisj k hk (hin hk')]

/-- A subtree that stays is pruned itself. -/
theorem subtree?_prune {f : Forest} (hnd : f.ids.Nodup) {x id : NodeId}
    (h : id ∈ (f.prune x).ids) :
    (f.prune x).subtree? id = (f.subtree? id).map fun s => (s.1, s.2.prune x) := by
  induction f with
  | nil => rfl
  | tree n children rest ihc ihr =>
    obtain ⟨⟨hnc, hnr⟩, hcnd, hrnd, hdisj⟩ := nodup_ids_tree.mp hnd
    rw [prune] at h ⊢
    split at h
    · -- a subtree beside the tree that goes has nothing to lose
      rename_i hx
      obtain ⟨s, hs⟩ := Option.isSome_iff_exists.mp ((subtree?_isSome id rest).mpr h)
      have hxs : x ∉ s.2.ids := fun hmem =>
        hnr (hx ▸ ids_single_subset hs (mem_ids_single.mpr (.inr hmem)))
      rw [if_pos hx, subtree?, if_neg fun heq : n.id = id => hnr (heq ▸ h),
        subtree?_eq_none fun hc => hdisj id hc h, Option.none_or, hs, Option.map_some,
        prune_of_not_mem hxs]
    · rename_i hx
      rw [if_neg hx, subtree?, subtree?]
      split
      · rfl
      · rename_i hn
        rw [ids_tree, List.mem_cons, List.mem_append] at h
        rcases h.resolve_left (Ne.symm hn) with hc | hr
        · obtain ⟨s, hs⟩ := Option.isSome_iff_exists.mp
            ((subtree?_isSome id children).mpr (mem_ids_of_mem_prune hc))
          rw [ihc hcnd hc, hs]
          rfl
        · have hnotc : id ∉ children.ids := fun hc => hdisj id hc (mem_ids_of_mem_prune hr)
          rw [subtree?_eq_none hnotc, subtree?_eq_none fun hc => hnotc (mem_ids_of_mem_prune hc),
            ihr hrnd hr]
          rfl

end Forest

namespace NodeTree

variable {t t' : NodeTree} {id k : NodeId} {sub : Node × Forest}

/-! ## §2 Records of a tree -/

/-- What its place tells about a living node: the data, the parent and the children. -/
def recordOf? (t : NodeTree) (id : NodeId) : Option Record := t.forest.recordOf? none id

theorem recordOf?_eq_none (hdead : id ∉ t.forest.ids) : t.recordOf? id = none := by
  simp [recordOf?, Forest.recordOf?, Forest.path?_eq_none hdead]

theorem recordOf?_of_path? {n : Node} {above : List Node} (hp : t.path? id = some (n :: above)) :
    t.recordOf? id = some ⟨n, t.parentId? id, t.childIds id⟩ := by
  rw [recordOf?, Forest.recordOf?_of_path? hp]
  cases above with
  | nil => rw [parentId?_of_root hp]; rfl
  | cons m above => rw [parentId?_of_path? hp]; rfl

/-- Records that hold the forest are those of its places. -/
theorem recordOf?_of_recorded {record? : NodeId → Option Record}
    (h : t.forest.Recorded record? none) (hid : id ∈ t.forest.ids) : t.recordOf? id = record? id := by
  obtain ⟨p, hp⟩ := Forest.exists_path? hid
  obtain ⟨n, above, rfl, -⟩ := Forest.path?_head hp
  rw [recordOf?, Forest.recordOf?_of_path? hp, h.of_path? hp]

theorem recorded_recordOf? (hnd : t.forest.ids.Nodup) : t.forest.Recorded t.recordOf? none :=
  Forest.recorded_recordOf? hnd none

/-- The look-ups of a node read its record. -/
theorem fields_eq (t : NodeTree) (id : NodeId) :
    t.get? id = (t.recordOf? id).map Record.data ∧
      t.parentId? id = (t.recordOf? id).bind Record.parent ∧
      t.childIds id = ((t.recordOf? id).map Record.children).getD [] := by
  by_cases hid : id ∈ t.forest.ids
  · obtain ⟨n, above, hp, -⟩ := path?_of_contains (contains_iff.mpr hid)
    obtain ⟨below, hsub⟩ := subtree?_of_path? hp
    rw [recordOf?_of_path? hp, get?, hsub]
    exact ⟨rfl, rfl, rfl⟩
  · have hsub : t.subtree? id = none := Forest.subtree?_eq_none hid
    have hpath : t.path? id = none := Forest.path?_eq_none hid
    rw [recordOf?_eq_none hid, get?, parentId?, childIds, hsub, hpath]
    exact ⟨rfl, rfl, rfl⟩

theorem get?_eq_recordOf? (t : NodeTree) (id : NodeId) :
    t.get? id = (t.recordOf? id).map Record.data :=
  (t.fields_eq id).1

theorem parentId?_eq_recordOf? (t : NodeTree) (id : NodeId) :
    t.parentId? id = (t.recordOf? id).bind Record.parent :=
  (t.fields_eq id).2.1

theorem childIds_eq_recordOf? (t : NodeTree) (id : NodeId) :
    t.childIds id = ((t.recordOf? id).map Record.children).getD [] :=
  (t.fields_eq id).2.2

theorem isDirty_eq_ok_iff {b : Bool} :
    t.isDirty id = .ok b ↔ (t.recordOf? id).map (fun r => r.data.dirty) = some b := by
  have hget := t.get?_eq_recordOf? id
  have hdirty : (t.recordOf? id).map (fun r => r.data.dirty) = (t.get? id).map Node.dirty := by
    rw [hget, Option.map_map]
    rfl
  rw [hdirty, isDirty, ask, get?]
  cases t.subtree? id <;> simp

/-! ## §3 Subtrees of a tree -/

/-- A node and everything below it, parents before children; none if the node is dead. -/
def subtreeIds (t : NodeTree) (id : NodeId) : List NodeId := (t.preorder id).toOption.getD []

theorem subtreeIds_of_subtree? (hsub : t.subtree? id = some sub) :
    t.subtreeIds id = (Forest.single sub).ids := by
  rw [subtreeIds, preorder, ask, hsub, Forest.single, Forest.ids_tree, subtree?_id hsub,
    Forest.ids_nil, List.append_nil]
  rfl

theorem preorder_eq_ok (hlive : t.contains id = true) : t.preorder id = .ok (t.subtreeIds id) := by
  obtain ⟨sub, hsub⟩ := Option.isSome_iff_exists.mp hlive
  rw [subtreeIds, preorder, ask, hsub]
  rfl

theorem subtreeIds_of_dead (hdead : id ∉ t.forest.ids) : t.subtreeIds id = [] := by
  have hsub : t.subtree? id = none := Forest.subtree?_eq_none hdead
  rw [subtreeIds, preorder, ask, hsub]
  rfl

theorem exists_subtree? (hid : id ∈ t.forest.ids) : ∃ sub, t.subtree? id = some sub :=
  Option.isSome_iff_exists.mp ((Forest.subtree?_isSome id t.forest).mpr hid)

/-- The subtrees of a tree do not depend on its marks. -/
theorem EqualUpToMarks.subtreeIds (h : t.EqualUpToMarks t') (id : NodeId) :
    t'.subtreeIds id = t.subtreeIds id := by
  have hsame : (t'.subtree? id).map (fun s => (s.1.clean, s.2.map Node.clean)) =
      (t.subtree? id).map fun s => (s.1.clean, s.2.map Node.clean) := by
    rw [subtree?_eq, subtree?_eq, ← Forest.subtree?_map Node.id_clean,
      ← Forest.subtree?_map Node.id_clean, h.1]
  have hids (u : NodeTree) : u.subtreeIds id =
      (((u.subtree? id).map fun s => (s.1.clean, s.2.map Node.clean)).map fun s =>
        id :: s.2.ids).getD [] := by
    rw [NodeTree.subtreeIds, preorder, ask]
    cases u.subtree? id with
    | none => rfl
    | some s => simp [Forest.ids_map Node.id_clean, Except.toOption]
  rw [hids, hids, hsame]

/-- The nodes of a subtree are those whose paths lead over its root. -/
theorem mem_subtreeIds_iff (hnd : t.forest.ids.Nodup) :
    k ∈ t.subtreeIds id ↔ ∃ p, t.path? k = some p ∧ id ∈ p.map Node.id := by
  by_cases hid : id ∈ t.forest.ids
  · obtain ⟨sub, hsub⟩ := exists_subtree? hid
    rw [subtreeIds_of_subtree? hsub]
    exact Forest.mem_ids_single_iff hnd hsub
  · simp only [subtreeIds_of_dead hid, List.not_mem_nil, false_iff]
    rintro ⟨p, hp, hmem⟩
    obtain ⟨a, ha, rfl⟩ := List.mem_map.mp hmem
    exact hid (Forest.mem_ids_of_mem_path hp ha)

/-- Marking a node marks the records of its subtree. -/
theorem recorded_marked {record? : NodeId → Option Record} (h : t.forest.Recorded record? none)
    (hnd : t.forest.ids.Nodup) (id : NodeId) :
    (t.marked id).forest.Recorded (Forest.markRecords (t.subtreeIds id) record?) none := by
  by_cases hid : id ∈ t.forest.ids
  · obtain ⟨sub, hsub⟩ := exists_subtree? hid
    rw [subtreeIds_of_subtree? hsub]
    exact h.markUnder hnd hsub
  · rw [marked, Forest.markUnder_of_not_mem hid, subtreeIds_of_dead hid]
    exact h.congr fun k _ => by simp [Forest.markRecords]

/-! ## §4 Nodes that are left behind -/

/-- The nodes that are left below the parent of a node when the node goes; none for a root. -/
def leftBehind (t : NodeTree) (id : NodeId) : List NodeId :=
  match t.parentId? id with
  | none => []
  | some parent => (t.subtreeIds parent).filter fun k => k ∉ t.subtreeIds id

/-- The tree without a subtree, before anything is marked. -/
def pruned (t : NodeTree) (id : NodeId) : NodeTree := { t with forest := t.forest.prune id }

theorem detached_eq (t : NodeTree) (id : NodeId) :
    t.detached id = (t.pruned id).markedAt (t.parentId? id) := rfl

theorem mem_ids_of_parentId? {parent : NodeId} (h : t.parentId? id = some parent) :
    id ∈ t.forest.ids := by
  obtain ⟨n, m, above, hp, -⟩ := parentId?_eq_some_iff.mp h
  exact Forest.mem_ids_of_path? hp

/-- The subtree of the former parent is what is left behind. -/
theorem subtreeIds_pruned (hnd : t.forest.ids.Nodup) {parent : NodeId}
    (hparent : t.parentId? id = some parent) :
    (t.pruned id).subtreeIds parent = t.leftBehind id := by
  obtain ⟨sub, hsub⟩ := exists_subtree? (mem_ids_of_parentId? hparent)
  have hstays := mem_ids_prune_of_parentId? hnd hparent
  obtain ⟨up, hup⟩ := exists_subtree? (Forest.mem_ids_of_mem_prune hstays)
  have hupid := subtree?_id hup
  have hne : parent ≠ id := fun heq => Forest.not_mem_ids_prune hnd id (heq ▸ hstays)
  -- the node lies below its parent, and is found there
  have hbelow : id ∈ (Forest.single up).ids := by
    rw [← subtreeIds_of_subtree? hup, mem_subtreeIds_iff hnd]
    obtain ⟨n, m, above, hp, rfl⟩ := parentId?_eq_some_iff.mp hparent
    exact ⟨_, hp, by simp⟩
  have hfound : (Forest.single up).subtree? id = some sub :=
    (Forest.subtree?_of_mem_single hnd hup hbelow).trans hsub
  have hpruned : (t.pruned id).subtree? parent = some (up.1, up.2.prune id) := by
    refine (Forest.subtree?_prune hnd hstays).trans ?_
    rw [← subtree?_eq, hup]
    rfl
  have hsingle : Forest.single (up.1, up.2.prune id) = (Forest.single up).prune id := by
    rw [Forest.single, Forest.single, Forest.prune, if_neg (hupid ▸ hne)]
    rfl
  rw [subtreeIds_of_subtree? hpruned, hsingle,
    Forest.ids_prune (Forest.nodup_ids_single hnd hup) hfound, leftBehind, hparent,
    ← subtreeIds_of_subtree? hup, ← subtreeIds_of_subtree? hsub]

theorem EqualUpToMarks.markedAt (t : NodeTree) (id : Option NodeId) :
    t.EqualUpToMarks (t.markedAt id) := by
  cases id with
  | none => exact .refl t
  | some id => exact .marked t id

/-- What is marked after a node has gone is still the same subtree. -/
theorem subtreeIds_detached (hnd : t.forest.ids.Nodup) {parent : NodeId}
    (hparent : t.parentId? id = some parent) :
    (t.detached id).subtreeIds parent = t.leftBehind id :=
  ((EqualUpToMarks.markedAt (t.pruned id) _).subtreeIds parent).trans (subtreeIds_pruned hnd hparent)

/-- When a node goes, its parent loses it from its list, and what is left behind is marked. -/
theorem recorded_detached (hnd : t.forest.ids.Nodup) (id : NodeId) :
    (t.detached id).forest.Recorded
      (Forest.markRecords (t.leftBehind id) fun k => (t.recordOf? k).map fun r => r.unlist id) none := by
  have hpruned : (t.pruned id).forest.Recorded
      (fun k => (t.recordOf? k).map fun r => r.unlist id) none :=
    (recorded_recordOf? hnd).prune hnd fun _ _ => rfl
  rw [detached_eq]
  cases hparent : t.parentId? id with
  | none =>
    rw [leftBehind, hparent]
    exact hpruned.congr fun k _ => by simp [Forest.markRecords]
  | some parent =>
    rw [← subtreeIds_pruned hnd hparent]
    exact recorded_marked hpruned (Forest.nodup_ids_prune hnd id) parent

end NodeTree

end StyledScene
