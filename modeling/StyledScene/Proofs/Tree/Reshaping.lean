import StyledScene.Proofs.Tree.Paths

/-!
# Forests after a change

What each change of a forest does to its three views: the list of ids, the paths and the children.

- Changing or marking nodes moves none of them (`path?_map`, `path?_markUnder`).
- Pruning keeps exactly the paths that avoid the pruned node (`path?_prune_iff`).
- Grafting and inserting add the paths of the new tree, extended by the path of the new parent
  (`path?_graft`, `path?_insertRoot`).
-/

namespace StyledScene

@[simp] theorem Node.id_mark (n : Node) : n.mark.id = n.id := rfl

@[simp] theorem Node.id_clean (n : Node) : n.clean.id = n.id := rfl

namespace Forest

/-! ## §1 Changing nodes -/

section Map

variable {g : Node → Node}

theorem rootIds_map (hid : ∀ n, (g n).id = n.id) (f : Forest) : (f.map g).rootIds = f.rootIds := by
  induction f with
  | nil => rfl
  | tree n children rest _ ihr => rw [map, rootIds_tree, rootIds_tree, hid, ihr]

theorem path?_map (hid : ∀ n, (g n).id = n.id) (f : Forest) (id : NodeId) :
    (f.map g).path? id = (f.path? id).map (List.map g) := by
  induction f with
  | nil => rfl
  | tree n children rest ihc ihr =>
    rw [map, path?_tree, path?_tree, hid, ihc, ihr]
    split
    · rfl
    · cases children.path? id <;> simp

theorem childIds_map (hid : ∀ n, (g n).id = n.id) (f : Forest) (id : NodeId) :
    (f.map g).childIds id = f.childIds id := by
  induction f with
  | nil => rfl
  | tree n children rest ihc ihr =>
    rw [map, childIds_tree, childIds_tree, hid, ids_map hid, rootIds_map hid, ihc, ihr]

end Map

/-! ## §2 Marking -/

/-- The path with the node `id` and every node below it marked. -/
def markPath (id : NodeId) : List Node → List Node
  | [] => []
  | n :: above => (if id ∈ (n :: above).map Node.id then n.mark else n) :: markPath id above

theorem markPath_of_not_mem {id : NodeId} {p : List Node} (h : id ∉ p.map Node.id) :
    markPath id p = p := by
  induction p with
  | nil => rfl
  | cons n above ih =>
    rw [markPath, if_neg h, ih fun hmem => h (List.mem_cons_of_mem _ hmem)]

theorem markPath_append_singleton {id : NodeId} {n : Node} (p : List Node) (hne : n.id ≠ id) :
    markPath id (p ++ [n]) = markPath id p ++ [n] := by
  induction p with
  | nil => simp [markPath, hne.symm]
  | cons k above ih =>
    -- an end that is another node decides nothing
    have hiff : id ∈ (k :: (above ++ [n])).map Node.id ↔ id ∈ (k :: above).map Node.id := by
      rw [← List.cons_append, List.map_append, List.mem_append]
      exact or_iff_left fun h => hne (List.mem_singleton.mp h).symm
    rw [List.cons_append, markPath, ih, markPath, ite_cond_congr (propext hiff)]
    rfl

theorem markPath_append_self {n : Node} (p : List Node) :
    markPath n.id (p ++ [n]) = (p ++ [n]).map Node.mark := by
  induction p with
  | nil => simp [markPath]
  | cons k above ih =>
    rw [List.cons_append, markPath, ih, if_pos (by simp)]
    rfl

@[simp] theorem rootIds_markUnder (id : NodeId) (f : Forest) :
    (f.markUnder id).rootIds = f.rootIds := by
  induction f with
  | nil => rfl
  | tree n children rest _ ihr =>
    rw [markUnder]
    split
    · rfl
    · rw [rootIds_tree, rootIds_tree, ihr]

theorem path?_markUnder {f : Forest} (hnd : f.ids.Nodup) (x id : NodeId) :
    (f.markUnder x).path? id = (f.path? id).map (markPath x) := by
  induction f with
  | nil => rfl
  | tree n children rest ihc ihr =>
    obtain ⟨⟨-, hnr⟩, hcnd, hrnd, -⟩ := nodup_ids_tree.mp hnd
    rw [markUnder]
    split
    · rename_i hx
      -- everything in this tree is marked, and nothing beside it can hold the node
      have hrest : (rest.path? id).map (markPath x) = rest.path? id := by
        cases hp : rest.path? id with
        | none => rfl
        | some p =>
          refine congrArg some (markPath_of_not_mem fun hmem => ?_)
          obtain ⟨a, ha, hax⟩ := List.mem_map.mp hmem
          exact hnr (hx ▸ hax ▸ mem_ids_of_mem_path hp ha)
      rw [path?_tree, path?_tree, path?_map Node.id_mark]
      subst hx
      by_cases hn : n.id = id
      · rw [if_pos hn, if_pos (show n.mark.id = id from hn)]
        simp [markPath]
      · rw [if_neg hn, if_neg (show ¬ n.mark.id = id from hn)]
        cases children.path? id with
        | none => exact hrest.symm
        | some p => simp [markPath_append_self]
    · -- this root keeps its mark, whatever is marked below or beside it
      rename_i hx
      rw [path?_tree, path?_tree, ihc hcnd, ihr hrnd]
      split
      · simp [markPath, Ne.symm hx]
      · cases children.path? id with
        | none => rfl
        | some p => simp [markPath_append_singleton p hx]

@[simp] theorem childIds_markUnder (x id : NodeId) (f : Forest) :
    (f.markUnder x).childIds id = f.childIds id := by
  induction f with
  | nil => rfl
  | tree n children rest ihc ihr =>
    rw [markUnder]
    split
    · rw [childIds_tree, childIds_tree, ids_map Node.id_mark, rootIds_map Node.id_mark,
        childIds_map Node.id_mark, Node.id_mark]
    · rw [childIds_tree, childIds_tree, ids_markUnder, rootIds_markUnder, ihc, ihr]

/-- Marking is invisible to any view of the nodes that does not look at the mark. -/
theorem map_markUnder {g : Node → Node} (hg : ∀ n, g n.mark = g n) (id : NodeId) (f : Forest) :
    (f.markUnder id).map g = f.map g := by
  have hmap : ∀ f : Forest, (f.map Node.mark).map g = f.map g := by
    intro f
    induction f with
    | nil => rfl
    | tree n children rest ihc ihr => rw [map, map, map, hg, ihc, ihr]
  induction f with
  | nil => rfl
  | tree n children rest ihc ihr =>
    rw [markUnder]
    split
    · rw [map, map, hg, hmap]
    · rw [map, map, ihc, ihr]

/-! ## §3 Pruning -/

theorem mem_ids_of_mem_prune {x id : NodeId} {f : Forest} (h : id ∈ (f.prune x).ids) :
    id ∈ f.ids :=
  ((nodes_prune x f).map Node.id).subset h

theorem nodup_ids_prune {f : Forest} (hnd : f.ids.Nodup) (x : NodeId) : (f.prune x).ids.Nodup :=
  ((nodes_prune x f).map Node.id).nodup hnd

theorem prune_of_not_mem {x : NodeId} {f : Forest} (h : x ∉ f.ids) : f.prune x = f := by
  induction f with
  | nil => rfl
  | tree n children rest ihc ihr =>
    rw [ids_tree, List.mem_cons, List.mem_append, not_or, not_or] at h
    rw [prune, if_neg (Ne.symm h.1), ihc h.2.1, ihr h.2.2]

/-- Pruning keeps exactly the paths that avoid the pruned node. -/
theorem path?_prune_iff {f : Forest} (hnd : f.ids.Nodup) {x id : NodeId} {p : List Node} :
    (f.prune x).path? id = some p ↔ f.path? id = some p ∧ x ∉ p.map Node.id := by
  induction f generalizing p with
  | nil => simp [prune]
  | tree n children rest ihc ihr =>
    obtain ⟨⟨hnc, hnr⟩, hcnd, hrnd, hdisj⟩ := nodup_ids_tree.mp hnd
    rw [prune]
    split
    · -- the first tree goes as a whole, and only what stands beside it stays
      rename_i hx
      subst hx
      constructor
      · intro hp
        have hid := mem_ids_of_path? hp
        rw [path?_beside (fun e => hnr (e ▸ hid)) (fun hc => hdisj _ hc hid)]
        refine ⟨hp, fun hmem => ?_⟩
        obtain ⟨a, ha, hax⟩ := List.mem_map.mp hmem
        exact hnr (hax ▸ mem_ids_of_mem_path hp ha)
      · rintro ⟨hp, hx⟩
        rcases path?_tree_cases hp with ⟨-, rfl⟩ | ⟨-, q, -, rfl⟩ | ⟨-, -, hr⟩
        · simp at hx
        · simp at hx
        · exact hr
    · -- the root stays, so a path of the pruned tree is pruned below it or beside it
      rename_i hx
      constructor
      · intro hp
        rcases path?_tree_cases hp with ⟨hn, rfl⟩ | ⟨-, q, hq, rfl⟩ | ⟨hn, -, hr⟩
        · exact ⟨by rw [path?_tree, if_pos hn], by simpa using Ne.symm hx⟩
        · obtain ⟨hq', hxq⟩ := (ihc hcnd).mp hq
          rw [path?_below hnc (mem_ids_of_path? hq'), hq']
          refine ⟨rfl, ?_⟩
          rw [List.map_append, List.mem_append, not_or]
          exact ⟨hxq, by simpa using Ne.symm hx⟩
        · obtain ⟨hr', hxr⟩ := (ihr hrnd).mp hr
          have hid := mem_ids_of_path? hr'
          rw [path?_beside hn (fun hc => hdisj _ hc hid)]
          exact ⟨hr', hxr⟩
      · rintro ⟨hp, hxp⟩
        rcases path?_tree_cases hp with ⟨hn, rfl⟩ | ⟨-, q, hq, rfl⟩ | ⟨hn, hid, hr⟩
        · rw [path?_tree, if_pos hn]
        · rw [List.map_append, List.mem_append, not_or] at hxp
          have hq' := (ihc hcnd).mpr ⟨hq, hxp.1⟩
          rw [path?_below (fun h => hnc (mem_ids_of_mem_prune h)) (mem_ids_of_path? hq'), hq']
          rfl
        · rw [path?_beside hn (fun h => hid (mem_ids_of_mem_prune h))]
          exact (ihr hrnd).mpr ⟨hr, hxp⟩

theorem rootIds_prune {f : Forest} (hnd : f.ids.Nodup) (x : NodeId) :
    (f.prune x).rootIds = f.rootIds.filter (· != x) := by
  induction f with
  | nil => rfl
  | tree n children rest _ ihr =>
    obtain ⟨⟨-, hnr⟩, -, hrnd, -⟩ := nodup_ids_tree.mp hnd
    rw [prune]
    split
    · -- no other root has the id of the one that goes
      rename_i hx
      subst hx
      rw [rootIds_tree, List.filter_cons_of_neg (by simp)]
      refine (List.filter_eq_self.mpr fun id hid => bne_iff_ne.mpr ?_).symm
      rintro rfl
      exact hnr (mem_ids_of_mem_rootIds hid)
    · rename_i hx
      rw [rootIds_tree, rootIds_tree, List.filter_cons_of_pos (by simpa using hx), ihr hrnd]

theorem mem_ids_of_mem_childIds {id parent : NodeId} {f : Forest} (hnd : f.ids.Nodup)
    (h : id ∈ f.childIds parent) : id ∈ f.ids := by
  obtain ⟨n, m, above, hp, -⟩ := (mem_childIds_iff hnd).mp h
  exact mem_ids_of_path? hp

/-- A node that stays loses at most the pruned node from its children. -/
theorem childIds_prune {f : Forest} (hnd : f.ids.Nodup) {x id : NodeId}
    (h : id ∈ (f.prune x).ids) : (f.prune x).childIds id = (f.childIds id).filter (· != x) := by
  induction f with
  | nil => rfl
  | tree n children rest ihc ihr =>
    obtain ⟨⟨hnc, hnr⟩, hcnd, hrnd, hdisj⟩ := nodup_ids_tree.mp hnd
    rw [prune] at h ⊢
    split at h
    · -- the node stands beside the tree that goes, and so do its children
      rename_i hx
      subst hx
      rw [if_pos rfl, childIds_tree, if_neg (fun e : n.id = id => hnr (e ▸ h)),
        if_neg (fun hc => hdisj _ hc h)]
      refine (List.filter_eq_self.mpr fun k hk => bne_iff_ne.mpr ?_).symm
      rintro rfl
      exact hnr (mem_ids_of_mem_childIds hrnd hk)
    · rename_i hx
      rw [if_neg hx, childIds_tree, childIds_tree]
      rw [ids_tree, List.mem_cons, List.mem_append] at h
      by_cases hn : n.id = id
      · rw [if_pos hn, if_pos hn, rootIds_prune hcnd]
      · rw [if_neg hn, if_neg hn]
        rcases h with rfl | hc | hr
        · exact absurd rfl hn
        · rw [if_pos hc, if_pos (mem_ids_of_mem_prune hc), ihc hcnd hc]
        · have hnotc : id ∉ children.ids := fun hc => hdisj _ hc (mem_ids_of_mem_prune hr)
          rw [if_neg (fun hc => hnotc (mem_ids_of_mem_prune hc)), if_neg hnotc, ihr hrnd hr]

/-! ## §4 Single trees -/

/-- The forest of one tree. -/
def single (t : Node × Forest) : Forest := tree t.1 t.2 nil

theorem mem_ids_single {t : Node × Forest} {id : NodeId} :
    id ∈ (single t).ids ↔ id = t.1.id ∨ id ∈ t.2.ids := by
  rw [single, ids_tree, ids_nil, List.append_nil, List.mem_cons]

/-- Every path of a single tree ends at its root. -/
theorem root_mem_path_single {t : Node × Forest} {id : NodeId} {p : List Node}
    (h : (single t).path? id = some p) : t.1 ∈ p := by
  rcases path?_tree_cases h with ⟨-, rfl⟩ | ⟨-, q, -, rfl⟩ | ⟨-, -, hr⟩
  · simp
  · simp
  · cases hr

/-- Taking a tree out splits the nodes into those of the tree and those that stay. -/
theorem nodes_perm_of_subtree? {f : Forest} (hnd : f.ids.Nodup) {x : NodeId} {t : Node × Forest}
    (h : f.subtree? x = some t) :
    t.1.id = x ∧ f.nodes.Perm ((single t).nodes ++ (f.prune x).nodes) := by
  induction f with
  | nil => cases h
  | tree n children rest ihc ihr =>
    obtain ⟨⟨hnc, hnr⟩, hcnd, hrnd, hdisj⟩ := nodup_ids_tree.mp hnd
    rw [subtree?] at h
    rw [prune]
    split at h
    · rename_i hx
      obtain rfl := Option.some.inj h
      rw [if_pos hx]
      exact ⟨hx, by simp [single, nodes]⟩
    · rename_i hx
      rw [if_neg hx]
      -- only one of the two parts is pruned: the one that holds the tree
      cases hc : children.subtree? x with
      | some t' =>
        rw [hc] at h
        obtain rfl := Option.some.inj h
        have hxc : x ∈ children.ids := (subtree?_isSome x children).mp (by rw [hc]; rfl)
        obtain ⟨hid, hperm⟩ := ihc hcnd hc
        refine ⟨hid, ?_⟩
        rw [prune_of_not_mem fun hr => hdisj _ hxc hr, nodes, nodes]
        refine .trans (.cons n ?_) List.perm_middle.symm
        rw [← List.append_assoc]
        exact hperm.append_right rest.nodes
      | none =>
        rw [hc] at h
        rw [Option.none_or] at h
        have hxr : x ∈ rest.ids := (subtree?_isSome x rest).mp (by rw [h]; rfl)
        obtain ⟨hid, hperm⟩ := ihr hrnd h
        refine ⟨hid, ?_⟩
        rw [prune_of_not_mem fun hc => hdisj _ hc hxr, nodes, nodes]
        refine .trans (.cons n ?_) List.perm_middle.symm
        exact (hperm.append_left children.nodes).trans (List.perm_append_comm_assoc ..)

theorem nodup_ids_single {f : Forest} (hnd : f.ids.Nodup) {id : NodeId} {sub : Node × Forest}
    (h : f.subtree? id = some sub) : (single sub).ids.Nodup := by
  have hperm := (nodes_perm_of_subtree? hnd h).2.map Node.id
  rw [List.map_append] at hperm
  exact (List.nodup_append.mp (hperm.nodup_iff.mp hnd)).1

theorem nodup_childIds {f : Forest} (hnd : f.ids.Nodup) (id : NodeId) :
    (f.childIds id).Nodup := by
  unfold childIds
  cases h : f.subtree? id with
  | none => exact List.nodup_nil
  | some sub =>
    have hsub := nodup_ids_single hnd h
    rw [single, ids_tree, ids_nil, List.append_nil] at hsub
    exact (rootIds_sublist sub.2).nodup (List.nodup_cons.mp hsub).2

/-- The nodes of a subtree are those whose paths lead over its root. -/
theorem mem_ids_single_iff {f : Forest} (hnd : f.ids.Nodup) {id k : NodeId} {sub : Node × Forest}
    (h : f.subtree? id = some sub) :
    k ∈ (single sub).ids ↔ ∃ p, f.path? k = some p ∧ id ∈ p.map Node.id := by
  have hperm := (nodes_perm_of_subtree? hnd h).2.map Node.id
  rw [List.map_append] at hperm
  have hdisj := (List.nodup_append.mp (hperm.nodup_iff.mp hnd)).2.2
  constructor
  · intro hk
    obtain ⟨p, hp⟩ := exists_path? (hperm.mem_iff.mpr (List.mem_append_left _ hk))
    -- a path that avoided the root would survive without the subtree
    refine ⟨p, hp, Decidable.byContradiction fun hid => ?_⟩
    exact hdisj k hk k (mem_ids_of_path? ((path?_prune_iff hnd).mpr ⟨hp, hid⟩)) rfl
  · rintro ⟨p, hp, hid⟩
    rcases List.mem_append.mp (hperm.mem_iff.mp (mem_ids_of_path? hp)) with hk | hk
    · exact hk
    · obtain ⟨q, hq⟩ := exists_path? hk
      obtain ⟨hq', hnot⟩ := (path?_prune_iff hnd).mp hq
      rw [hp] at hq'
      exact absurd (Option.some.inj hq' ▸ hid) hnot

/-! ## §5 Grafting -/

@[simp] theorem rootIds_push (t : Node × Forest) (f : Forest) :
    (f.push t).rootIds = f.rootIds ++ [t.1.id] := by
  induction f with
  | nil => rfl
  | tree n children rest _ ihr => rw [push, rootIds_tree, rootIds_tree, ihr, List.cons_append]

theorem path?_push (t : Node × Forest) (f : Forest) (id : NodeId) :
    (f.push t).path? id = (f.path? id).or ((single t).path? id) := by
  induction f with
  | nil => rfl
  | tree n children rest _ ihr =>
    rw [push, path?_tree, path?_tree, ihr]
    split
    · rfl
    · rw [Option.or_assoc]

theorem childIds_push {t : Node × Forest} {f : Forest} {id : NodeId} (h : id ∈ f.ids) :
    (f.push t).childIds id = f.childIds id := by
  induction f with
  | nil => cases h
  | tree n children rest _ ihr =>
    rw [push, childIds_tree, childIds_tree]
    rw [ids_tree, List.mem_cons, List.mem_append] at h
    split
    · rfl
    · rename_i hn
      split
      · rfl
      · rename_i hc
        exact ihr ((h.resolve_left (Ne.symm hn)).resolve_left hc)

theorem graft_of_not_mem {parent : NodeId} {t : Node × Forest} {f : Forest} (h : parent ∉ f.ids) :
    f.graft parent t = f := by
  induction f with
  | nil => rfl
  | tree n children rest ihc ihr =>
    rw [ids_tree, List.mem_cons, List.mem_append, not_or, not_or] at h
    rw [graft, if_neg (Ne.symm h.1), ihc h.2.1, ihr h.2.2]

@[simp] theorem rootIds_graft (parent : NodeId) (t : Node × Forest) (f : Forest) :
    (f.graft parent t).rootIds = f.rootIds := by
  induction f with
  | nil => rfl
  | tree n children rest _ ihr =>
    rw [graft]
    split
    · rfl
    · rw [rootIds_tree, rootIds_tree, ihr]

/-- A graft adds the nodes of its tree and nothing else. -/
theorem nodes_graft {parent : NodeId} {t : Node × Forest} {f : Forest} (hnd : f.ids.Nodup)
    (h : parent ∈ f.ids) :
    (f.graft parent t).nodes.Perm ((single t).nodes ++ f.nodes) := by
  induction f with
  | nil => cases h
  | tree n children rest ihc ihr =>
    obtain ⟨⟨hnc, hnr⟩, hcnd, hrnd, hdisj⟩ := nodup_ids_tree.mp hnd
    rw [graft]
    rw [ids_tree, List.mem_cons, List.mem_append] at h
    split
    · -- the new tree comes after the children of its parent
      rw [nodes, nodes_push, nodes]
      refine .trans (.cons n ?_) List.perm_middle.symm
      rw [List.append_assoc, show (single t).nodes = t.1 :: t.2.nodes by simp [single, nodes]]
      exact List.perm_append_comm_assoc ..
    · rename_i hn
      rw [nodes, nodes]
      refine .trans (.cons n ?_) List.perm_middle.symm
      rcases h.resolve_left (Ne.symm hn) with hc | hr
      · rw [graft_of_not_mem fun hr => hdisj _ hc hr, ← List.append_assoc]
        exact (ihc hcnd hc).append_right rest.nodes
      · rw [graft_of_not_mem fun hc => hdisj _ hc hr]
        exact ((ihr hrnd hr).append_left children.nodes).trans (List.perm_append_comm_assoc ..)

/-- A path after a graft: inside the new tree it goes on at the parent, elsewhere it is as before. -/
theorem path?_graft {parent : NodeId} {t : Node × Forest} {f : Forest} (hnd : f.ids.Nodup)
    (hparent : parent ∈ f.ids) (hnew : ∀ id ∈ (single t).ids, id ∉ f.ids) (id : NodeId) :
    (f.graft parent t).path? id =
      (f.path? id).or (((single t).path? id).bind fun p => (f.path? parent).map (p ++ ·)) := by
  induction f with
  | nil => cases hparent
  | tree n children rest ihc ihr =>
    obtain ⟨⟨hnc, hnr⟩, hcnd, hrnd, hdisj⟩ := nodup_ids_tree.mp hnd
    have hnewc : ∀ id ∈ (single t).ids, id ∉ children.ids := fun k hk hc =>
      hnew k hk (by simp [hc])
    have hnewr : ∀ id ∈ (single t).ids, id ∉ rest.ids := fun k hk hr =>
      hnew k hk (by simp [hr])
    rw [graft]
    rw [ids_tree, List.mem_cons, List.mem_append] at hparent
    split
    · -- the first root is the parent, so the path of the parent is that root alone
      rename_i hn
      rw [path?_tree, path?_push, path?_tree, path?_tree, if_pos hn]
      split
      · rfl
      · cases hs : (single t).path? id with
        | none => cases children.path? id <;> simp
        | some p =>
          have hid := mem_ids_of_path? hs
          rw [path?_eq_none (hnewc _ hid), path?_eq_none (hnewr _ hid)]
          simp
    · -- the parent lies below or beside, and the other part is not touched
      rename_i hn
      rcases hparent.resolve_left (Ne.symm hn) with hc | hr
      · rw [graft_of_not_mem fun hr => hdisj _ hc hr, path?_tree, path?_tree, path?_below hnc hc,
          ihc hcnd hc hnewc]
        split
        · rfl
        · cases hs : (single t).path? id with
          | none => cases children.path? id <;> simp
          | some p =>
            have hid := mem_ids_of_path? hs
            rw [path?_eq_none (hnewc _ hid), path?_eq_none (hnewr _ hid)]
            cases children.path? parent <;> simp
      · have hpc : parent ∉ children.ids := fun hc => hdisj _ hc hr
        rw [graft_of_not_mem hpc, path?_tree, path?_tree, path?_beside hn hpc,
          ihr hrnd hr hnewr]
        split
        · rfl
        · rw [Option.or_assoc]

/-- A graft adds one child to its parent and changes no other node's children. -/
theorem childIds_graft {parent : NodeId} {t : Node × Forest} {f : Forest} (hnd : f.ids.Nodup)
    (hnew : ∀ id ∈ (single t).ids, id ∉ f.ids) {id : NodeId} (h : id ∈ f.ids) :
    (f.graft parent t).childIds id =
      if id = parent then f.childIds id ++ [t.1.id] else f.childIds id := by
  induction f with
  | nil => cases h
  | tree n children rest ihc ihr =>
    obtain ⟨⟨hnc, hnr⟩, hcnd, hrnd, hdisj⟩ := nodup_ids_tree.mp hnd
    have hnewc : ∀ id ∈ (single t).ids, id ∉ children.ids := fun k hk hc =>
      hnew k hk (by simp [hc])
    have hnewr : ∀ id ∈ (single t).ids, id ∉ rest.ids := fun k hk hr =>
      hnew k hk (by simp [hr])
    -- an id of the forest is found below the graft exactly where it was found before
    have hmem : ∀ g : Forest, (∀ k ∈ (single t).ids, k ∉ g.ids) → g.ids.Nodup →
        (id ∈ (g.graft parent t).ids ↔ id ∈ g.ids) := by
      intro g hg hgnd
      by_cases hp : parent ∈ g.ids
      · have hperm := ((nodes_graft (t := t) hgnd hp).map Node.id).mem_iff (a := id)
        rw [List.map_append, List.mem_append] at hperm
        exact hperm.trans (or_iff_right fun hs => hnew id hs h)
      · rw [graft_of_not_mem hp]
    rw [graft]
    rw [ids_tree, List.mem_cons, List.mem_append] at h
    split
    · -- the parent is the first root: its list of children grows at the end
      rename_i hn
      rw [childIds_tree, childIds_tree]
      by_cases hid : n.id = id
      · rw [if_pos hid, if_pos hid, rootIds_push, if_pos (hid.symm.trans hn)]
      · rw [if_neg hid, if_neg hid, if_neg fun e : id = parent => hid (hn.trans e.symm)]
        have hpush : id ∈ (children.push t).ids ↔ id ∈ children.ids := by
          rw [ids, nodes_push, List.map_append, List.mem_append]
          refine or_iff_left fun hs => hnew id ?_ (by simp [h])
          rw [mem_ids_single]
          simpa [ids] using hs
        simp only [hpush]
        split
        · rename_i hc
          exact childIds_push hc
        · rfl
    · -- the parent lies elsewhere, and a graft below makes no new roots
      rename_i hn
      rw [childIds_tree, childIds_tree]
      by_cases hid : n.id = id
      · rw [if_pos hid, if_pos hid, rootIds_graft, if_neg fun e : id = parent => hn (hid.trans e)]
      · rw [if_neg hid, if_neg hid]
        simp only [hmem children hnewc hcnd]
        split
        · rename_i hc
          exact ihc hcnd hnewc hc
        · rename_i hc
          exact ihr hrnd hnewr ((h.resolve_left (Ne.symm hid)).resolve_left hc)

/-! ## §6 New roots -/

theorem mem_rootIds_insertRoot {t : Node × Forest} {f : Forest} {id : NodeId} :
    id ∈ (f.insertRoot t).rootIds ↔ id = t.1.id ∨ id ∈ f.rootIds := by
  induction f with
  | nil => simp [insertRoot]
  | tree n children rest _ ihr =>
    rw [insertRoot]
    split
    · simp
    · rw [rootIds_tree, rootIds_tree, List.mem_cons, ihr, List.mem_cons]
      exact or_left_comm

theorem path?_insertRoot {t : Node × Forest} {f : Forest}
    (hnew : ∀ id ∈ (single t).ids, id ∉ f.ids) (id : NodeId) :
    (f.insertRoot t).path? id = (f.path? id).or ((single t).path? id) := by
  induction f with
  | nil => rfl
  | tree n children rest _ ihr =>
    rw [insertRoot]
    split
    · -- the new tree stands first, so that the old ones are searched after it
      have hsplit : (tree t.1 t.2 (tree n children rest)).path? id =
          ((single t).path? id).or ((tree n children rest).path? id) := by
        rw [single, path?_tree id t.1, path?_tree id t.1]
        split
        · rfl
        · cases t.2.path? id <;> rfl
      rw [hsplit]
      cases hs : (single t).path? id with
      | none => rw [Option.none_or, Option.or_none]
      | some p => rw [path?_eq_none (hnew _ (mem_ids_of_path? hs)), Option.none_or, Option.some_or]
    · rw [path?_tree, path?_tree, ihr fun k hk hr => hnew k hk (by simp [hr])]
      split
      · rfl
      · rw [Option.or_assoc]

/-- A new root changes the children of no other node. -/
theorem childIds_insertRoot {t : Node × Forest} {f : Forest}
    (hnew : ∀ id ∈ (single t).ids, id ∉ f.ids) {id : NodeId} (h : id ∈ f.ids) :
    (f.insertRoot t).childIds id = f.childIds id := by
  induction f with
  | nil => cases h
  | tree n children rest _ ihr =>
    have hnot : id ∉ (single t).ids := fun hs => hnew id hs h
    rw [insertRoot]
    split
    · -- the old roots come after the new tree, which does not hold the node
      rw [mem_ids_single, not_or] at hnot
      rw [childIds_tree, if_neg (Ne.symm hnot.1), if_neg hnot.2]
    · rw [childIds_tree, childIds_tree]
      rw [ids_tree, List.mem_cons, List.mem_append] at h
      split
      · rfl
      · rename_i hn
        split
        · rfl
        · rename_i hc
          exact ihr (fun k hk hr => hnew k hk (by simp [hr]))
            ((h.resolve_left (Ne.symm hn)).resolve_left hc)

end Forest

end StyledScene
