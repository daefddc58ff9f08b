import StyledScene.Tree.Forest

/-!
# Paths in a forest

A forest is searched downward, but most questions about a node look upward: which ancestors it has,
whether one of them is hidden, which of them carries a manager. This file shows that in a forest with
distinct ids the paths that `path?` finds are closed under going up (`path?_above`), and that the
children of a node are exactly the nodes whose paths continue with it (`mem_childIds_iff`).
-/

namespace StyledScene

namespace Forest

/-! ## §1 Distinct ids -/

@[simp] theorem ids_nil : nil.ids = [] := rfl

@[simp] theorem ids_tree (n : Node) (children rest : Forest) :
    (tree n children rest).ids = n.id :: (children.ids ++ rest.ids) := by
  simp [ids, nodes]

/-- The ids of a forest are distinct iff no id occurs in two of its three parts. -/
theorem nodup_ids_tree {n : Node} {children rest : Forest} :
    (tree n children rest).ids.Nodup ↔
      (n.id ∉ children.ids ∧ n.id ∉ rest.ids) ∧ children.ids.Nodup ∧ rest.ids.Nodup ∧
        ∀ id ∈ children.ids, id ∉ rest.ids := by
  rw [ids_tree, List.nodup_cons, List.mem_append, not_or, List.nodup_append]
  constructor
  · rintro ⟨hn, hc, hr, hd⟩
    exact ⟨hn, hc, hr, fun id hid hid' => hd id hid id hid' rfl⟩
  · rintro ⟨hn, hc, hr, hd⟩
    exact ⟨hn, hc, hr, fun a ha b hb hab => hd a ha (hab ▸ hb)⟩

@[simp] theorem rootIds_nil : nil.rootIds = [] := rfl

@[simp] theorem rootIds_tree (n : Node) (children rest : Forest) :
    (tree n children rest).rootIds = n.id :: rest.rootIds := rfl

/-- The roots of a forest are some of its nodes, in their order. -/
theorem rootIds_sublist (f : Forest) : f.rootIds.Sublist f.ids := by
  induction f with
  | nil => exact .refl _
  | tree n children rest _ ihr =>
    rw [rootIds_tree, ids_tree]
    exact (ihr.trans (List.sublist_append_right _ _)).cons_cons n.id

theorem mem_ids_of_mem_rootIds {id : NodeId} {f : Forest} (h : id ∈ f.rootIds) : id ∈ f.ids :=
  f.rootIds_sublist.subset h

/-! ## §2 Paths -/

@[simp] theorem path?_nil (id : NodeId) : nil.path? id = none := rfl

theorem path?_tree (id : NodeId) (n : Node) (children rest : Forest) :
    (tree n children rest).path? id =
      if n.id = id then some [n]
      else ((children.path? id).map (· ++ [n])).or (rest.path? id) := rfl

theorem path?_eq_none {id : NodeId} {f : Forest} (h : id ∉ f.ids) : f.path? id = none := by
  rw [← Option.not_isSome_iff_eq_none, path?_isSome]
  exact h

theorem exists_path? {id : NodeId} {f : Forest} (h : id ∈ f.ids) : ∃ p, f.path? id = some p :=
  Option.isSome_iff_exists.mp ((path?_isSome id f).mpr h)

theorem mem_ids_of_path? {id : NodeId} {f : Forest} {p : List Node} (h : f.path? id = some p) :
    id ∈ f.ids :=
  (path?_isSome id f).mp (Option.isSome_iff_exists.mpr ⟨p, h⟩)

theorem path?_below {id : NodeId} {n : Node} {children rest : Forest}
    (hn : n.id ∉ children.ids) (h : id ∈ children.ids) :
    (tree n children rest).path? id = (children.path? id).map (· ++ [n]) := by
  obtain ⟨p, hp⟩ := exists_path? h
  have hne : ¬ n.id = id := fun e => hn (e ▸ h)
  rw [path?_tree, if_neg hne, hp]
  rfl

theorem path?_beside {id : NodeId} {n : Node} {children rest : Forest}
    (hn : n.id ≠ id) (h : id ∉ children.ids) :
    (tree n children rest).path? id = rest.path? id := by
  rw [path?_tree, if_neg hn, path?_eq_none h]
  rfl

/-- Where a path comes from: its node is the first root, lies below it, or lies beside it. -/
theorem path?_tree_cases {id : NodeId} {n : Node} {children rest : Forest} {p : List Node}
    (h : (tree n children rest).path? id = some p) :
    (n.id = id ∧ p = [n]) ∨
      (n.id ≠ id ∧ ∃ q, children.path? id = some q ∧ p = q ++ [n]) ∨
      (n.id ≠ id ∧ id ∉ children.ids ∧ rest.path? id = some p) := by
  rw [path?_tree] at h
  split at h
  · rename_i heq
    exact Or.inl ⟨heq, (Option.some.inj h).symm⟩
  · rename_i hne
    -- the search goes below first, and beside only if it finds nothing there
    cases hc : children.path? id with
    | none =>
      rw [hc] at h
      refine Or.inr (Or.inr ⟨hne, fun hmem => ?_, h⟩)
      rw [← path?_isSome, hc] at hmem
      cases hmem
    | some q =>
      rw [hc] at h
      exact Or.inr (Or.inl ⟨hne, q, rfl, (Option.some.inj h).symm⟩)

/-- A path starts at the node that was asked for. -/
theorem path?_head {id : NodeId} {f : Forest} {p : List Node} (h : f.path? id = some p) :
    ∃ n above, p = n :: above ∧ n.id = id := by
  induction f generalizing p with
  | nil => cases h
  | tree n children rest ihc ihr =>
    rcases path?_tree_cases h with ⟨hn, rfl⟩ | ⟨-, q, hq, rfl⟩ | ⟨-, -, hr⟩
    · exact ⟨n, [], rfl, hn⟩
    · obtain ⟨m, above, rfl, hm⟩ := ihc hq
      exact ⟨m, above ++ [n], rfl, hm⟩
    · exact ihr hr

theorem id_of_path? {id : NodeId} {f : Forest} {n : Node} {above : List Node}
    (h : f.path? id = some (n :: above)) : n.id = id := by
  obtain ⟨n', above', heq, hn⟩ := path?_head h
  obtain ⟨rfl, -⟩ := List.cons.inj heq
  exact hn

/-- Every node of a path is a node of the forest. -/
theorem mem_nodes_of_mem_path {id : NodeId} {f : Forest} {p : List Node} (h : f.path? id = some p) :
    ∀ a ∈ p, a ∈ f.nodes := by
  induction f generalizing p with
  | nil => cases h
  | tree n children rest ihc ihr =>
    intro a ha
    rw [nodes, List.mem_cons, List.mem_append]
    rcases path?_tree_cases h with ⟨-, rfl⟩ | ⟨-, q, hq, rfl⟩ | ⟨-, -, hr⟩
    · exact Or.inl (List.mem_singleton.mp ha)
    · rcases List.mem_append.mp ha with haq | han
      · exact Or.inr (Or.inl (ihc hq a haq))
      · exact Or.inl (List.mem_singleton.mp han)
    · exact Or.inr (Or.inr (ihr hr a ha))

theorem mem_ids_of_mem_path {id : NodeId} {f : Forest} {p : List Node} (h : f.path? id = some p)
    {a : Node} (ha : a ∈ p) : a.id ∈ f.ids :=
  List.mem_map_of_mem (mem_nodes_of_mem_path h a ha)

/-- Going up a path by one step gives the path of the parent. -/
theorem path?_above {id : NodeId} {f : Forest} (hnd : f.ids.Nodup) {n m : Node}
    {above : List Node} (h : f.path? id = some (n :: m :: above)) :
    f.path? m.id = some (m :: above) := by
  induction f generalizing above with
  | nil => cases h
  | tree k children rest ihc ihr =>
    obtain ⟨⟨hkc, hkr⟩, hcnd, hrnd, hdisj⟩ := nodup_ids_tree.mp hnd
    rcases path?_tree_cases h with ⟨-, hp⟩ | ⟨-, q, hq, hp⟩ | ⟨-, -, hr⟩
    · simp at hp
    · obtain ⟨n', q', rfl, hn'⟩ := path?_head hq
      rw [List.cons_append, List.cons.injEq] at hp
      obtain ⟨rfl, hp⟩ := hp
      cases q' with
      | nil =>
        -- the parent is the root of this tree
        simp only [List.nil_append, List.cons.injEq] at hp
        obtain ⟨rfl, rfl⟩ := hp
        rw [path?_tree, if_pos rfl]
      | cons m' q' =>
        -- the parent lies below the root as well
        rw [List.cons_append, List.cons.injEq] at hp
        obtain ⟨rfl, rfl⟩ := hp
        have hm : m.id ∈ children.ids := mem_ids_of_mem_path hq (by simp)
        rw [path?_below hkc hm, ihc hcnd hq]
        rfl
    · -- the path lies beside this tree, and so does the parent
      have hm : m.id ∈ rest.ids := mem_ids_of_mem_path hr (by simp)
      rw [path?_beside (fun e => hkr (e ▸ hm)) (fun hc => hdisj _ hc hm)]
      exact ihr hrnd hr

/-- Every tail of a path that is not empty is a path. -/
theorem path?_of_append {id : NodeId} {f : Forest} (hnd : f.ids.Nodup) {below : List Node} {m : Node}
    {above : List Node} (h : f.path? id = some (below ++ m :: above)) :
    f.path? m.id = some (m :: above) := by
  -- one step up at a time
  induction below generalizing id with
  | nil =>
    rw [id_of_path? h]
    exact h
  | cons k below ih =>
    cases below with
    | nil => exact path?_above hnd h
    | cons k' below => exact ih (path?_above hnd h)

/-- No node occurs twice on a path. -/
theorem nodup_path {id : NodeId} {f : Forest} (hnd : f.ids.Nodup) {p : List Node}
    (h : f.path? id = some p) : (p.map Node.id).Nodup := by
  induction f generalizing p with
  | nil => cases h
  | tree n children rest ihc ihr =>
    obtain ⟨⟨hnc, -⟩, hcnd, hrnd, -⟩ := nodup_ids_tree.mp hnd
    rcases path?_tree_cases h with ⟨-, rfl⟩ | ⟨-, q, hq, rfl⟩ | ⟨-, -, hr⟩
    · simp
    · -- the root of the tree stands at the end of the path, and not below itself
      rw [List.map_append, List.nodup_append]
      refine ⟨ihc hcnd hq, by simp, ?_⟩
      rintro a ha b hb rfl
      obtain ⟨k, hk, rfl⟩ := List.mem_map.mp ha
      rw [List.map_singleton, List.mem_singleton] at hb
      exact hnc (hb ▸ mem_ids_of_mem_path hq hk)
    · exact ihr hrnd hr

/-! ## §3 Children -/

/-- The children of a node, in sibling order; none if the forest does not have the node. -/
def childIds (f : Forest) (id : NodeId) : List NodeId :=
  match f.subtree? id with
  | some (_, below) => below.rootIds
  | none => []

theorem subtree?_eq_none {id : NodeId} {f : Forest} (h : id ∉ f.ids) : f.subtree? id = none := by
  rw [← Option.not_isSome_iff_eq_none, subtree?_isSome]
  exact h

theorem not_mem_ids_of_subtree? {id : NodeId} {f : Forest} (h : f.subtree? id = none) : id ∉ f.ids := by
  rw [← subtree?_isSome, h]
  exact Bool.false_ne_true

@[simp] theorem childIds_nil (id : NodeId) : nil.childIds id = [] := rfl

theorem childIds_tree (id : NodeId) (n : Node) (children rest : Forest) :
    (tree n children rest).childIds id =
      if n.id = id then children.rootIds
      else if id ∈ children.ids then children.childIds id else rest.childIds id := by
  unfold childIds
  rw [subtree?]
  by_cases hn : n.id = id
  · rw [if_pos hn, if_pos hn]
  · rw [if_neg hn, if_neg hn]
    by_cases hc : id ∈ children.ids
    · obtain ⟨s, hs⟩ := Option.isSome_iff_exists.mp ((subtree?_isSome id children).mpr hc)
      rw [if_pos hc, hs]
      rfl
    · rw [if_neg hc, subtree?_eq_none hc]
      rfl

/-- The roots are the nodes whose paths have no second node. -/
theorem mem_rootIds_iff {id : NodeId} {f : Forest} (hnd : f.ids.Nodup) :
    id ∈ f.rootIds ↔ ∃ n, f.path? id = some [n] := by
  induction f with
  | nil => simp
  | tree n children rest _ ihr =>
    obtain ⟨⟨-, hnr⟩, -, hrnd, hdisj⟩ := nodup_ids_tree.mp hnd
    rw [rootIds_tree, List.mem_cons]
    constructor
    · rintro (rfl | hr)
      · exact ⟨n, by rw [path?_tree, if_pos rfl]⟩
      · have hmem := mem_ids_of_mem_rootIds hr
        rw [path?_beside (fun e => hnr (e ▸ hmem)) (fun hc => hdisj _ hc hmem)]
        exact (ihr hrnd).mp hr
    · rintro ⟨m, hm⟩
      rcases path?_tree_cases hm with ⟨hn, -⟩ | ⟨-, q, hq, hp⟩ | ⟨-, -, hr⟩
      · exact Or.inl hn.symm
      · -- a path from below has the root as a second node
        obtain ⟨k, above, rfl, -⟩ := path?_head hq
        simp at hp
      · exact Or.inr ((ihr hrnd).mpr ⟨m, hr⟩)

/-- The children of a node are the nodes whose paths continue with it. -/
theorem mem_childIds_iff {id parent : NodeId} {f : Forest} (hnd : f.ids.Nodup) :
    id ∈ f.childIds parent ↔
      ∃ n m above, f.path? id = some (n :: m :: above) ∧ m.id = parent := by
  induction f with
  | nil => simp
  | tree k children rest ihc ihr =>
    obtain ⟨⟨hkc, hkr⟩, hcnd, hrnd, hdisj⟩ := nodup_ids_tree.mp hnd
    rw [childIds_tree]
    constructor
    · intro h
      split at h
      · -- the parent is the first root
        rename_i hk
        obtain ⟨n, hn⟩ := (mem_rootIds_iff hcnd).mp h
        have hid := mem_ids_of_path? hn
        exact ⟨n, k, [], by rw [path?_below hkc hid, hn]; rfl, hk⟩
      · split at h
        · obtain ⟨n, m, above, hp, hm⟩ := (ihc hcnd).mp h
          have hid := mem_ids_of_path? hp
          exact ⟨n, m, above ++ [k], by rw [path?_below hkc hid, hp]; rfl, hm⟩
        · obtain ⟨n, m, above, hp, hm⟩ := (ihr hrnd).mp h
          have hid := mem_ids_of_path? hp
          refine ⟨n, m, above, ?_, hm⟩
          rw [path?_beside (fun e => hkr (e ▸ hid)) (fun hc => hdisj _ hc hid)]
          exact hp
    · rintro ⟨n, m, above, hp, rfl⟩
      rcases path?_tree_cases hp with ⟨-, hq⟩ | ⟨-, q, hq, hpq⟩ | ⟨-, -, hr⟩
      · simp at hq
      · obtain ⟨n', q', rfl, -⟩ := path?_head hq
        rw [List.cons_append, List.cons.injEq] at hpq
        obtain ⟨rfl, hpq⟩ := hpq
        cases q' with
        | nil =>
          -- the node is a root among the children, so its parent is the first root
          simp only [List.nil_append, List.cons.injEq] at hpq
          obtain ⟨rfl, -⟩ := hpq
          rw [if_pos rfl]
          exact (mem_rootIds_iff hcnd).mpr ⟨n, hq⟩
        | cons m' q' =>
          rw [List.cons_append, List.cons.injEq] at hpq
          obtain ⟨rfl, -⟩ := hpq
          have hm : m.id ∈ children.ids := mem_ids_of_mem_path hq (by simp)
          rw [if_neg (fun e : k.id = m.id => hkc (e ▸ hm)), if_pos hm]
          exact (ihc hcnd).mpr ⟨n, m, q', hq, rfl⟩
      · have hm : m.id ∈ rest.ids := mem_ids_of_mem_path hr (by simp)
        rw [if_neg (fun e : k.id = m.id => hkr (e ▸ hm)), if_neg (fun hc => hdisj _ hc hm)]
        exact (ihr hrnd).mpr ⟨n, m, above, hr, rfl⟩

end Forest

end StyledScene
