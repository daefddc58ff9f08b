import StyledScene.Proofs.Tree.Slots
import StyledScene.Selector.Parse
import StyledScene.Tree.Lineage

/-!
# Every change is marked

A node that is not marked after an edit looks to selectors exactly as it did before, and so do all
its ancestors. `ChangesMarked` states this for two trees; it is transitive, so a move follows from
taking a subtree out and putting it back (`EditsTo.changesMarked`). Since a selector sees a node only
through its lineage, a verdict of any selector that changes belongs to a marked node
(`isDirty_of_verdict_changed`).
-/

namespace StyledScene

/-! ## §1 The node at the start of a path -/

/-- The two searches of a forest stop at the same node. -/
theorem Forest.subtree?_map_fst (id : NodeId) (f : Forest) :
    (f.subtree? id).map Prod.fst = (f.path? id).bind List.head? := by
  induction f with
  | nil => rfl
  | tree n children rest ihc ihr =>
    rw [Forest.subtree?, Forest.path?_tree]
    split
    · rfl
    · -- both go below first, and find something there or do not
      cases hp : children.path? id with
      | none =>
        rw [hp] at ihc
        rw [Option.map_eq_none_iff.mp ihc]
        exact ihr
      | some p =>
        obtain ⟨k, above, rfl, -⟩ := Forest.path?_head hp
        rw [hp] at ihc
        obtain ⟨sub, hsub, hk⟩ := Option.map_eq_some_iff.mp ihc
        rw [hsub]
        exact congrArg some hk

namespace NodeTree

theorem contains_of_path? {t : NodeTree} {id : NodeId} {p : List Node} (h : t.path? id = some p) :
    t.contains id = true :=
  contains_iff.mpr (Forest.mem_ids_of_path? h)

theorem path?_of_contains {t : NodeTree} {id : NodeId} (h : t.contains id = true) :
    ∃ n above, t.path? id = some (n :: above) ∧ n.id = id := by
  obtain ⟨p, hp⟩ := Forest.exists_path? (contains_iff.mp h)
  obtain ⟨n, above, rfl, hn⟩ := Forest.path?_head hp
  exact ⟨n, above, hp, hn⟩

theorem subtree?_of_path? {t : NodeTree} {id : NodeId} {n : Node} {above : List Node}
    (h : t.path? id = some (n :: above)) : ∃ below, t.subtree? id = some (n, below) := by
  have hmap := Forest.subtree?_map_fst id t.forest
  rw [← path?_eq, h] at hmap
  obtain ⟨⟨k, below⟩, hsub, rfl⟩ := Option.map_eq_some_iff.mp hmap
  exact ⟨below, hsub⟩

theorem isDirty_of_path? {t : NodeTree} {id : NodeId} {n : Node} {above : List Node}
    (h : t.path? id = some (n :: above)) : t.isDirty id = .ok n.dirty := by
  obtain ⟨below, hsub⟩ := subtree?_of_path? h
  rw [isDirty, ask, hsub]

/-- A living node is marked or it is not. -/
theorem isDirty_eq_false {t : NodeTree} {id : NodeId} (hlive : t.contains id = true)
    (h : ¬ t.isDirty id = .ok true) : t.isDirty id = .ok false := by
  obtain ⟨n, above, hp, -⟩ := path?_of_contains hlive
  rw [isDirty_of_path? hp] at h ⊢
  simpa using h

/-- The path of a node that lies on another path is the rest of that path. -/
theorem path?_of_mem_path {t : NodeTree} (hnd : t.forest.ids.Nodup) {id : NodeId} {p : List Node}
    (h : t.path? id = some p) {a : Node} (ha : a ∈ p) :
    ∃ below above, p = below ++ a :: above ∧ t.path? a.id = some (a :: above) := by
  obtain ⟨below, above, rfl⟩ := List.append_of_mem ha
  exact ⟨below, above, rfl, Forest.path?_of_append hnd h⟩

/-! ## §2 What selectors see -/

/-- A lineage depends only on the data of the nodes, their children and their places. -/
theorem lineageOf_congr {t t' : NodeTree} {p p' : List Node}
    (hsame : p.map Node.clean = p'.map Node.clean)
    (hkids : ∀ a ∈ p, t'.childIds a.id = t.childIds a.id)
    (hplace : ∀ a ∈ p, t'.siblingPlace? a.id = t.siblingPlace? a.id) :
    t'.lineageOf p' = t.lineageOf p := by
  induction p generalizing p' with
  | nil =>
    obtain rfl := List.map_eq_nil_iff.mp hsame.symm
    rfl
  | cons n above ih =>
    cases p' with
    | nil => cases hsame
    | cons n' above' =>
      rw [List.map_cons, List.map_cons, List.cons.injEq] at hsame
      obtain ⟨hn, habove⟩ := hsame
      have hlen : above'.length = above.length := by
        simpa using (congrArg List.length habove).symm
      -- a view reads everything of a node but its mark
      have hview : t'.view n' above'.length = t.view n above.length := by
        simp only [Node.clean, Node.mk.injEq] at hn
        obtain ⟨hid, htags, hauthor, hauto, hclasses, hstate, -⟩ := hn
        simp only [view, ← hid, ← htags, ← hauthor, ← hauto, ← hclasses, ← hstate, hlen,
          hkids n (by simp), hplace n (by simp)]
      rw [lineageOf, lineageOf, hview,
        ih habove (fun a ha => hkids a (by simp [ha])) (fun a ha => hplace a (by simp [ha]))]

/-- The trees differ in nothing but the marks. -/
def EqualUpToMarks (t t' : NodeTree) : Prop :=
  t'.forest.map Node.clean = t.forest.map Node.clean ∧ t'.pool = t.pool ∧
    t'.nextSerial = t.nextSerial

namespace EqualUpToMarks

variable {t t' t'' : NodeTree}

theorem refl (t : NodeTree) : t.EqualUpToMarks t := ⟨rfl, rfl, rfl⟩

theorem trans (h : t.EqualUpToMarks t') (h' : t'.EqualUpToMarks t'') : t.EqualUpToMarks t'' :=
  ⟨h'.1.trans h.1, h'.2.1.trans h.2.1, h'.2.2.trans h.2.2⟩

theorem marked (t : NodeTree) (id : NodeId) : t.EqualUpToMarks (t.marked id) :=
  ⟨Forest.map_markUnder (fun _ => rfl) id t.forest, rfl, rfl⟩

theorem cleaned (t : NodeTree) (id : NodeId) : t.EqualUpToMarks (t.cleaned id) := by
  refine ⟨?_, rfl, rfl⟩
  show (t.forest.modify id Node.clean).map Node.clean = t.forest.map Node.clean
  unfold Forest.modify
  induction t.forest with
  | nil => rfl
  | tree n children rest ihc ihr =>
    have hn : (if n.id = id then n.clean else n).clean = n.clean := by split <;> rfl
    rw [Forest.map, Forest.map, Forest.map, ihc, ihr, hn]

theorem ids (h : t.EqualUpToMarks t') : t'.forest.ids = t.forest.ids := by
  rw [← Forest.ids_map Node.id_clean t'.forest, h.1, Forest.ids_map Node.id_clean]

theorem rootIds (h : t.EqualUpToMarks t') : t'.forest.rootIds = t.forest.rootIds := by
  rw [← Forest.rootIds_map Node.id_clean t'.forest, h.1, Forest.rootIds_map Node.id_clean]

theorem contains (h : t.EqualUpToMarks t') (id : NodeId) : t'.contains id = t.contains id := by
  rw [Bool.eq_iff_iff, contains_iff, contains_iff, h.ids]

theorem childIds (h : t.EqualUpToMarks t') (id : NodeId) : t'.childIds id = t.childIds id := by
  rw [childIds_eq, childIds_eq, ← Forest.childIds_map Node.id_clean t'.forest, h.1,
    Forest.childIds_map Node.id_clean]

theorem path? (h : t.EqualUpToMarks t') (id : NodeId) :
    (t'.path? id).map (List.map Node.clean) = (t.path? id).map (List.map Node.clean) := by
  rw [path?_eq, path?_eq, ← Forest.path?_map Node.id_clean, h.1, Forest.path?_map Node.id_clean]

/-- The path of a node has the same nodes in both trees, apart from their marks. -/
theorem path?_eq_some (h : t.EqualUpToMarks t') {id : NodeId} {p : List Node}
    (hp : t.path? id = some p) :
    ∃ p', t'.path? id = some p' ∧ p'.map Node.clean = p.map Node.clean := by
  have hmap := h.path? id
  rw [hp] at hmap
  exact Option.map_eq_some_iff.mp hmap

theorem path?_eq_none (h : t.EqualUpToMarks t') {id : NodeId} (hp : t.path? id = none) :
    t'.path? id = none := by
  have hmap := h.path? id
  rw [hp] at hmap
  exact Option.map_eq_none_iff.mp hmap

/-- The path of a node leads over the same ids in both trees. -/
theorem map_id_path? (h : t.EqualUpToMarks t') (id : NodeId) :
    (t'.path? id).map (List.map Node.id) = (t.path? id).map (List.map Node.id) := by
  have hid := congrArg (Option.map (List.map Node.id)) (h.path? id)
  rw [Option.map_map, Option.map_map, List.map_comp_map] at hid
  exact hid

theorem map_id_getD (h : t.EqualUpToMarks t') (id : NodeId) :
    ((t'.path? id).getD []).map Node.id = ((t.path? id).getD []).map Node.id :=
  calc ((t'.path? id).getD []).map Node.id
    _ = ((t'.path? id).map (List.map Node.id)).getD [] :=
      (Option.getD_map (List.map Node.id) [] _).symm
    _ = ((t.path? id).map (List.map Node.id)).getD [] := by rw [h.map_id_path?]
    _ = ((t.path? id).getD []).map Node.id := Option.getD_map (List.map Node.id) [] _

theorem parentId? (h : t.EqualUpToMarks t') (id : NodeId) : t'.parentId? id = t.parentId? id := by
  have hids := h.map_id_path? id
  rw [NodeTree.parentId?, NodeTree.parentId?]
  cases hp : t.path? id with
  | none => rw [h.path?_eq_none hp]
  | some p =>
    obtain ⟨p', hp', -⟩ := h.path?_eq_some hp
    rw [hp, hp'] at hids
    rw [hp']
    -- only the second node of either path counts
    rcases p with - | ⟨n, - | ⟨m, above⟩⟩ <;> rcases p' with - | ⟨n', - | ⟨m', above'⟩⟩ <;>
      simp at hids ⊢
    exact hids.2.1

theorem siblingPlace? (h : t.EqualUpToMarks t') (id : NodeId) :
    t'.siblingPlace? id = t.siblingPlace? id := by
  unfold NodeTree.siblingPlace?
  rw [h.parentId?]
  cases t.parentId? id with
  | none => rfl
  | some parent => simp only [Option.map_some, h.childIds]

/-- Marks are invisible to selectors. -/
theorem lineage (h : t.EqualUpToMarks t') (id : NodeId) : t'.lineage id = t.lineage id := by
  unfold NodeTree.lineage lineage?
  cases hp : t.path? id with
  | none =>
    rw [h.path?_eq_none hp]
    rfl
  | some p =>
    obtain ⟨p', hp', hclean⟩ := h.path?_eq_some hp
    rw [hp']
    exact lineageOf_congr hclean.symm (fun a _ => h.childIds a.id) fun a _ => h.siblingPlace? a.id

end EqualUpToMarks

/-! ## §3 Changes that are marked -/

/-- Every node of `t'` without a mark is a node of `t`, with the same data, the same ancestors, and
the same children at every step up to its root. -/
def ChangesMarked (t t' : NodeTree) : Prop :=
  ∀ id n above, t'.path? id = some (n :: above) → n.dirty = false →
    t.path? id = some (n :: above) ∧ ∀ a ∈ n :: above, t'.childIds a.id = t.childIds a.id

namespace ChangesMarked

variable {t t' t'' : NodeTree}

theorem refl (t : NodeTree) : t.ChangesMarked t := fun _ _ _ hp _ => ⟨hp, fun _ _ => rfl⟩

theorem trans (h : t.ChangesMarked t') (h' : t'.ChangesMarked t'') : t.ChangesMarked t'' := by
  intro id n above hp hclean
  obtain ⟨hp', hkids'⟩ := h' id n above hp hclean
  obtain ⟨hp'', hkids⟩ := h id n above hp' hclean
  exact ⟨hp'', fun a ha => (hkids' a ha).trans (hkids a ha)⟩

/-- The path of a node that a marking has left alone avoids the marked node. -/
theorem path?_of_clean_marked {u : NodeTree} (hnd : u.forest.ids.Nodup) {x id : NodeId} {n : Node}
    {above : List Node} (hp : (u.marked x).path? id = some (n :: above)) (hclean : n.dirty = false) :
    u.path? id = some (n :: above) ∧ x ∉ (n :: above).map Node.id := by
  rw [path?_eq] at hp
  change (u.forest.markUnder x).path? id = some (n :: above) at hp
  rw [Forest.path?_markUnder hnd] at hp
  obtain ⟨p, hpu, hmark⟩ := Option.map_eq_some_iff.mp hp
  have hx : x ∉ p.map Node.id := by
    intro hmem
    -- otherwise the first node of the path would have been marked
    obtain ⟨k, rest, rfl, -⟩ := Forest.path?_head hpu
    rw [Forest.markPath, if_pos hmem, List.cons.injEq] at hmark
    rw [← hmark.1] at hclean
    cases hclean
  rw [Forest.markPath_of_not_mem hx] at hmark
  subst hmark
  exact ⟨hpu, hx⟩

/-- It is enough to look at the paths that avoid the node under which everything gets marked. -/
theorem of_marked {u : NodeTree} (hnd : u.forest.ids.Nodup) (x : NodeId)
    (h : ∀ id p, u.path? id = some p → x ∉ p.map Node.id →
      t.path? id = some p ∧ ∀ a ∈ p, u.childIds a.id = t.childIds a.id) :
    t.ChangesMarked (u.marked x) := by
  intro id n above hp hclean
  obtain ⟨hpu, hx⟩ := path?_of_clean_marked hnd hp hclean
  obtain ⟨hpt, hkids⟩ := h id _ hpu hx
  refine ⟨hpt, fun a ha => ?_⟩
  rw [childIds_eq]
  exact (Forest.childIds_markUnder x a.id u.forest).trans (hkids a ha)

theorem marked (hnd : t.forest.ids.Nodup) (x : NodeId) : t.ChangesMarked (t.marked x) :=
  of_marked hnd x fun _ _ hp _ => ⟨hp, fun _ _ => rfl⟩

/-- Detaching marks what is left below the old parent. -/
theorem detached (hnd : t.forest.ids.Nodup) (x : NodeId) : t.ChangesMarked (t.detached x) := by
  -- apart from the old parent, no node loses a child
  have hpruned : ∀ id p, (t.forest.prune x).path? id = some p →
      (∀ a ∈ p, t.parentId? x ≠ some a.id) →
      t.path? id = some p ∧ ∀ a ∈ p, (t.forest.prune x).childIds a.id = t.childIds a.id := by
    intro id p hp hparent
    refine ⟨((Forest.path?_prune_iff hnd).mp hp).1, fun a ha => ?_⟩
    rw [Forest.childIds_prune hnd (Forest.mem_ids_of_mem_path hp ha), childIds_eq]
    refine List.filter_eq_self.mpr fun k hk => bne_iff_ne.mpr ?_
    rintro rfl
    exact hparent a ha ((mem_childIds_iff_parentId? hnd).mp hk)
  unfold NodeTree.detached
  cases hx : t.parentId? x with
  | none =>
    intro id n above hp _
    exact hpruned id _ hp fun a _ h => by rw [hx] at h; cases h
  | some parent =>
    -- the old parent is marked, so a path without a mark avoids it
    apply of_marked (Forest.nodup_ids_prune hnd x) parent
    intro id p hp hmem
    refine hpruned id p hp fun a ha h => hmem ?_
    rw [hx, Option.some.injEq] at h
    exact h ▸ List.mem_map_of_mem ha

/-- Attaching marks the new tree and everything else below its parent. -/
theorem attached (hnd : t.forest.ids.Nodup) {sub : Node × Forest} {parent : Option NodeId}
    (hparent : ∀ p, parent = some p → p ∈ t.forest.ids)
    (hnew : ∀ id ∈ (Forest.single sub).ids, id ∉ t.forest.ids)
    (hsub : (Forest.single sub).ids.Nodup) : t.ChangesMarked (t.attached sub parent) := by
  have hperm := @ids_perm_attached t hnd sub parent hparent
  have hnd' : ((Forest.single sub).ids ++ t.forest.ids).Nodup :=
    List.nodup_append.mpr ⟨hsub, hnd, fun a ha b hb hab => hnew a ha (hab ▸ hb)⟩
  cases parent with
  | none =>
    rw [NodeTree.attached, ids_marked] at hperm
    apply of_marked (hperm.nodup_iff.mpr hnd') _
    intro id p hp hroot
    rw [path?_eq] at hp
    change (t.forest.insertRoot sub).path? id = some p at hp
    rw [Forest.path?_insertRoot hnew] at hp
    rcases Option.or_eq_some_iff.mp hp with hold | ⟨-, hs⟩
    · refine ⟨hold, fun a ha => ?_⟩
      exact Forest.childIds_insertRoot hnew (Forest.mem_ids_of_mem_path hold ha)
    · -- every path of the new tree ends at its root, which is marked
      exact absurd (List.mem_map_of_mem (Forest.root_mem_path_single hs)) hroot
  | some q =>
    have hq := hparent q rfl
    rw [NodeTree.attached, ids_marked] at hperm
    apply of_marked (hperm.nodup_iff.mpr hnd') _
    intro id p hp hmem
    rw [path?_eq] at hp
    change (t.forest.graft q sub).path? id = some p at hp
    rw [Forest.path?_graft hnd hq hnew] at hp
    rcases Option.or_eq_some_iff.mp hp with hold | ⟨-, hs⟩
    · refine ⟨hold, fun a ha => ?_⟩
      have hne : a.id ≠ q := fun e => hmem (e ▸ List.mem_map_of_mem ha)
      show (t.forest.graft q sub).childIds a.id = _
      rw [Forest.childIds_graft hnd hnew (Forest.mem_ids_of_mem_path hold ha), if_neg hne]
      rfl
    · -- a path out of the new tree runs through the new parent
      obtain ⟨p₁, -, hup⟩ := Option.bind_eq_some_iff.mp hs
      obtain ⟨p₂, hp₂, rfl⟩ := Option.map_eq_some_iff.mp hup
      obtain ⟨k, above, rfl, hk⟩ := Forest.path?_head hp₂
      exact absurd (by simp [hk]) hmem

theorem moves {id : NodeId} {parent : Option NodeId} (hnd : t.forest.ids.Nodup)
    (h : t.MovesTo id parent t') : t.ChangesMarked t' := by
  obtain ⟨sub, hsub, hparent, rfl⟩ := h
  have hsplit := (ids_perm_detached hnd hsub).nodup_iff.mp hnd
  obtain ⟨hsubnd, hdnd, hdisj⟩ := List.nodup_append.mp hsplit
  refine (detached hnd id).trans (attached hdnd (fun p hp => ?_) ?_ hsubnd)
  · exact mem_ids_detached_of_not_isUnder hnd (hparent p hp).1 (hparent p hp).2
  · exact fun k hk hk' => hdisj k hk k hk' rfl

theorem create (hwf : t.WellFormed) (tag : String) : t.ChangesMarked (t.create tag).2 := by
  intro id n above hp hclean
  have hnew := hwf.new_not_mem tag
  rw [path?_eq] at hp
  change (t.forest.insertRoot (Node.new t.pool.take.1 tag t.nextSerial, .nil)).path? id = _ at hp
  rw [Forest.path?_insertRoot hnew] at hp
  rcases Option.or_eq_some_iff.mp hp with hold | ⟨-, hs⟩
  · refine ⟨hold, fun a ha => ?_⟩
    exact Forest.childIds_insertRoot hnew (Forest.mem_ids_of_mem_path hold ha)
  · -- the new node is marked from the start
    rcases Forest.path?_tree_cases hs with ⟨-, h⟩ | ⟨-, q, hq, -⟩ | ⟨-, -, hr⟩
    · obtain ⟨rfl, -⟩ := List.cons.inj h
      cases hclean
    · cases hq
    · cases hr

theorem revised (hnd : t.forest.ids.Nodup) {id : NodeId} {n : Node} (hid : n.id = id) :
    t.ChangesMarked (t.revised id n) := by
  have hkeep : ∀ k : Node, (if k.id = id then n else k).id = k.id := by
    intro k
    split
    · rename_i hk
      exact hid.trans hk.symm
    · rfl
  have hids := Forest.ids_map hkeep t.forest
  apply of_marked (hids ▸ hnd) id
  intro id' p hp hmem
  rw [path?_eq] at hp
  change (t.forest.modify id fun _ => n).path? id' = some p at hp
  rw [Forest.modify, Forest.path?_map hkeep] at hp
  obtain ⟨q, hq, rfl⟩ := Option.map_eq_some_iff.mp hp
  -- on a path that avoids the node nothing is replaced
  have hsame : q.map (fun k => if k.id = id then n else k) = q := by
    refine (List.map_congr_left fun k hk => if_neg fun e => hmem ?_).trans (List.map_id q)
    rw [List.map_map, List.mem_map]
    exact ⟨k, hk, (hkeep k).trans e⟩
  rw [hsame]
  exact ⟨hq, fun a _ => Forest.childIds_map hkeep t.forest a.id⟩

/-- A node without a mark and its ancestors keep their places. -/
theorem siblingPlace? (h : t.ChangesMarked t') (hnd : t.forest.ids.Nodup)
    (hnd' : t'.forest.ids.Nodup) {id : NodeId} {n : Node} {above : List Node}
    (hp : t'.path? id = some (n :: above)) (hclean : n.dirty = false) {a : Node}
    (ha : a ∈ n :: above) : t'.siblingPlace? a.id = t.siblingPlace? a.id := by
  obtain ⟨hpt, hkids⟩ := h id n above hp hclean
  obtain ⟨below, up, hsplit, hup⟩ := path?_of_mem_path hnd hpt ha
  have hup' : t'.path? a.id = some (a :: up) := by
    rw [hsplit] at hp
    exact Forest.path?_of_append hnd' hp
  -- a place is told from the parent's children, and the parent is on the path too
  unfold NodeTree.siblingPlace?
  cases up with
  | nil => rw [parentId?_of_root hup, parentId?_of_root hup']; rfl
  | cons m up =>
    have hm : m ∈ n :: above := by rw [hsplit]; simp
    simp only [parentId?_of_path? hup, parentId?_of_path? hup', Option.map_some, hkids m hm]

/-- A node without a mark and its ancestors keep their lineages. -/
theorem lineage (h : t.ChangesMarked t') (hnd : t.forest.ids.Nodup) (hnd' : t'.forest.ids.Nodup)
    {id : NodeId} {n : Node} {above : List Node} (hp : t'.path? id = some (n :: above))
    (hclean : n.dirty = false) : ∀ a ∈ n :: above, t'.lineage a.id = t.lineage a.id := by
  intro a ha
  obtain ⟨hpt, hkids⟩ := h id n above hp hclean
  obtain ⟨below, up, hsplit, hup⟩ := path?_of_mem_path hnd hpt ha
  have hup' : t'.path? a.id = some (a :: up) := by
    rw [hsplit] at hp
    exact Forest.path?_of_append hnd' hp
  have hsub (k : Node) (hk : k ∈ a :: up) : k ∈ n :: above := by
    rw [hsplit]
    exact List.mem_append_right _ hk
  rw [NodeTree.lineage, NodeTree.lineage, lineage?, lineage?, hup, hup']
  exact lineageOf_congr rfl (fun k hk => hkids k (hsub k hk))
    fun k hk => h.siblingPlace? hnd hnd' hp hclean (hsub k hk)

end ChangesMarked

/-- **Every edit marks what it changes**, unless it takes the mark of one node away. -/
theorem EditsTo.changesMarked_or_cleaned {t t' : NodeTree} {e : TreeEdit} (h : t.EditsTo e t')
    (hwf : t.WellFormed) : t.ChangesMarked t' ∨ ∃ x, e = .clearDirty x ∧ t' = t.cleaned x := by
  have hnd := hwf.nodup_ids
  cases h with
  | create tag => exact Or.inl (.create hwf tag)
  | @createChild _ tag _ h =>
    exact Or.inl ((ChangesMarked.create hwf tag).trans (.moves (hwf.create tag).nodup_ids h))
  | destroy h => exact Or.inl (.detached hnd _)
  | setParent h => exact Or.inl (.moves hnd h)
  | revise hid => exact Or.inl (.revised hnd hid)
  | keep => exact Or.inl (.refl t)
  | markDirty id => exact Or.inl (.marked hnd id)
  | clearDirty id => exact Or.inr ⟨id, rfl, rfl⟩

/-! ## §4 Verdicts of selectors -/

/-- After an edit a node is marked, or it was there before and its lineage is the same. -/
theorem EditsTo.dirty_or_lineage_eq {t t' : NodeTree} {e : TreeEdit} (h : t.EditsTo e t')
    (hwf : t.WellFormed) {id : NodeId} (hlive : t'.contains id = true) :
    t'.isDirty id = .ok true ∨ t.contains id = true ∧ t'.lineage id = t.lineage id := by
  rcases h.changesMarked_or_cleaned hwf with hmarked | ⟨x, -, rfl⟩
  · obtain ⟨n, above, hp, rfl⟩ := path?_of_contains hlive
    cases hd : n.dirty with
    | true => exact Or.inl ((isDirty_of_path? hp).trans (congrArg _ hd))
    | false =>
      obtain ⟨hpt, -⟩ := hmarked n.id n above hp hd
      have hlineage := hmarked.lineage hwf.nodup_ids (h.wellFormed hwf).nodup_ids hp hd
      exact Or.inr ⟨contains_of_path? hpt, hlineage n List.mem_cons_self⟩
  · -- selectors do not see marks
    have hsame := EqualUpToMarks.cleaned t x
    exact Or.inr ⟨(hsame.contains id).symm.trans hlive, hsame.lineage id⟩

/-- **A node whose verdict changes is marked.** After an accepted edit of a reachable tree, every
node is marked that some selector accepts after the edit but not before, or before but not after, and
so is every node that the edit has made. -/
theorem isDirty_of_verdict_changed {t t' : NodeTree} {e : TreeEdit} {reply : TreeReply}
    (hreach : t.Reachable) (hedit : t.edit e = .ok (reply, t')) :
    (∀ id, t.contains id = true → t'.contains id = true →
      (∃ text s, Selector.parse? text = some s ∧
        ∃ m : Matcher, m.accepts s (t'.lineage id) ≠ m.accepts s (t.lineage id)) →
      t'.isDirty id = .ok true) ∧
    ∀ id, t.contains id = false → t'.contains id = true → t'.isDirty id = .ok true := by
  have hwf := wellFormed_of_reachable hreach
  have hto := editsTo_of_edit_eq_ok hedit
  constructor
  · rintro id - hlive ⟨-, s, -, m, hverdict⟩
    rcases hto.dirty_or_lineage_eq hwf hlive with hdirty | ⟨-, hsame⟩
    · exact hdirty
    · exact absurd (congrArg (m.accepts s) hsame) hverdict
  · intro id hnew hlive
    rcases hto.dirty_or_lineage_eq hwf hlive with hdirty | ⟨hold, -⟩
    · exact hdirty
    · rw [hnew] at hold
      cases hold

/-- A node with two children, the second of which bears no mark. -/
def twoChildren : NodeTree :=
  empty.run [.create "row", .createChild ⟨1, 1⟩ "cell", .createChild ⟨1, 1⟩ "cell",
    .clearDirty ⟨3, 1⟩]

/-- When the first child is destroyed, the second one becomes the first and is marked. -/
theorem isDirty_of_first_child_destroyed :
    twoChildren.isDirty ⟨3, 1⟩ = .ok false ∧
      ∃ t', twoChildren.edit (.destroy ⟨2, 1⟩) = .ok (.done, t') ∧
        t'.isDirty ⟨3, 1⟩ = .ok true := by
  have hreach : twoChildren.Reachable := ⟨_, rfl⟩
  have hedit : twoChildren.edit (.destroy ⟨2, 1⟩) =
      .ok (.done, twoChildren.after (.destroy ⟨2, 1⟩)) := by decide
  have hverdict : (Matcher.mk true).accepts ⟨Compound.ofRun ":first-child".toList, []⟩
        ((twoChildren.after (.destroy ⟨2, 1⟩)).lineage ⟨3, 1⟩) ≠
      (Matcher.mk true).accepts ⟨Compound.ofRun ":first-child".toList, []⟩
        (twoChildren.lineage ⟨3, 1⟩) := by decide
  refine ⟨by decide, _, hedit, ?_⟩
  refine (isDirty_of_verdict_changed hreach hedit).1 _ (by decide) (by decide) ?_
  exact ⟨":first-child", _, by decide, ⟨true⟩, hverdict⟩

end NodeTree

end StyledScene
