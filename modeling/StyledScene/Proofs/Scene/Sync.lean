import StyledScene.Proofs.Scene.Visits

/-!
# Scenes in step with their trees

A host may edit the tree behind the back of its scene. Adoption brings the tables of the scene in
step: they know nothing of dead nodes, and every living node has styles (`synced_sync`). Nothing that
can be asked about a living node changes by it (`stylesOf_sync`, `managerNumber?_sync`), and a scene that
is in step stays as it is (`sync_eq_self`).
-/

namespace StyledScene

/-! ## §1 Tables -/

namespace NodeMap

variable {α : Type}

/-- A new entry takes the slot of its node. -/
theorem get?_insert (m : NodeMap α) (id k : NodeId) (value : α) :
    (m.insert id value).get? k =
      if k = id then some value else if k.index = id.index then none else m.get? k := by
  by_cases hk : k = id
  · rw [if_pos hk, hk, get?_insert_self]
  rw [if_neg hk]
  by_cases hslot : k.index = id.index
  · rw [if_pos hslot, get?, Option.map_eq_none_iff, List.find?_eq_none]
    intro entry hentry hkey
    obtain rfl := beq_iff_eq.mp hkey
    rcases List.mem_cons.mp hentry with rfl | hold
    · exact hk rfl
    · exact bne_iff_ne.mp (List.mem_filter.mp hold).2 hslot
  · rw [if_neg hslot, get?_insert_of_index_ne m value hslot]

theorem mem_entries_insert {m : NodeMap α} {id : NodeId} {value : α} {entry : NodeId × α}
    (h : entry ∈ (m.insert id value).entries) : entry = (id, value) ∨ entry ∈ m.entries := by
  rcases List.mem_cons.mp h with hnew | hold
  · exact Or.inl hnew
  · exact Or.inr (List.mem_filter.mp hold).1

theorem contains_of_insert {m : NodeMap α} {id k : NodeId} {value : α}
    (h : (m.insert id value).contains k = true) : k = id ∨ m.contains k = true := by
  unfold contains get? at h ⊢
  rw [Option.isSome_map, List.find?_isSome] at h ⊢
  obtain ⟨entry, hentry, hkey⟩ := h
  rcases mem_entries_insert hentry with rfl | hold
  · exact Or.inl (beq_iff_eq.mp hkey).symm
  · exact Or.inr ⟨entry, hold, hkey⟩

theorem contains_of_retain {m : NodeMap α} {keep : NodeId → Bool} {id : NodeId}
    (h : (m.retain keep).contains id = true) : m.contains id = true := by
  rw [contains, get?_retain] at h
  split at h
  · exact h
  · cases h

theorem contains_of_erase {m : NodeMap α} {id k : NodeId} (h : (m.erase k).contains id = true) :
    m.contains id = true := by
  rw [contains, get?_erase] at h
  split at h
  · cases h
  · exact h

theorem retain_eq_self {m : NodeMap α} {keep : NodeId → Bool}
    (h : ∀ entry ∈ m.entries, keep entry.1 = true) : m.retain keep = m := by
  unfold retain
  rw [List.filter_eq_self.mpr h]

/-- A row of new entries leaves the other slots alone. -/
theorem get?_foldl_insert_of_index_ne (value : α) {ids : List NodeId} {id : NodeId}
    (h : ∀ k ∈ ids, id.index ≠ k.index) (m : NodeMap α) :
    (ids.foldl (fun m k => m.insert k value) m).get? id = m.get? id := by
  induction ids generalizing m with
  | nil => rfl
  | cons k ids ih =>
    rw [List.foldl_cons, ih fun j hj => h j (List.mem_cons_of_mem _ hj)]
    exact get?_insert_of_index_ne m value (h k List.mem_cons_self)

theorem get?_foldl_insert_of_mem (value : α) {ids : List NodeId}
    (hslots : (ids.map NodeId.index).Nodup) {id : NodeId} (h : id ∈ ids) (m : NodeMap α) :
    (ids.foldl (fun m k => m.insert k value) m).get? id = some value := by
  induction ids generalizing m with
  | nil => cases h
  | cons k ids ih =>
    rw [List.map_cons, List.nodup_cons] at hslots
    rw [List.foldl_cons]
    rcases List.mem_cons.mp h with rfl | hmem
    · -- no later entry takes the slot of this one
      rw [get?_foldl_insert_of_index_ne value, get?_insert_self]
      intro j hj hslot
      exact hslots.1 (hslot ▸ List.mem_map_of_mem hj)
    · exact ih hslots.2 hmem _

theorem mem_entries_foldl_insert (value : α) {ids : List NodeId} {m : NodeMap α}
    {entry : NodeId × α} (h : entry ∈ (ids.foldl (fun m k => m.insert k value) m).entries) :
    entry.1 ∈ ids ∨ entry ∈ m.entries := by
  induction ids generalizing m with
  | nil => exact Or.inr h
  | cons k ids ih =>
    rcases ih h with hmem | hentry
    · exact Or.inl (List.mem_cons_of_mem _ hmem)
    · rcases mem_entries_insert hentry with rfl | hold
      · exact Or.inl List.mem_cons_self
      · exact Or.inr hold

end NodeMap

namespace Scene

/-! ## §2 Adoption -/

/-- The tables of the scene fit its tree. -/
structure Synced (s : Scene) : Prop where
  styles_live : ∀ entry ∈ s.styles.entries, s.tree.contains entry.1 = true
  attachments_live : ∀ entry ∈ s.attachments.entries, s.tree.contains entry.1 = true
  covered : ∀ id, s.tree.contains id = true → s.styles.contains id = true

instance (s : Scene) : Decidable s.Synced :=
  decidable_of_iff ((∀ entry ∈ s.styles.entries, s.tree.contains entry.1 = true) ∧
      (∀ entry ∈ s.attachments.entries, s.tree.contains entry.1 = true) ∧
      ∀ id ∈ s.tree.forest.ids, s.styles.contains id = true)
    ⟨fun ⟨hstyles, hattachments, hcovered⟩ =>
      ⟨hstyles, hattachments, fun id hlive => hcovered id (NodeTree.contains_iff.mp hlive)⟩,
    fun h => ⟨h.styles_live, h.attachments_live, fun id hid =>
      h.covered id (NodeTree.contains_iff.mpr hid)⟩⟩

theorem mem_ids_tree {t : NodeTree} {id : NodeId} : id ∈ t.ids ↔ t.contains id = true := by
  rw [NodeTree.ids, (List.mergeSort_perm _ _).mem_iff, NodeTree.contains_iff]

theorem mem_orphans {s : Scene} {id : NodeId} :
    id ∈ s.orphans ↔ s.tree.contains id = true ∧ s.styles.contains id = false := by
  rw [orphans, List.mem_filter, mem_ids_tree, Bool.not_eq_true']

variable {s : Scene}

theorem slots_orphans_nodup (hwf : s.tree.WellFormed) :
    (s.orphans.map NodeId.index).Nodup := by
  have hslots := (List.nodup_append.mp hwf.slots_nodup).1
  refine ((List.filter_sublist (l := s.tree.ids)).map NodeId.index).nodup ?_
  exact (((List.mergeSort_perm s.tree.forest.ids _).map NodeId.index).nodup_iff).mpr hslots

theorem styles_forgetDead (s : Scene) {id : NodeId} (hlive : s.tree.contains id = true) :
    s.forgetDead.styles.get? id = s.styles.get? id := by
  show (s.styles.retain s.tree.contains).get? id = _
  rw [NodeMap.get?_retain, if_pos hlive]

/-- Adoption gives styles to whoever has none, and changes no others. -/
theorem styles_sync (hwf : s.tree.WellFormed) {id : NodeId} (hlive : s.tree.contains id = true) :
    s.sync.styles.get? id = some (s.stylesOf id) := by
  have hkept := s.styles_forgetDead hlive
  show (s.forgetDead.orphans.foldl (fun m k => m.insert k (NodeStyles.new Kind.container))
    s.forgetDead.styles).get? id = _
  unfold stylesOf
  cases hget : s.styles.get? id with
  | none =>
    -- the node is adopted as an empty container
    have horphan : id ∈ s.forgetDead.orphans := by
      refine mem_orphans.mpr ⟨hlive, ?_⟩
      rw [NodeMap.contains, hkept, hget]
      rfl
    exact NodeMap.get?_foldl_insert_of_mem _ (slots_orphans_nodup (s := s.forgetDead) hwf) horphan _
  | some styles =>
    rw [NodeMap.get?_foldl_insert_of_index_ne, hkept, hget]
    · rfl
    · intro k hk hslot
      obtain ⟨hklive, hknone⟩ := mem_orphans.mp hk
      -- no two living nodes share a slot
      obtain rfl := hwf.eq_of_index_eq (NodeTree.contains_iff.mp hlive)
        (NodeTree.contains_iff.mp hklive) hslot
      rw [NodeMap.contains, hkept, hget] at hknone
      cases hknone

theorem stylesOf_sync (hwf : s.tree.WellFormed) {id : NodeId} (hlive : s.tree.contains id = true) :
    s.sync.stylesOf id = s.stylesOf id := by
  rw [stylesOf, styles_sync hwf hlive, Option.getD_some]

theorem attachments_sync {id : NodeId} (hlive : s.tree.contains id = true) :
    s.sync.attachments.get? id = s.attachments.get? id := by
  show (s.attachments.retain s.tree.contains).get? id = _
  rw [NodeMap.get?_retain, if_pos hlive]

theorem contains_of_mem_path {t : NodeTree} {id : NodeId} {p : List Node} (h : t.path? id = some p)
    {n : Node} (hn : n ∈ p) : t.contains n.id = true :=
  NodeTree.contains_iff.mpr (Forest.mem_ids_of_mem_path h hn)

theorem findSome?_congr {α β : Type} {f g : α → Option β} {l : List α} (h : ∀ a ∈ l, f a = g a) :
    l.findSome? f = l.findSome? g := by
  induction l with
  | nil => rfl
  | cons a l ih =>
    rw [List.findSome?_cons, List.findSome?_cons, h a List.mem_cons_self,
      ih fun b hb => h b (List.mem_cons_of_mem a hb)]

/-- The manager of a living node is the first one on its path. -/
theorem managerNumber?_of_path? {id : NodeId} {p : List Node} (h : s.tree.path? id = some p) :
    s.managerNumber? id = p.findSome? fun n => s.attachments.get? n.id := by
  obtain ⟨n, above, rfl, hn⟩ := Forest.path?_head h
  rw [managerNumber?, h, Option.getD_some, List.findSome?_cons, hn]
  cases s.attachments.get? id <;> rfl

/-- Marks do not change who has which manager. -/
theorem managerNumber?_congr {s s' : Scene} (hsame : s.tree.EqualUpToMarks s'.tree)
    (hattachments : s'.attachments = s.attachments) (id : NodeId) :
    s'.managerNumber? id = s.managerNumber? id := by
  have hids (p : List Node) : (p.findSome? fun n => s.attachments.get? n.id) =
      (p.map Node.id).findSome? s.attachments.get? := by
    rw [List.findSome?_map]
    rfl
  unfold managerNumber?
  rw [hattachments, hids, hids, hsame.map_id_getD]

theorem manager?_congr {s s' : Scene} (hsame : s.tree.EqualUpToMarks s'.tree)
    (hattachments : s'.attachments = s.attachments) (hmanagers : s'.managers = s.managers)
    (id : NodeId) : s'.manager? id = s.manager? id := by
  rw [manager?, manager?, managerNumber?_congr hsame hattachments, hmanagers]

theorem managerNumber?_sync {id : NodeId} (hlive : s.tree.contains id = true) :
    s.sync.managerNumber? id = s.managerNumber? id := by
  obtain ⟨n, above, hp, -⟩ := NodeTree.path?_of_contains hlive
  rw [managerNumber?_of_path? hp, managerNumber?_of_path? (s := s.sync) hp]
  exact findSome?_congr fun n hn => attachments_sync (contains_of_mem_path hp hn)

theorem manager?_sync {id : NodeId} (hlive : s.tree.contains id = true) :
    s.sync.manager? id = s.manager? id := by
  rw [manager?, manager?, managerNumber?_sync hlive]
  rfl

/-! ## §3 In step -/

theorem synced_sync (hwf : s.tree.WellFormed) : s.sync.Synced where
  styles_live entry h := by
    rcases NodeMap.mem_entries_foldl_insert _ h with horphan | hkept
    · exact (mem_orphans.mp horphan).1
    · exact (List.mem_filter.mp hkept).2
  attachments_live entry h := (List.mem_filter.mp h).2
  covered id hlive := by
    rw [NodeMap.contains, styles_sync hwf hlive]
    rfl

theorem Synced.styles_of_live (h : s.Synced) {id : NodeId} (hlive : s.tree.contains id = true) :
    s.styles.get? id = some (s.stylesOf id) := by
  obtain ⟨styles, hstyles⟩ := Option.isSome_iff_exists.mp (h.covered id hlive)
  rw [stylesOf, hstyles, Option.getD_some]

/-- **A scene in step stays as it is.** -/
theorem sync_eq_self (h : s.Synced) : s.sync = s := by
  have hforget : s.forgetDead = s := by
    unfold forgetDead
    rw [NodeMap.retain_eq_self h.styles_live, NodeMap.retain_eq_self h.attachments_live]
  have horphans : s.orphans = [] := by
    apply List.eq_nil_iff_forall_not_mem.mpr
    intro id hid
    obtain ⟨hlive, hnone⟩ := mem_orphans.mp hid
    rw [h.covered id hlive] at hnone
    cases hnone
  unfold sync
  simp only [hforget, horphans, List.foldl_nil]

theorem Synced.recompute (h : s.Synced) (hwf : s.tree.WellFormed) (m : StyleManager) {id : NodeId}
    (hlive : s.tree.contains id = true) : (s.recompute m id).Synced := by
  have hsame (k : NodeId) : (s.recompute m id).tree.contains k = s.tree.contains k :=
    (NodeTree.EqualUpToMarks.cleaned s.tree id).contains k
  refine ⟨fun entry hentry => ?_, fun entry hentry => ?_, fun k hk => ?_⟩
  · rw [hsame]
    rcases NodeMap.mem_entries_insert hentry with rfl | hold
    · exact hlive
    · exact h.styles_live entry hold
  · rw [hsame]
    exact h.attachments_live entry hentry
  · rw [hsame] at hk
    show ((s.styles.insert id (s.freshStyles m id)).get? k).isSome = true
    -- the entry takes a slot, and in that slot only one node lives
    by_cases hslot : k.index = id.index
    · rw [hwf.eq_of_index_eq (NodeTree.contains_iff.mp hk) (NodeTree.contains_iff.mp hlive) hslot,
        NodeMap.get?_insert_self]
      rfl
    · rw [NodeMap.get?_insert_of_index_ne _ _ hslot]
      exact h.covered k hk

end Scene

end StyledScene
