import StyledScene.Proofs.Scene.Settling

/-!
# Who is computed anew

The agenda of a frame pass holds exactly the visible nodes whose mark or whose manager asks for a new
style (`mem_agenda_iff`). The path that a single node needs is chosen by the same test without regard to
visibility. Both lists are in order, and both reach up to every ancestor that has to be computed first
(`settles_agenda`, `settles_served`).
-/

namespace StyledScene

/-! ## §1 Visible nodes -/

namespace NodeTree

theorem isEffectivelyVisible_of_path? {t : NodeTree} {id : NodeId} {p : List Node}
    (h : t.path? id = some p) : t.isEffectivelyVisible id = .ok (p.all Node.isVisible) := by
  obtain ⟨n, above, rfl, -⟩ := Forest.path?_head h
  obtain ⟨below, hsub⟩ := subtree?_of_path? h
  rw [isEffectivelyVisible, ask, hsub, h]
  rfl

theorem isEffectivelyVisible_iff {t : NodeTree} {id : NodeId} :
    t.isEffectivelyVisible id = .ok true ↔
      ∃ p, t.path? id = some p ∧ ∀ n ∈ p, n.isVisible = true := by
  constructor
  · intro h
    obtain ⟨sub, hsub, -⟩ := ask_eq_ok_iff.mp h
    have hlive : t.contains id = true := by rw [NodeTree.contains, hsub]; rfl
    obtain ⟨n, above, hp, -⟩ := path?_of_contains hlive
    rw [isEffectivelyVisible_of_path? hp] at h
    exact ⟨_, hp, List.all_eq_true.mp (Except.ok.inj h)⟩
  · rintro ⟨p, hp, hvis⟩
    rw [isEffectivelyVisible_of_path? hp, List.all_eq_true.mpr hvis]

theorem contains_of_visible {t : NodeTree} {id : NodeId}
    (h : t.isEffectivelyVisible id = .ok true) : t.contains id = true := by
  obtain ⟨p, hp, -⟩ := isEffectivelyVisible_iff.mp h
  exact contains_of_path? hp

/-- A visible node has a visible parent. -/
theorem isEffectivelyVisible_parent {t : NodeTree} (hnd : t.forest.ids.Nodup) {id parent : NodeId}
    (h : t.isEffectivelyVisible id = .ok true) (hparent : t.parentId? id = some parent) :
    t.isEffectivelyVisible parent = .ok true := by
  obtain ⟨n, m, above, hp, rfl⟩ := parentId?_eq_some_iff.mp hparent
  obtain ⟨p, hp', hvis⟩ := isEffectivelyVisible_iff.mp h
  obtain rfl := Option.some.inj (hp.symm.trans hp')
  refine isEffectivelyVisible_iff.mpr ⟨m :: above, Forest.path?_above hnd hp, fun k hk => ?_⟩
  exact hvis k (List.mem_cons_of_mem n hk)

/-- Marks do not hide anything. -/
theorem EqualUpToMarks.isEffectivelyVisible {t t' : NodeTree} (h : t.EqualUpToMarks t')
    (id : NodeId) : t'.isEffectivelyVisible id = t.isEffectivelyVisible id := by
  by_cases hlive : t.contains id = true
  · obtain ⟨n, above, hp, -⟩ := path?_of_contains hlive
    obtain ⟨p', hp', hclean⟩ := h.path?_eq_some hp
    rw [isEffectivelyVisible_of_path? hp, isEffectivelyVisible_of_path? hp']
    have hvis (q : List Node) : (q.map Node.clean).all Node.isVisible = q.all Node.isVisible := by
      rw [List.all_map]
      rfl
    rw [← hvis, hclean, hvis]
  · -- both trees refuse to answer for a dead node
    have hdead : t.contains id = false := by simpa using hlive
    have hdead' : t'.contains id = false := (h.contains id).trans hdead
    rw [show t'.isEffectivelyVisible id = .error (.invalidNode id) from
        ask_eq_error_iff.mpr ⟨hdead', rfl⟩,
      show t.isEffectivelyVisible id = .error (.invalidNode id) from
        ask_eq_error_iff.mpr ⟨hdead, rfl⟩]

/-- Going up a path, no node has a parent that it has left behind. -/
theorem pairwise_path {t : NodeTree} (hnd : t.forest.ids.Nodup) {id : NodeId} {p : List Node}
    (h : t.path? id = some p) : (p.map Node.id).Pairwise fun a b => t.parentId? b ≠ some a := by
  induction p generalizing id with
  | nil => exact List.Pairwise.nil
  | cons n above ih =>
    rw [List.map_cons, List.pairwise_cons]
    constructor
    · intro b hb hparent
      obtain ⟨k, hk, rfl⟩ := List.mem_map.mp hb
      obtain ⟨below, up, hsplit, hup⟩ := path?_of_mem_path hnd h (List.mem_cons_of_mem n hk)
      obtain ⟨k', m, up', hup', hm⟩ := parentId?_eq_some_iff.mp hparent
      obtain ⟨-, rfl⟩ := List.cons.inj (Option.some.inj (hup.symm.trans hup'))
      -- the parent stands further up than its child, so not at the start of the path
      have hpath := Forest.nodup_path hnd h
      rw [hsplit, List.map_append, List.map_cons, List.map_cons] at hpath
      have hfirst : n.id ∈ (below ++ [k]).map Node.id := by
        cases below with
        | nil => simp [(List.cons.inj hsplit).1]
        | cons n' below => simp [(List.cons.inj hsplit).1]
      rw [← List.singleton_append, ← List.append_assoc, List.nodup_append] at hpath
      refine hpath.2.2 n.id ?_ m.id (by simp) hm.symm
      simpa using hfirst
    · cases above with
      | nil => exact List.Pairwise.nil
      | cons m above => exact ih (Forest.path?_above hnd h)

end NodeTree

namespace Scene

variable {s : Scene}

/-! ## §2 The agenda -/

/-- The node is due: it is visible, and its mark or its manager asks for a new style. -/
def Due (s : Scene) (id : NodeId) : Prop :=
  s.tree.isEffectivelyVisible id = .ok true ∧
    ∃ m, s.manager? id = some m ∧ (s.tree.isDirty id = .ok true ∨ m.valid = false)

/-- Some visible node uses the manager with the number. -/
def InUse (s : Scene) (number : Nat) : Prop :=
  ∃ id, s.tree.isEffectivelyVisible id = .ok true ∧ s.managerNumber? id = some number

theorem mem_visible_iff (hnd : s.tree.forest.ids.Nodup) {v : Visit} :
    v ∈ s.visible ↔ s.tree.isEffectivelyVisible v.id = .ok true ∧
      s.tree.isDirty v.id = .ok v.dirty ∧ v.manager = s.managerNumber? v.id := by
  rw [visible, mem_visits_iff hnd, NodeTree.isEffectivelyVisible_iff]
  constructor
  · rintro ⟨p, hp, hvis, hdirty, hmanager⟩
    have hp' : s.tree.path? v.id = some p := hp
    obtain ⟨n, above, rfl, -⟩ := Forest.path?_head hp
    refine ⟨⟨_, hp', hvis⟩, ?_, ?_⟩
    · rw [NodeTree.isDirty_of_path? hp']
      exact congrArg _ (Option.some.inj hdirty)
    · rw [hmanager, managerNumber?_of_path? hp', Option.or_none]
  · rintro ⟨⟨p, hp, hvis⟩, hdirty, hmanager⟩
    refine ⟨p, hp, hvis, ?_, ?_⟩
    · obtain ⟨n, above, rfl, -⟩ := Forest.path?_head hp
      rw [NodeTree.isDirty_of_path? hp] at hdirty
      exact congrArg some (Except.ok.inj hdirty)
    · rw [hmanager, managerNumber?_of_path? hp, Option.or_none]

theorem uses_visible_iff (hnd : s.tree.forest.ids.Nodup) {number : Nat} :
    uses s.visible number = true ↔ s.InUse number := by
  rw [uses, List.any_eq_true]
  constructor
  · rintro ⟨v, hv, hnumber⟩
    obtain ⟨hvis, -, hmanager⟩ := (mem_visible_iff hnd).mp hv
    exact ⟨v.id, hvis, hmanager ▸ beq_iff_eq.mp hnumber⟩
  · rintro ⟨id, hvis, hnumber⟩
    obtain ⟨n, above, hp, -⟩ := NodeTree.path?_of_contains (NodeTree.contains_of_visible hvis)
    refine ⟨⟨id, n.dirty, some number⟩, (mem_visible_iff hnd).mpr ⟨hvis, ?_, hnumber.symm⟩, by simp⟩
    exact NodeTree.isDirty_of_path? hp

/-- **The agenda holds exactly the nodes that are due**, each with its manager. -/
theorem mem_agenda_iff (hnd : s.tree.forest.ids.Nodup) {id : NodeId} {m : StyleManager} :
    (id, m) ∈ s.agenda s.visible ↔ s.tree.isEffectivelyVisible id = .ok true ∧
      s.manager? id = some m ∧ (s.tree.isDirty id = .ok true ∨ m.valid = false) := by
  rw [agenda, List.mem_filterMap]
  constructor
  · rintro ⟨v, hv, hdue⟩
    obtain ⟨hvis, hdirty, hmanager⟩ := (mem_visible_iff hnd).mp hv
    obtain ⟨m', hm', heq⟩ := Option.map_eq_some_iff.mp hdue
    obtain ⟨rfl, rfl⟩ := Prod.mk.inj heq
    obtain ⟨hlookup, hneeded⟩ := Option.filter_eq_some_iff.mp hm'
    rw [hmanager] at hlookup
    refine ⟨hvis, hlookup, ?_⟩
    rw [hdirty]
    simpa using hneeded
  · rintro ⟨hvis, hmanager, hneeded⟩
    obtain ⟨n, above, hp, -⟩ := NodeTree.path?_of_contains (NodeTree.contains_of_visible hvis)
    have hdirty := NodeTree.isDirty_of_path? hp
    refine ⟨⟨id, n.dirty, s.managerNumber? id⟩, (mem_visible_iff hnd).mpr ⟨hvis, hdirty, rfl⟩, ?_⟩
    rw [hdirty] at hneeded
    refine Option.map_eq_some_iff.mpr ⟨m, Option.filter_eq_some_iff.mpr ⟨hmanager, ?_⟩, rfl⟩
    simpa using hneeded

theorem mem_agenda_ids_iff (hnd : s.tree.forest.ids.Nodup) {id : NodeId} :
    id ∈ (s.agenda s.visible).map Prod.fst ↔ s.Due id := by
  constructor
  · intro h
    obtain ⟨⟨id, m⟩, hentry, rfl⟩ := List.mem_map.mp h
    obtain ⟨hvis, hmanager, hneeded⟩ := (mem_agenda_iff hnd).mp hentry
    exact ⟨hvis, m, hmanager, hneeded⟩
  · rintro ⟨hvis, m, hmanager, hneeded⟩
    exact List.mem_map.mpr ⟨(id, m), (mem_agenda_iff hnd).mpr ⟨hvis, hmanager, hneeded⟩, rfl⟩

theorem agenda_sublist (s : Scene) (found : List Visit) :
    ((s.agenda found).map Prod.fst).Sublist (found.map Visit.id) := by
  induction found with
  | nil => exact List.Sublist.refl _
  | cons v found ih =>
    rw [agenda, List.filterMap_cons, ← agenda]
    cases s.due? v with
    | none => exact ih.cons v.id
    | some m => exact ih.cons_cons v.id

/-- A part of the pre-order is in order. -/
theorem inOrder_of_sublist {t : NodeTree} (hnd : t.forest.ids.Nodup) {ids : List NodeId}
    (h : ids.Sublist t.forest.ids) : t.InOrder ids where
  nodup := h.nodup hnd
  live _ hid := NodeTree.contains_iff.mpr (h.subset hid)
  parents_first := (Forest.parents_first hnd).sublist h

/-- So is a part of a path, walked down from the root. -/
theorem inOrder_of_sublist_path {t : NodeTree} (hnd : t.forest.ids.Nodup) {id : NodeId}
    {p : List Node} (hp : t.path? id = some p) {ids : List NodeId}
    (h : ids.Sublist (p.map Node.id).reverse) : t.InOrder ids where
  nodup := h.nodup (List.nodup_reverse.mpr (Forest.nodup_path hnd hp))
  live k hk := by
    obtain ⟨n, hn, rfl⟩ := List.mem_map.mp (List.mem_reverse.mp (h.subset hk))
    exact contains_of_mem_path hp hn
  parents_first := (List.pairwise_reverse.mpr (NodeTree.pairwise_path hnd hp)).sublist h

/-! ## §3 Reaching up -/

/-- A list of nodes that can be computed anew one after the other: it is in order, it names the
manager of each, every node on it has to be computed, and no parent is left out that has to be
computed as well. -/
structure Settles (s : Scene) (due : List (NodeId × StyleManager)) : Prop where
  order : s.tree.InOrder (due.map Prod.fst)
  manager : ∀ entry ∈ due, s.manager? entry.1 = some entry.2
  needed : ∀ entry ∈ due, s.tree.isDirty entry.1 = .ok true ∨ entry.2.valid = false
  upward : ∀ id ∈ due.map Prod.fst, ∀ p, s.tree.parentId? id = some p → ∀ m, s.manager? p = some m →
    s.tree.isDirty p = .ok true ∨ m.valid = false → p ∈ due.map Prod.fst

theorem settles_agenda (hnd : s.tree.forest.ids.Nodup) : s.Settles (s.agenda s.visible) where
  order := inOrder_of_sublist hnd
    ((s.agenda_sublist s.visible).trans (visits_sublist _ _ s.tree.forest))
  manager entry h := ((mem_agenda_iff hnd).mp h).2.1
  needed entry h := ((mem_agenda_iff hnd).mp h).2.2
  upward id hid p hp m hm hneeded := by
    obtain ⟨hvis, -⟩ := (mem_agenda_ids_iff hnd).mp hid
    exact (mem_agenda_ids_iff hnd).mpr
      ⟨NodeTree.isEffectivelyVisible_parent hnd hvis hp, m, hm, hneeded⟩

/-- The nodes before the first one that has no manager, each with its manager. -/
def served (s : Scene) : List Node → List (NodeId × StyleManager)
  | [] => []
  | n :: rest =>
    match s.manager? n.id with
    | none => []
    | some m => (n.id, m) :: s.served rest

theorem mem_served {ns : List Node} {entry : NodeId × StyleManager} (h : entry ∈ s.served ns) :
    s.manager? entry.1 = some entry.2 := by
  induction ns with
  | nil => cases h
  | cons n ns ih =>
    unfold served at h
    split at h
    · cases h
    · rename_i m hm
      rcases List.mem_cons.mp h with rfl | hlater
      · exact hm
      · exact ih hlater

theorem served_sublist (s : Scene) (ns : List Node) :
    ((s.served ns).map Prod.fst).Sublist (ns.map Node.id) := by
  induction ns with
  | nil => exact List.Sublist.refl _
  | cons n ns ih =>
    unfold served
    split
    · exact List.nil_sublist _
    · exact ih.cons_cons n.id

/-- Whoever stands before a served node is served. -/
theorem mem_served_of_pair {ns : List Node} (hnd : (ns.map Node.id).Nodup) {a b : NodeId}
    (hpair : [a, b].Sublist (ns.map Node.id)) (hb : b ∈ (s.served ns).map Prod.fst) :
    a ∈ (s.served ns).map Prod.fst := by
  induction ns with
  | nil => cases hb
  | cons n ns ih =>
    rw [List.map_cons, List.nodup_cons] at hnd
    unfold served at hb ⊢
    split at hb
    · cases hb
    · rw [List.map_cons, List.mem_cons]
      rw [List.map_cons, List.sublist_cons_iff] at hpair
      rcases hpair with hpair | ⟨r, hr, hsub⟩
      · -- both stand in the rest, so the first node is neither of them
        have hbn : b ∈ ns.map Node.id := hpair.subset (by simp)
        rw [List.map_cons, List.mem_cons] at hb
        rcases hb with rfl | hb
        · exact absurd hbn hnd.1
        · exact Or.inr (ih hnd.2 hpair hb)
      · exact Or.inl (List.cons.inj hr).1

theorem stalePath_of_path? {id : NodeId} {p : List Node} (hp : s.tree.path? id = some p) :
    s.stalePath id = p.reverse.filter s.isStale := by
  rw [stalePath, hp, Option.getD_some]

theorem stalePath_sublist {id : NodeId} {p : List Node} (hp : s.tree.path? id = some p) :
    ((s.stalePath id).map Node.id).Sublist (p.map Node.id).reverse := by
  rw [stalePath_of_path? hp, ← List.map_reverse]
  exact List.filter_sublist.map Node.id

/-- The stale nodes on a path stand there with their own paths. -/
theorem mem_stalePath (hnd : s.tree.forest.ids.Nodup) {id : NodeId} {p : List Node}
    (hp : s.tree.path? id = some p) {n : Node} (hn : n ∈ s.stalePath id) :
    ∃ above, s.tree.path? n.id = some (n :: above) ∧ s.isStale n = true := by
  rw [stalePath_of_path? hp] at hn
  obtain ⟨hnpath, hnstale⟩ := List.mem_filter.mp hn
  obtain ⟨-, above, -, hup⟩ := NodeTree.path?_of_mem_path hnd hp (List.mem_reverse.mp hnpath)
  exact ⟨above, hup, hnstale⟩

/-- A node with a manager is stale if its mark or its manager asks for a new style. -/
theorem isStale_iff {q : Node} {above : List Node} {m : StyleManager}
    (hq : s.tree.path? q.id = some (q :: above)) (hm : s.manager? q.id = some m) :
    s.isStale q = true ↔ s.tree.isDirty q.id = .ok true ∨ m.valid = false := by
  rw [NodeTree.isDirty_of_path? hq, isStale, hm]
  simp

/-- A parent that has to be computed is tested before its child. -/
theorem parent_first_stalePath (hnd : s.tree.forest.ids.Nodup) {id : NodeId} {p : List Node}
    (hp : s.tree.path? id = some p) {n : Node} (hn : n ∈ s.stalePath id) {parent : NodeId}
    (hparent : s.tree.parentId? n.id = some parent) {m : StyleManager}
    (hm : s.manager? parent = some m)
    (hneeded : s.tree.isDirty parent = .ok true ∨ m.valid = false) :
    [parent, n.id].Sublist ((s.stalePath id).map Node.id) := by
  rw [stalePath_of_path? hp] at hn ⊢
  obtain ⟨hnpath, hnstale⟩ := List.mem_filter.mp hn
  obtain ⟨below, up, rfl, hup⟩ := NodeTree.path?_of_mem_path hnd hp (List.mem_reverse.mp hnpath)
  obtain ⟨n', q, up', hup', rfl⟩ := NodeTree.parentId?_eq_some_iff.mp hparent
  obtain ⟨-, rfl⟩ := List.cons.inj (Option.some.inj (hup.symm.trans hup'))
  have hqstale := (isStale_iff (Forest.path?_above hnd hup) hm).mpr hneeded
  -- on the path the two are neighbours, and the path is walked from its end
  have hboth : [n, q].Sublist (below ++ n :: q :: up') :=
    (((List.nil_sublist up').cons_cons q).cons_cons n).trans (List.sublist_append_right _ _)
  have hkeep : [n, q].reverse.filter s.isStale = [q, n] := by simp [hnstale, hqstale]
  have hpair : [q, n].Sublist ((below ++ n :: q :: up').reverse.filter s.isStale) :=
    hkeep ▸ (List.reverse_sublist.mpr hboth).filter s.isStale
  exact hpair.map Node.id

theorem settles_nil (s : Scene) : s.Settles [] where
  order := ⟨List.nodup_nil, by simp, List.Pairwise.nil⟩
  manager := by simp
  needed := by simp
  upward := by simp

theorem settles_served (hnd : s.tree.forest.ids.Nodup) (id : NodeId) :
    s.Settles (s.served (s.stalePath id)) := by
  cases hp : s.tree.path? id with
  | none =>
    have hnil : s.stalePath id = [] := by
      rw [stalePath, hp]
      rfl
    rw [hnil]
    exact s.settles_nil
  | some path =>
    have hserved := s.served_sublist (s.stalePath id)
    have hstale := stalePath_sublist hp
    refine ⟨inOrder_of_sublist_path hnd hp (hserved.trans hstale), fun _ h => mem_served h, ?_, ?_⟩
    · rintro ⟨k, m⟩ hentry
      obtain ⟨n, hn, rfl⟩ := List.mem_map.mp (hserved.subset (List.mem_map_of_mem hentry))
      obtain ⟨above, hpn, hnstale⟩ := mem_stalePath hnd hp hn
      exact (isStale_iff hpn (mem_served hentry)).mp hnstale
    · intro k hk parent hparent m hm hneeded
      obtain ⟨n, hn, rfl⟩ := List.mem_map.mp (hserved.subset hk)
      have hpair := parent_first_stalePath hnd hp hn hparent hm hneeded
      have hnodup := hstale.nodup (List.nodup_reverse.mpr (Forest.nodup_path hnd hp))
      exact mem_served_of_pair hnodup hpair hk

end Scene

end StyledScene
