import StyledScene.Proofs.Scene.Hosting

/-!
# Changes that announce themselves

The style of a node is computed from what stands on its path: the nodes there and what selectors see of
them, what the host gave to them, and their managers. An action of a discreet host either computes
nodes anew, and nothing else, or it announces what it changes of all this: it marks the nodes whose
paths it disturbs, or leaves them with a manager that is not valid (`announces_or_computes`).
-/

namespace StyledScene

namespace Scene

/-! ## §1 Announcements -/

/-- Along a path nothing has changed that a style is computed from. -/
structure Undisturbed (s s' : Scene) (p : List Node) : Prop where
  lineage : ∀ n ∈ p, s'.tree.lineage n.id = s.tree.lineage n.id
  styles : ∀ n ∈ p, s'.stylesOf n.id = s.stylesOf n.id
  /-- A manager that is valid afterwards was so before, and computes the same. -/
  managers : ∀ n ∈ p, ∀ m', s'.manager? n.id = some m' → m'.valid = true →
    ∃ m, s.manager? n.id = some m ∧ m.valid = true ∧
      ∀ lineage context, m'.computeStyle lineage context = m.computeStyle lineage context

/-- The nodes that a change leaves without a mark are undisturbed by it. -/
def Announces (s s' : Scene) : Prop :=
  ∀ id n above, s'.tree.path? id = some (n :: above) → n.dirty = false →
    s.tree.path? id = some (n :: above) ∧ s.Undisturbed s' (n :: above)

variable {s s' : Scene}

/-- A change of the tree or of single nodes announces itself if it marks what it changes. -/
theorem announces_of_changesMarked (hwf : s.tree.WellFormed) (hwf' : s'.tree.WellFormed)
    (hmarked : s.tree.ChangesMarked s'.tree) (hmanagers : s'.managers = s.managers)
    (hsame : ∀ id n above, s'.tree.path? id = some (n :: above) → n.dirty = false →
      ∀ a ∈ n :: above, s'.stylesOf a.id = s.stylesOf a.id ∧
        s'.attachments.get? a.id = s.attachments.get? a.id) : s.Announces s' := by
  intro id n above hp' hclean
  obtain ⟨hp, -⟩ := hmarked id n above hp' hclean
  have hboth := hsame id n above hp' hclean
  have hlineage := hmarked.lineage hwf.nodup_ids hwf'.nodup_ids hp' hclean
  refine ⟨hp, hlineage, fun a ha => (hboth a ha).1, fun a ha m hm hvalid => ?_⟩
  refine ⟨m, ?_, hvalid, fun _ _ => rfl⟩
  -- above each of its nodes the path is the old one, and so are the attachments there
  obtain ⟨below, up, hsplit⟩ := List.append_of_mem ha
  rw [hsplit] at hp hp' hboth
  have hattached (b : Node) (hb : b ∈ a :: up) :
      s'.attachments.get? b.id = s.attachments.get? b.id :=
    (hboth b (List.mem_append_right below hb)).2
  rw [manager?, managerNumber?_of_path? (Forest.path?_of_append hwf'.nodup_ids hp'),
    findSome?_congr hattached, hmanagers] at hm
  rw [manager?, managerNumber?_of_path? (Forest.path?_of_append hwf.nodup_ids hp)]
  exact hm

/-- A change of the managers announces itself if a manager that is valid afterwards was so before, and
computes the same. -/
theorem announces_of_managers (htree : s'.tree = s.tree) (hstyles : s'.styles = s.styles)
    (hattachments : s'.attachments = s.attachments)
    (hmanagers : ∀ (number : Nat) (m' : StyleManager), s'.managers[number]? = some m' →
      m'.valid = true → ∃ m, s.managers[number]? = some m ∧ m.valid = true ∧
        ∀ lineage context, m'.computeStyle lineage context = m.computeStyle lineage context) :
    s.Announces s' := by
  intro id n above hp _
  rw [htree] at hp
  refine ⟨hp, fun a _ => by rw [htree], fun a _ => by rw [stylesOf, stylesOf, hstyles], ?_⟩
  intro a _ m' hm' hvalid
  obtain ⟨number, hnumber, hlookup⟩ := Option.bind_eq_some_iff.mp hm'
  rw [managerNumber?, htree, hattachments] at hnumber
  obtain ⟨m, hm, hbefore, hcompute⟩ := hmanagers number m' hlookup hvalid
  refine ⟨m, ?_, hbefore, hcompute⟩
  rw [manager?, managerNumber?, hnumber]
  exact hm

/-- Adoption changes nothing about living nodes. -/
theorem announces_sync (hwf : s.tree.WellFormed) : s.Announces s.sync := by
  refine @announces_of_changesMarked s s.sync hwf hwf (.refl s.tree) rfl ?_
  intro id n above hp _ a ha
  have hlive := contains_of_mem_path hp ha
  exact ⟨stylesOf_sync hwf hlive, attachments_sync hlive⟩

/-! ## §2 Every action -/

/-- The slot of a node that lives beside another is not the other's. -/
theorem index_ne_of_ne {t : NodeTree} (hwf : t.WellFormed) {id k : NodeId}
    (hid : t.contains id = true) (hk : t.contains k = true) (hne : id ≠ k) : id.index ≠ k.index :=
  fun hslot => hne (hwf.eq_of_index_eq (NodeTree.contains_iff.mp hid) (NodeTree.contains_iff.mp hk)
    hslot)

/-- Where a node and everything below it gets marked, the path of an unmarked node avoids it. -/
theorem ne_of_clean_marked {t : NodeTree} (hwf : t.WellFormed) {x : NodeId}
    (hx : t.contains x = true) {id : NodeId} {n : Node} {above : List Node}
    (hp : (t.marked x).path? id = some (n :: above)) (hclean : n.dirty = false) {b : Node}
    (hb : b ∈ n :: above) : b.id ≠ x ∧ b.id.index ≠ x.index := by
  obtain ⟨hpt, hmem⟩ := NodeTree.ChangesMarked.path?_of_clean_marked hwf.nodup_ids hp hclean
  have hne : b.id ≠ x := fun heq => hmem (heq ▸ List.mem_map_of_mem hb)
  exact ⟨hne, index_ne_of_ne hwf (contains_of_mem_path hpt hb) hx hne⟩

/-- New styles for a node do not show on paths that avoid it. -/
theorem stylesOf_insert_of_ne {styles : NodeStyles} {x k : NodeId} (hslot : k.index ≠ x.index)
    (hs' : s'.styles = s.styles.insert x styles) : s'.stylesOf k = s.stylesOf k := by
  rw [stylesOf, stylesOf, hs', NodeMap.get?_insert_of_index_ne _ _ hslot]

/-- **What an action of a discreet host does not compute, it announces.** -/
theorem StepsTo.announces_or_computes {a : SceneAction} (h : s.StepsTo a s') (ha : a.Discreet)
    (hk : s.WellKept) :
    s.renewed a = [] ∧ s.Announces s' ∨
      s.sync.Settles (s.renewed a) ∧
        (s' = s.sync.recomputeAll (s.renewed a) ∨ a = .updateStyles ∧ s' = s.passed) := by
  have hwf := hk.tree
  have hwf' := h.wellFormed hwf
  cases h with
  | refused hnobody =>
    exact Or.inl ⟨hnobody, announces_of_changesMarked hwf hwf (.refl s.tree) rfl
      fun _ _ _ _ _ _ _ => ⟨rfl, rfl⟩⟩
  | @editTree e t' h =>
    -- a discreet host takes no marks away
    rcases h.changesMarked_or_cleaned hwf with hmarked | ⟨x, rfl, -⟩
    · exact Or.inl ⟨rfl, @announces_of_changesMarked s (s.withTree t') hwf hwf' hmarked rfl
        fun _ _ _ _ _ _ _ => ⟨rfl, rfl⟩⟩
    · exact ha.elim
  | @grow _ e kind t' h he hlive hnobody =>
    have hmarked : s.tree.ChangesMarked t' := by
      rcases h.changesMarked_or_cleaned hwf with hmarked | ⟨x, rfl, -⟩
      · exact hmarked
      · rcases he with ⟨tag, he⟩ | ⟨parent, tag, he⟩ <;> cases he
    refine Or.inl ⟨hnobody, @announces_of_changesMarked s (s.grown s.tree.pool.take.1 kind t') hwf hwf'
      hmarked rfl fun id n above hp hclean b hb => ⟨stylesOf_insert_of_ne ?_ rfl, rfl⟩⟩
    -- the new node is on no old path
    have hold := contains_of_mem_path (hmarked id n above hp hclean).1 hb
    apply index_ne_of_ne hwf' (contains_of_mem_path hp hb) (hlive hwf)
    intro heq
    exact hwf.take_not_mem (heq ▸ NodeTree.contains_iff.mp hold)
  | @destroy x t' h =>
    rcases h.changesMarked_or_cleaned hwf with hmarked | ⟨y, he, -⟩
    · refine Or.inl ⟨rfl, @announces_of_changesMarked s (s.withTree t').forgetDead hwf hwf' hmarked rfl
        fun id n above hp _ b hb => ?_⟩
      have hlive : t'.contains b.id = true := contains_of_mem_path hp hb
      refine ⟨?_, ?_⟩
      · exact congrArg (Option.getD · _) ((s.withTree t').styles_forgetDead hlive)
      · exact attachments_sync (s := s.withTree t') hlive
    · cases he
  | addManager config =>
    refine Or.inl ⟨rfl, @announces_of_managers s (s.addManager config) rfl rfl rfl ?_⟩
    intro number m' hm' hvalid
    have hlookup : (s.managers ++ [StyleManager.new config])[number]? = some m' := hm'
    rw [List.getElem?_append] at hlookup
    split at hlookup
    · exact ⟨m', hlookup, hvalid, fun _ _ => rfl⟩
    · -- a new manager is not valid
      rw [List.mem_singleton.mp (List.mem_of_getElem? hlookup)] at hvalid
      cases hvalid
  | editManager number e =>
    refine Or.inl ⟨rfl, @announces_of_managers s (s.modifyManager number fun m => m.after e)
      rfl rfl rfl fun i m' hm' hvalid => ?_⟩
    have hlookup : (s.managers.modify number fun m => m.after e)[i]? = some m' := hm'
    rw [List.getElem?_modify] at hlookup
    obtain ⟨m, hm, rfl⟩ := Option.map_eq_some_iff.mp hlookup
    obtain ⟨horderly, hwatched⟩ := hk.managers m (List.mem_of_getElem? hm)
    split at hvalid
    · -- an edit that leaves the manager valid has changed no style
      rename_i hi
      obtain ⟨hbefore, hcompute⟩ := StyleManager.valid_after horderly hwatched ha hvalid
      rw [if_pos hi]
      exact ⟨m, hm, hbefore, hcompute⟩
    · rename_i hi
      rw [if_neg hi]
      exact ⟨m, hm, hvalid, fun _ _ => rfl⟩
  | @attach x number hlive =>
    refine Or.inl ⟨rfl, @announces_of_changesMarked s { s with
      tree := s.tree.marked x, attachments := s.attachments.insert x number } hwf hwf'
      (.marked hwf.nodup_ids x) rfl fun id n above hp hclean b hb => ⟨rfl, ?_⟩⟩
    exact NodeMap.get?_insert_of_index_ne _ _ (ne_of_clean_marked hwf hlive hp hclean hb).2
  | @detach x hlive =>
    refine Or.inl ⟨rfl, @announces_of_changesMarked s { s with
      tree := s.tree.marked x, attachments := s.attachments.erase x } hwf hwf'
      (.marked hwf.nodup_ids x) rfl fun id n above hp hclean b hb => ⟨rfl, ?_⟩⟩
    exact (NodeMap.get?_erase _ _ _).trans
      (if_neg (ne_of_clean_marked hwf hlive hp hclean hb).1)
  | @restyle _ x styles hlive hnobody =>
    refine Or.inl ⟨hnobody, @announces_of_changesMarked s (s.restyled x styles) hwf hwf'
      (.marked hwf.nodup_ids x) rfl fun id n above hp hclean b hb => ⟨?_, rfl⟩⟩
    exact stylesOf_insert_of_ne (ne_of_clean_marked hwf hlive hp hclean hb).2 rfl
  | settle h => exact Or.inr ⟨h hwf, Or.inl rfl⟩
  | pass => exact Or.inr ⟨settles_agenda (s := s.sync) hwf.nodup_ids, Or.inr ⟨rfl, rfl⟩⟩

end Scene

end StyledScene
