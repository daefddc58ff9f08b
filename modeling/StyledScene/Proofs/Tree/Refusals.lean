import StyledScene.Proofs.Tree.Simulation

/-!
# Refused edits

An edit of a tree is refused for one of two reasons: one of the ids that it is given is not alive, or it
would put a node under itself or under something below it (`refusal?`). Main statement: every edit of a
well-formed tree is refused for that reason, and made if there is none (`edit_eq_error_iff`).
-/

namespace StyledScene

/-- The ids that an edit is given, in the order in which they are looked up. -/
def TreeEdit.arguments : TreeEdit → List NodeId
  | .create _ => []
  | .createChild parent _ => [parent]
  | .setParent id parent => id :: parent.toList
  | .destroy id | .pushTag id _ | .setAuthorId id _ | .addClass id _ | .removeClass id _
  | .toggleClass id _ | .setState id _ _ | .markDirty id | .clearDirty id => [id]

namespace NodeTree

variable {t : NodeTree}

/-! ## §1 Below a node -/

/-- A node is under another if it comes up in the pre-order of that other. -/
theorem isUnder_iff_mem_preorder (hnd : t.forest.ids.Nodup) {ancestor id : NodeId} :
    t.isUnder ancestor id = true ↔ ∃ ids, t.preorder ancestor = .ok ids ∧ id ∈ ids := by
  constructor
  · intro h
    unfold isUnder at h
    split at h
    · rename_i path hpath
      obtain ⟨a, ha, hid⟩ := List.any_eq_true.mp h
      obtain rfl := beq_iff_eq.mp hid
      have hlive := Forest.mem_ids_of_mem_path hpath ha
      obtain ⟨sub, hsub⟩ := Option.isSome_iff_exists.mp ((Forest.subtree?_isSome a.id _).mpr hlive)
      refine ⟨a.id :: sub.2.ids, ask_eq_ok_iff.mpr ⟨sub, hsub, rfl⟩, ?_⟩
      rw [← subtree?_id hsub, List.mem_cons, ← Forest.mem_ids_single]
      -- the node does not stay when the other is taken out
      have hsplit := (ids_perm_detached hnd hsub).mem_iff.mp (Forest.mem_ids_of_path? hpath)
      refine (List.mem_append.mp hsplit).resolve_right fun hstays => ?_
      rw [ids_detached] at hstays
      obtain ⟨path', hpath'⟩ := Forest.exists_path? hstays
      obtain ⟨hpath', hnot⟩ := (Forest.path?_prune_iff hnd).mp hpath'
      obtain rfl := Option.some.inj (hpath.symm.trans hpath')
      exact hnot (List.mem_map_of_mem ha)
    · cases h
  · rintro ⟨ids, hids, hmem⟩
    obtain ⟨sub, hsub, rfl⟩ := ask_eq_ok_iff.mp hids
    rw [← subtree?_id hsub, List.mem_cons, ← Forest.mem_ids_single] at hmem
    have hlive : t.contains id = true := contains_iff.mpr (Forest.ids_single_subset hsub hmem)
    by_contra hnot
    have hstays := mem_ids_detached_of_not_isUnder hnd hlive (Bool.eq_false_iff.mpr hnot)
    rw [ids_detached] at hstays
    exact not_mem_ids_prune_of_mem_single hnd hsub hmem hstays

/-! ## §2 Reasons -/

/-- The reason for which an edit is refused, if there is one: the first id that is not alive, or else a
new parent that lies under the node. -/
def refusal? (t : NodeTree) (e : TreeEdit) : Option TreeError :=
  match e.arguments.find? fun id => !t.contains id with
  | some id => some (.invalidNode id)
  | none =>
    match e with
    | .setParent id (some parent) =>
      if t.isUnder id parent then some (.circularParentage id parent) else none
    | _ => none

theorem map_eq_error_iff {α β ε : Type} {r : Except ε α} {f : α → β} {e : ε} :
    r.map f = .error e ↔ r = .error e := by
  cases r <;> simp [Except.map]

/-- What is asked of one node is refused if that node is not alive. -/
theorem ask_eq_error_iff_find? {id : NodeId} {α : Type} {answer : Node → Forest → α}
    {err : TreeError} :
    t.ask id answer = .error err ↔
      ([id].find? fun k => !t.contains k).map TreeError.invalidNode = some err := by
  rw [ask_eq_error_iff, List.find?_singleton]
  cases t.contains id with
  | false => simp [@eq_comm _ err]
  | true => simp

theorem toggleClass_eq_error_iff {id : NodeId} {name : String} {err : TreeError} :
    t.toggleClass id name = .error err ↔
      ([id].find? fun k => !t.contains k).map TreeError.invalidNode = some err := by
  have hask {α : Type} (answer : Node → Forest → α) :=
    @ask_eq_error_iff_find? t id α answer err
  rw [← hask fun n _ => n.hasClass name]
  unfold toggleClass hasClass
  cases hhas : t.ask id fun n _ => n.hasClass name with
  | error e => simp
  | ok has =>
    -- both ways of going on ask the same node
    have hgo (edit : Node → Option Node) : t.revise id edit ≠ .error err := by
      intro h
      have hdead := (hask _).mp h
      rw [← hask fun n _ => n.hasClass name, hhas] at hdead
      cases hdead
    cases has with
    | false => simpa [addClass] using hgo _
    | true => simpa [removeClass, map_eq_error_iff] using hgo _

theorem createChild_eq_error_iff (hwf : t.WellFormed) {parent : NodeId} {tag : String}
    {err : TreeError} :
    t.createChild parent tag = .error err ↔
      ([parent].find? fun k => !t.contains k).map TreeError.invalidNode = some err := by
  unfold createChild
  cases hlive : t.contains parent with
  | false => simp [hlive]
  | true =>
    -- the new node can be put there
    obtain ⟨placed, hplaced⟩ := exists_setParent_create hwf tag hlive
    simp [hlive, hplaced, Except.map]

theorem setParent_eq_error_iff {id : NodeId} {parent : Option NodeId} {err : TreeError} :
    t.setParent id parent = .error err ↔ t.refusal? (.setParent id parent) = some err := by
  unfold setParent refusal? TreeEdit.arguments
  cases hsub : t.subtree? id with
  | none =>
    have hdead : t.contains id = false := by rw [NodeTree.contains, hsub]; rfl
    simp [hdead]
  | some sub =>
    have hlive : t.contains id = true := by rw [NodeTree.contains, hsub]; rfl
    cases parent with
    | none => simp [hlive]
    | some p =>
      cases hp : t.contains p with
      | false => simp [hlive, hp]
      | true => cases hunder : t.isUnder id p <;> simp [hlive, hp, hunder]

/-- Only what puts a node under another can make a circle. -/
theorem refusal?_of_ne_setParent {e : TreeEdit} (he : ∀ id parent, e ≠ .setParent id (some parent)) :
    t.refusal? e = (e.arguments.find? fun k => !t.contains k).map TreeError.invalidNode := by
  unfold refusal?
  cases e.arguments.find? fun k => !t.contains k with
  | some k => rfl
  | none =>
    -- the branch for circles is not taken
    simp

/-- **Every edit is refused for its reason, and made if there is none.** -/
theorem edit_eq_error_iff (hwf : t.WellFormed) (e : TreeEdit) {err : TreeError} :
    t.edit e = .error err ↔ t.refusal? e = some err := by
  cases e with
  | create tag => simp [edit, refusal?, TreeEdit.arguments]
  | createChild parent tag =>
    rw [refusal?_of_ne_setParent fun _ _ heq => by cases heq]
    exact map_eq_error_iff.trans (createChild_eq_error_iff hwf)
  | setParent id parent => exact map_eq_error_iff.trans setParent_eq_error_iff
  | toggleClass id name =>
    rw [refusal?_of_ne_setParent fun _ _ heq => by cases heq]
    exact map_eq_error_iff.trans toggleClass_eq_error_iff
  | destroy id | pushTag id tag | setAuthorId id value | addClass id name | removeClass id name
  | setState id flags on | markDirty id | clearDirty id =>
    -- these ask the one node that they are given
    rw [refusal?_of_ne_setParent fun _ _ heq => by cases heq]
    exact map_eq_error_iff.trans ask_eq_error_iff_find?

theorem refusal?_eq_invalidNode_iff {e : TreeEdit} {id : NodeId} :
    t.refusal? e = some (.invalidNode id) ↔
      (e.arguments.find? fun k => !t.contains k) = some id := by
  unfold refusal?
  cases hfind : e.arguments.find? fun k => !t.contains k with
  | some k => simp
  | none =>
    simp only [reduceCtorEq, iff_false]
    intro h
    split at h
    · split at h <;> cases h
    · cases h

theorem refusal?_eq_circularParentage_iff (hnd : t.forest.ids.Nodup) {e : TreeEdit}
    {child parent : NodeId} :
    t.refusal? e = some (.circularParentage child parent) ↔
      e = .setParent child (some parent) ∧ t.contains child = true ∧ t.contains parent = true ∧
        ∃ ids, t.preorder child = .ok ids ∧ parent ∈ ids := by
  rw [← isUnder_iff_mem_preorder hnd]
  constructor
  · intro h
    unfold refusal? at h
    split at h
    · cases h
    · rename_i hlive
      split at h
      · rename_i id p
        split at h
        · rename_i hunder
          obtain ⟨rfl, rfl⟩ := TreeError.circularParentage.inj (Option.some.inj h)
          simp only [TreeEdit.arguments, Option.toList, List.find?_eq_none, List.mem_cons,
            List.not_mem_nil, or_false, forall_eq_or_imp, forall_eq, Bool.not_eq_true',
            Bool.not_eq_false] at hlive
          exact ⟨rfl, hlive.1, hlive.2, hunder⟩
        · cases h
      · cases h
  · rintro ⟨rfl, hchild, hparent, hunder⟩
    simp [refusal?, TreeEdit.arguments, hchild, hparent, hunder]

end NodeTree

end StyledScene
