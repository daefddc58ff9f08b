import StyledScene.Proofs.Cascade.Validity
import StyledScene.Proofs.Scene.Steps
import StyledScene.Proofs.Tree.Roots

/-!
# Well-hosted scenes

A discreet host leaves marks, validity and the watching of stores to the library (`Discreet`); then every
manager keeps its promise of validity (`StepsTo.wellKept`). A careful host moreover attaches managers to
nodes without a parent, and gives no parent to a node that carries a manager (`Admissible`). In a scene
that such a host has made, all nodes of a tree use the manager of their root (`manager?_above`).
-/

namespace StyledScene

/-! ## §1 The disciplines -/

/-- The action leaves marks, validity and the watching of stores to the library. -/
def SceneAction.Discreet : SceneAction → Prop
  | .editTree (.clearDirty _) => False
  | .editManager _ e => e.Tracked
  | _ => True

/-- The action is one of a careful host. -/
def SceneAction.Admissible (s : Scene) : SceneAction → Prop
  | .editTree (.setParent id (some _)) => s.tree.contains id = true → s.attachments.get? id = none
  | .editTree (.clearDirty _) => False
  | .editManager _ e => e.Tracked
  | .attach id _ => s.tree.parentId? id = none
  | _ => True

/-- A careful host is discreet. -/
theorem SceneAction.Admissible.discreet {s : Scene} {a : SceneAction} (h : a.Admissible s) :
    a.Discreet := by
  cases a with
  | editTree e =>
    cases e with
    | clearDirty id => exact h
    | _ => trivial
  | editManager number e => exact h
  | _ => trivial

namespace Scene

/-- The scenes that careful hosts make. -/
inductive Hosted : Scene → Prop where
  | empty : Hosted Scene.empty
  | step {s : Scene} {a : SceneAction} (h : Hosted s) (ha : a.Admissible s) : Hosted (s.after a)

/-- Every action of the run is one of a careful host, at its turn. -/
def AdmissibleRun (s : Scene) : List SceneAction → Prop
  | [] => True
  | a :: actions => a.Admissible s ∧ (s.after a).AdmissibleRun actions

theorem Hosted.run {s : Scene} {actions : List SceneAction} (h : s.Hosted)
    (hactions : s.AdmissibleRun actions) : (s.run actions).Hosted := by
  induction actions generalizing s with
  | nil => exact h
  | cons a actions ih => exact ih (h.step hactions.1) hactions.2

/-! ## §2 What discretion keeps -/

/-- The tree is well formed, and every manager is well kept. -/
structure WellKept (s : Scene) : Prop where
  tree : s.tree.WellFormed
  managers : ∀ m ∈ s.managers, m.Orderly ∧ m.Watched

theorem wellKept_empty : empty.WellKept where
  tree := NodeTree.wellFormed_empty
  managers m h := by cases h

/-- Validity is neither here nor there for a manager that is well kept. -/
theorem kept_validated {s : Scene} (h : ∀ m ∈ s.managers, m.Orderly ∧ m.Watched)
    (found : List Visit) : ∀ m ∈ (s.validated found).managers, m.Orderly ∧ m.Watched := by
  intro m hm
  obtain ⟨number, hnumber, rfl⟩ := List.mem_mapIdx.mp hm
  obtain ⟨horderly, hwatched⟩ := h _ (List.getElem_mem hnumber)
  split
  · exact ⟨horderly.of_sublist (List.Sublist.refl _) (Nat.le_refl _),
      hwatched.listed, hwatched.everywhere⟩
  · exact ⟨horderly, hwatched⟩

theorem StepsTo.kept {s s' : Scene} {a : SceneAction} (h : s.StepsTo a s') (ha : a.Discreet)
    (hkept : ∀ m ∈ s.managers, m.Orderly ∧ m.Watched) :
    ∀ m ∈ s'.managers, m.Orderly ∧ m.Watched := by
  cases h with
  | addManager config =>
    intro m hm
    rcases List.mem_append.mp hm with hold | hnew
    · exact hkept m hold
    · -- a new manager has no declarations
      rw [List.mem_singleton.mp hnew]
      exact ⟨StyleManager.orderly_new config, StyleManager.watched_new config⟩
  | editManager number e =>
    intro m hm
    obtain ⟨i, hi⟩ := List.mem_iff_getElem?.mp hm
    rw [show (s.modifyManager number fun m => m.after e).managers =
      s.managers.modify number fun m => m.after e from rfl, List.getElem?_modify] at hi
    obtain ⟨m₀, hm₀, rfl⟩ := Option.map_eq_some_iff.mp hi
    obtain ⟨horderly, hwatched⟩ := hkept m₀ (List.mem_of_getElem? hm₀)
    split
    · exact ⟨horderly.after e, hwatched.after ha⟩
    · exact ⟨horderly, hwatched⟩
  | settle _ =>
    rw [managers_recomputeAll]
    exact hkept
  | pass =>
    apply kept_validated
    rw [managers_recomputeAll]
    exact hkept
  | _ => exact hkept

/-- **A discreet host keeps a scene well kept.** -/
theorem StepsTo.wellKept {s s' : Scene} {a : SceneAction} (h : s.StepsTo a s') (ha : a.Discreet)
    (hk : s.WellKept) : s'.WellKept :=
  ⟨h.wellFormed hk.tree, h.kept ha hk.managers⟩

/-! ## §3 What care keeps -/

/-- Managers are attached to roots only, and every manager is well kept. -/
structure WellHosted (s : Scene) : Prop where
  tree : s.tree.WellFormed
  /-- Attachments outlive their nodes, but never pass to others. -/
  issued : ∀ id, s.attachments.contains id = true → s.tree.Issued id
  rooted : ∀ id, s.attachments.contains id = true → s.tree.contains id = true →
    id ∈ s.tree.forest.rootIds
  orderly : ∀ m ∈ s.managers, m.Orderly
  watched : ∀ m ∈ s.managers, m.Watched

theorem wellHosted_empty : empty.WellHosted where
  tree := NodeTree.wellFormed_empty
  issued id h := by cases h
  rooted id h := by cases h
  orderly m h := by cases h
  watched m h := by cases h

namespace WellHosted

variable {s s' : Scene}

/-- Only the tree and the attachments of dead nodes have changed. -/
theorem of_edit (hk : s.WellHosted) {e : TreeEdit} (h : s.tree.EditsTo e s'.tree)
    (hattachments : ∀ id, s'.attachments.contains id = true → s.attachments.contains id = true)
    (hmanagers : s'.managers = s.managers)
    (hstay : ∀ id p, s.tree.contains id = true → s.attachments.contains id = true →
      e ≠ .setParent id (some p)) : s'.WellHosted where
  tree := h.wellFormed hk.tree
  issued id hid := h.issued hk.tree (hk.issued id (hattachments id hid))
  rooted id hid hlive := by
    -- an id that lives after the edit and was attached before it lived before it
    have hold := hattachments id hid
    have hlive' := NodeTree.contains_iff.mp hlive
    have hbefore := h.mem_ids_of_issued hk.tree (hk.issued id hold) hlive'
    refine h.mem_rootIds hk.tree (hk.rooted id hold (NodeTree.contains_iff.mpr hbefore)) hlive' ?_
    exact fun p => hstay id p (NodeTree.contains_iff.mpr hbefore) hold
  orderly := hmanagers ▸ hk.orderly
  watched := hmanagers ▸ hk.watched

/-- Only marks, styles and managers have changed. -/
theorem of_equalUpToMarks (hk : s.WellHosted) (h : s.tree.EqualUpToMarks s'.tree)
    (hattachments : ∀ id, s'.attachments.contains id = true → s.attachments.contains id = true)
    (hmanagers : ∀ m ∈ s'.managers, m.Orderly ∧ m.Watched) : s'.WellHosted where
  tree := hk.tree.of_equalUpToMarks h
  issued id hid := (hk.issued id (hattachments id hid)).of_perm ⟨by rw [h.ids], h.2.1⟩
  rooted id hid hlive := by
    rw [h.rootIds]
    exact hk.rooted id (hattachments id hid) ((h.contains id).symm.trans hlive)
  orderly m hm := (hmanagers m hm).1
  watched m hm := (hmanagers m hm).2

theorem wellKept (hk : s.WellHosted) : s.WellKept :=
  ⟨hk.tree, fun m hm => ⟨hk.orderly m hm, hk.watched m hm⟩⟩

theorem sync (hk : s.WellHosted) : s.sync.WellHosted := by
  exact @of_equalUpToMarks s s.sync hk (.refl s.tree) (fun id hid => NodeMap.contains_of_retain hid)
    hk.wellKept.managers

theorem recomputeAll (hk : s.WellHosted) (due : List (NodeId × StyleManager)) :
    (s.recomputeAll due).WellHosted := by
  refine hk.of_equalUpToMarks (s.equalUpToMarks_recomputeAll due) (fun id hid => ?_) ?_
  · rw [attachments_recomputeAll] at hid
    exact hid
  · rw [managers_recomputeAll]
    exact hk.wellKept.managers

theorem validated (hk : s.WellHosted) (found : List Visit) : (s.validated found).WellHosted :=
  @of_equalUpToMarks s (s.validated found) hk (.refl s.tree) (fun _ hid => hid)
    (kept_validated hk.wellKept.managers found)

end WellHosted

/-- **A careful host keeps a scene well hosted.** -/
theorem StepsTo.wellHosted {s s' : Scene} {a : SceneAction} (h : s.StepsTo a s')
    (ha : a.Admissible s) (hk : s.WellHosted) : s'.WellHosted := by
  have hkept := h.kept ha.discreet hk.wellKept.managers
  cases h with
  | refused _ => exact hk
  | @editTree e t' h =>
    refine @WellHosted.of_edit s (s.withTree t') hk e h (fun id hid => hid) rfl ?_
    rintro id p hlive hattached rfl
    -- a careful host moves no node that carries a manager
    have hnone : s.attachments.get? id = none := ha hlive
    rw [NodeMap.contains, hnone] at hattached
    cases hattached
  | @grow _ e kind t' h he hlive =>
    refine @WellHosted.of_edit s (s.grown s.tree.pool.take.1 kind t') hk e h (fun id hid => hid) rfl ?_
    rintro id p - - rfl
    rcases he with ⟨tag, he⟩ | ⟨parent, tag, he⟩ <;> cases he
  | @destroy x t' h =>
    refine @WellHosted.of_edit s (s.withTree t').forgetDead hk _ h
      (fun id hid => NodeMap.contains_of_retain hid) rfl ?_
    rintro id p - - he
    cases he
  | addManager config =>
    exact @WellHosted.of_equalUpToMarks s (s.addManager config) hk (.refl s.tree)
      (fun id hid => hid) hkept
  | editManager number e =>
    exact @WellHosted.of_equalUpToMarks s (s.modifyManager number fun m => m.after e) hk
      (.refl s.tree) (fun id hid => hid) hkept
  | @attach x number hlive =>
    have hsame := NodeTree.EqualUpToMarks.marked s.tree x
    have hx : x ∈ s.tree.forest.rootIds :=
      (NodeTree.mem_rootIds_iff_parentId? hk.tree.nodup_ids).mpr ⟨hlive, ha⟩
    refine ⟨hk.tree.of_equalUpToMarks hsame, fun id hid => ?_, fun id hid hid' => ?_, hk.orderly,
      hk.watched⟩
    · have hissued : s.tree.Issued id := by
        rcases NodeMap.contains_of_insert hid with rfl | hold
        · exact hk.tree.issued_of_mem (NodeTree.contains_iff.mp hlive)
        · exact hk.issued id hold
      exact hissued.of_perm ⟨by rw [hsame.ids], hsame.2.1⟩
    · rw [hsame.rootIds]
      rcases NodeMap.contains_of_insert hid with rfl | hold
      · exact hx
      · exact hk.rooted id hold ((hsame.contains id).symm.trans hid')
  | @detach x hlive =>
    exact hk.of_equalUpToMarks (.marked s.tree x) (fun id hid => NodeMap.contains_of_erase hid) hkept
  | @restyle _ x styles hlive =>
    exact @WellHosted.of_equalUpToMarks s (s.restyled x styles) hk (.marked s.tree x)
      (fun id hid => hid) hkept
  | settle h => exact hk.sync.recomputeAll _
  | pass => exact (hk.sync.recomputeAll _).validated _

theorem Hosted.wellHosted {s : Scene} (h : s.Hosted) : s.WellHosted := by
  induction h with
  | empty => exact wellHosted_empty
  | @step s a _ ha ih => exact (s.stepsTo_after a).wellHosted ha ih

/-! ## §4 One manager for a tree -/

/-- Above the root there is no manager, and below it none either. -/
theorem WellHosted.manager?_above {s : Scene} (hk : s.WellHosted) {id : NodeId} {n q : Node}
    {up : List Node} (hp : s.tree.path? id = some (n :: q :: up)) :
    s.manager? id = s.manager? q.id := by
  have hnone : s.attachments.get? n.id = none := by
    apply Option.not_isSome_iff_eq_none.mp
    intro hattached
    have hlive := contains_of_mem_path hp (n := n) List.mem_cons_self
    -- a node with a manager has no parent, but this one has
    have hroot := (NodeTree.mem_rootIds_iff_parentId? hk.tree.nodup_ids).mp
      (hk.rooted n.id hattached hlive)
    rw [Forest.id_of_path? hp, NodeTree.parentId?_of_path? hp] at hroot
    cases hroot.2
  rw [manager?, manager?, managerNumber?_of_path? hp,
    managerNumber?_of_path? (Forest.path?_above hk.tree.nodup_ids hp), List.findSome?_cons, hnone]

end Scene

end StyledScene
