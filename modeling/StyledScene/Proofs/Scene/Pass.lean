import StyledScene.Proofs.Scene.Visits

/-!
# The pass and its agenda

A frame pass decides node by node: it claims managers as it meets them, makes them valid at once, and
remembers whether they were. What it decides can be told beforehand: it computes anew exactly the
nodes on the agenda of the scene that it started with, in that order, and in the end the managers of
all the nodes that it met are valid (`framePass_eq`). In particular a pass never fails, although each of
its steps could.
-/

namespace StyledScene

namespace Scene

/-! ## §1 The outcome told beforehand -/

/-- Whether a visited node uses the manager with a number. -/
def uses (found : List Visit) (number : Nat) : Bool :=
  found.any fun v => v.manager == some number

/-- The scene with every manager valid that a visited node uses. -/
def validated (s : Scene) (found : List Visit) : Scene :=
  { s with
    managers := s.managers.mapIdx fun number m => if uses found number then m.markValid else m }

/-- Computes styles anew, one after the other. -/
def recomputeAll (s : Scene) (due : List (NodeId × StyleManager)) : Scene :=
  due.foldl (fun scene entry => scene.recompute entry.2 entry.1) s

theorem recomputeAll_append (s : Scene) (due due' : List (NodeId × StyleManager)) :
    s.recomputeAll (due ++ due') = (s.recomputeAll due).recomputeAll due' :=
  List.foldl_append

/-- Computing styles does not touch managers, nor does it ask whether they are valid. -/
theorem recompute_validated (s : Scene) (found : List Visit) (m : StyleManager) (id : NodeId) :
    (s.validated found).recompute m id = (s.recompute m id).validated found := rfl

@[simp] theorem managers_recomputeAll (s : Scene) (due : List (NodeId × StyleManager)) :
    (s.recomputeAll due).managers = s.managers := by
  induction due generalizing s with
  | nil => rfl
  | cons entry due ih => exact ih (s.recompute entry.2 entry.1)

@[simp] theorem attachments_recomputeAll (s : Scene) (due : List (NodeId × StyleManager)) :
    (s.recomputeAll due).attachments = s.attachments := by
  induction due generalizing s with
  | nil => rfl
  | cons entry due ih => exact ih (s.recompute entry.2 entry.1)

/-- Computing styles takes marks away and leaves the tree alone otherwise. -/
theorem equalUpToMarks_recomputeAll (s : Scene) (due : List (NodeId × StyleManager)) :
    s.tree.EqualUpToMarks (s.recomputeAll due).tree := by
  induction due generalizing s with
  | nil => exact .refl s.tree
  | cons entry due ih =>
    exact (NodeTree.EqualUpToMarks.cleaned s.tree entry.1).trans (ih (s.recompute entry.2 entry.1))

theorem getElem?_validated (s : Scene) (found : List Visit) (number : Nat) :
    (s.validated found).managers[number]? =
      if uses found number then s.managers[number]?.map StyleManager.markValid
      else s.managers[number]? := by
  rw [validated, List.getElem?_mapIdx]
  split <;> cases s.managers[number]? <;> simp_all

theorem uses_append (found found' : List Visit) (number : Nat) :
    uses (found ++ found') number = (uses found number || uses found' number) := by
  rw [uses, List.any_append]
  rfl

theorem uses_singleton {v : Visit} {number : Nat} (hv : v.manager = some number) (i : Nat) :
    uses [v] i = (number == i) := by
  simp [uses, hv]

theorem validated_congr (s : Scene) {found found' : List Visit}
    (h : ∀ number m, s.managers[number]? = some m → uses found number = uses found' number) :
    s.validated found = s.validated found' := by
  unfold validated
  congr 1
  apply List.ext_getElem?
  intro number
  rw [List.getElem?_mapIdx, List.getElem?_mapIdx]
  cases hm : s.managers[number]? with
  | none => rfl
  | some m => rw [Option.map_some, Option.map_some, h number m hm]

theorem validated_nil (s : Scene) : s.validated [] = s := by
  obtain ⟨tree, styles, attachments, managers⟩ := s
  unfold validated
  congr 1
  apply List.ext_getElem?
  intro number
  rw [List.getElem?_mapIdx]
  cases managers[number]? <;> rfl

/-- Meeting one more node makes its manager valid. -/
theorem validated_append_singleton (s : Scene) (found : List Visit) {v : Visit} {number : Nat}
    (hv : v.manager = some number) :
    s.validated (found ++ [v]) =
      (s.validated found).modifyManager number StyleManager.markValid := by
  unfold validated modifyManager
  congr 1
  apply List.ext_getElem?
  intro i
  rw [List.getElem?_modify, List.getElem?_mapIdx, List.getElem?_mapIdx, uses_append,
    uses_singleton hv]
  cases s.managers[i]? with
  | none => simp
  | some m =>
    cases uses found i <;> by_cases hi : number = i <;> simp [hi]
    rfl

/-- Meeting one more node adds it to the agenda iff it is due. -/
theorem agenda_append_singleton (s : Scene) (found : List Visit) (v : Visit) :
    s.agenda (found ++ [v]) = s.agenda found ++ ((s.due? v).map fun m => (v.id, m)).toList := by
  rw [agenda, List.filterMap_append, ← agenda]
  cases hdue : s.due? v <;> simp [hdue]

/-! ## §2 What a pass keeps -/

variable {s : Scene}

/-- The state of a pass that has met some nodes. -/
structure Pass.Follows (s : Scene) (met : List Visit) (p : Pass) : Prop where
  scene : p.scene = (s.recomputeAll (s.agenda met)).validated met
  done : p.done = (s.agenda met).map Prod.fst
  /-- The managers of the nodes that were met are claimed, with whether they were valid. -/
  claimed : ∀ number, (p.claimed.find? fun entry => entry.1 == number).map Prod.snd =
    if uses met number then s.managers[number]?.map StyleManager.valid else none

theorem Pass.follows_start (s : Scene) : (Pass.start s).Follows s [] where
  scene := by
    show s = s.validated []
    exact (validated_nil s).symm
  done := rfl
  claimed number := by simp [Pass.start, uses]

namespace Pass.Follows

variable {met : List Visit} {p : Pass}

theorem getElem?_managers (h : p.Follows s met) (number : Nat) :
    p.scene.managers[number]? =
      if uses met number then s.managers[number]?.map StyleManager.markValid
      else s.managers[number]? := by
  rw [h.scene, getElem?_validated, managers_recomputeAll]

/-- Whoever is claimed was met. -/
theorem uses_of_claimed (h : p.Follows s met) {number : Nat} {entry : Nat × Bool}
    (hfound : p.claimed.find? (fun entry => entry.1 == number) = some entry) :
    uses met number = true := by
  have hclaimed := h.claimed number
  rw [hfound] at hclaimed
  split at hclaimed
  · assumption
  · cases hclaimed

/-- Of the managers that there are, those that nobody claimed were not met. -/
theorem not_uses_of_not_claimed (h : p.Follows s met) {number : Nat} {m₀ : StyleManager}
    (hfound : p.claimed.find? (fun entry => entry.1 == number) = none)
    (hm₀ : s.managers[number]? = some m₀) : ¬ uses met number = true := by
  intro huses
  have hclaimed := h.claimed number
  rw [hfound, hm₀, if_pos huses] at hclaimed
  cases hclaimed

/-- What a claim answers was settled when the pass began. -/
theorem claim_fst (h : p.Follows s met) {number : Nat} {m m₀ : StyleManager}
    (hm : p.scene.managers[number]? = some m) (hm₀ : s.managers[number]? = some m₀) :
    (p.claim number m).1 = m₀.valid := by
  unfold claim
  split
  · rename_i entry hfound
    have hclaimed := h.claimed number
    rw [hfound, hm₀, if_pos (h.uses_of_claimed hfound)] at hclaimed
    exact Option.some.inj hclaimed
  · rename_i hfound
    -- a manager that nobody claimed is still as it was
    rw [h.getElem?_managers, if_neg (h.not_uses_of_not_claimed hfound hm₀), hm₀] at hm
    rw [Option.some.inj hm]
    rfl

/-- Meeting a node again whose manager was met changes nobody's use. -/
theorem uses_append_of_uses {v : Visit} {number : Nat} (hv : v.manager = some number)
    (huses : uses met number = true) (i : Nat) : uses (met ++ [v]) i = uses met i := by
  rw [uses_append, uses_singleton hv]
  by_cases hi : number = i
  · rw [← hi, huses, Bool.true_or]
  · simp [hi]

theorem claim_snd (h : p.Follows s met) {v : Visit} {number : Nat} {m m₀ : StyleManager}
    (hv : v.manager = some number) (hm : p.scene.managers[number]? = some m)
    (hm₀ : s.managers[number]? = some m₀) :
    (p.claim number m).2.scene = (s.recomputeAll (s.agenda met)).validated (met ++ [v]) ∧
      (p.claim number m).2.done = p.done ∧
      ∀ i, ((p.claim number m).2.claimed.find? fun entry => entry.1 == i).map Prod.snd =
        if uses (met ++ [v]) i then s.managers[i]?.map StyleManager.valid else none := by
  have hfst := h.claim_fst hm hm₀
  unfold claim at hfst ⊢
  split
  · rename_i entry hfound
    -- a second claim changes nothing
    have hsame := uses_append_of_uses hv (h.uses_of_claimed hfound)
    refine ⟨?_, rfl, fun i => by rw [hsame, ← h.claimed]⟩
    rw [h.scene]
    exact validated_congr _ fun i _ _ => (hsame i).symm
  · rename_i hfound
    -- the first claim makes the manager valid and notes what it was
    simp only [hfound] at hfst
    refine ⟨?_, rfl, fun i => ?_⟩
    · show p.scene.modifyManager number StyleManager.markValid = _
      rw [h.scene, validated_append_singleton _ _ hv]
    · show ((p.claimed ++ [(number, m.valid)]).find? fun entry => entry.1 == i).map Prod.snd = _
      rw [List.find?_append, uses_append, uses_singleton hv]
      by_cases hi : number = i
      · subst hi
        rw [hfound]
        simpa [hm₀, StyleManager.swapValid] using hfst
      · have hclaimed := h.claimed i
        cases hfind : p.claimed.find? fun entry => entry.1 == i <;> rw [hfind] at hclaimed <;>
          simp [hi, ← hclaimed]

/-- A node is passed over if there is nobody to compute its style. -/
theorem visit_unmanaged (h : p.Follows s met) {v : Visit}
    (hlookup : (v.manager.bind fun number => s.managers[number]?) = none) :
    ∃ p', p.visit v = (.ok (), p') ∧ p'.Follows s (met ++ [v]) := by
  have hdue : s.due? v = none := by
    rw [due?, hlookup]
    rfl
  have hagenda := s.agenda_append_singleton met v
  rw [hdue, Option.map_none, Option.toList_none, List.append_nil] at hagenda
  -- the node makes no difference to the use of the managers that there are
  have hnone (i : Nat) (m : StyleManager) (hm : s.managers[i]? = some m) :
      uses (met ++ [v]) i = uses met i := by
    rw [uses_append]
    cases hv : v.manager with
    | none => simp [uses, hv]
    | some number =>
      rw [hv, Option.bind_some] at hlookup
      have hne : number ≠ i := by
        rintro rfl
        rw [hlookup] at hm
        cases hm
      simp [uses, hv, hne]
  refine ⟨p, ?_, ?_, hagenda ▸ h.done, fun i => ?_⟩
  · unfold Pass.visit
    cases hv : v.manager with
    | none => rfl
    | some number =>
      rw [hv, Option.bind_some] at hlookup
      have hm := h.getElem?_managers number
      rw [hlookup, Option.map_none, ite_self] at hm
      rw [Option.bind_some, hm]
      rfl
  · rw [h.scene, hagenda]
    exact validated_congr _ fun i m hm => (hnone i m (managers_recomputeAll s _ ▸ hm)).symm
  · rw [h.claimed i]
    cases hm : s.managers[i]? with
    | none => simp
    | some m => rw [hnone i m hm]

/-- A node that has a manager is computed anew iff it is due. -/
theorem visit_managed (h : p.Follows s met) {v : Visit} {number : Nat} {m₀ : StyleManager}
    (hv : v.manager = some number) (hm₀ : s.managers[number]? = some m₀)
    (hlive : s.tree.contains v.id = true) :
    ∃ p', p.visit v = (.ok (), p') ∧ p'.Follows s (met ++ [v]) := by
  have hm := h.getElem?_managers number
  rw [hm₀, Option.map_some] at hm
  -- whether it is valid makes no difference to what a manager computes
  obtain ⟨m, hm, hsame⟩ : ∃ m, p.scene.managers[number]? = some m ∧
      ∀ t : Scene, t.recompute m v.id = t.recompute m₀ v.id := by
    split at hm
    · exact ⟨_, hm, fun t => rfl⟩
    · exact ⟨_, hm, fun t => rfl⟩
  have hfst := h.claim_fst hm hm₀
  obtain ⟨hscene, hdone, hclaimed⟩ := h.claim_snd hv hm hm₀
  have hdue : s.due? v = if v.dirty || !m₀.valid then some m₀ else none := by
    rw [due?, hv, Option.bind_some, hm₀, Option.filter_some]
  have hagenda := s.agenda_append_singleton met v
  unfold Pass.visit
  rw [hv, Option.bind_some, hm, Option.map_some]
  rcases hclaim : p.claim number m with ⟨wasValid, claimed⟩
  rw [hclaim] at hfst hscene hdone hclaimed
  simp only [hclaim] at hfst hscene hdone hclaimed ⊢
  rw [hfst]
  split
  · rename_i hneeded
    rw [if_pos hneeded] at hdue
    rw [hdue, Option.map_some, Option.toList_some] at hagenda
    -- the node lives on, so that computing it does not fail
    have hthere : claimed.scene.tree.contains v.id = true := by
      rw [hscene]
      exact ((equalUpToMarks_recomputeAll s (s.agenda met)).contains v.id).trans hlive
    refine ⟨{ claimed with
      scene := claimed.scene.recompute m v.id, done := claimed.done ++ [v.id] }, ?_, ?_, ?_, ?_⟩
    · rw [tryRecompute, if_pos hthere]
    · show claimed.scene.recompute m v.id = _
      rw [hsame, hscene, recompute_validated, hagenda, recomputeAll_append]
      rfl
    · show claimed.done ++ [v.id] = _
      rw [hdone, h.done, hagenda, List.map_append]
      rfl
    · exact hclaimed
  · rename_i hneedless
    rw [if_neg hneedless] at hdue
    rw [hdue, Option.map_none, Option.toList_none, List.append_nil] at hagenda
    exact ⟨claimed, rfl, hagenda ▸ hscene, hagenda ▸ hdone.trans h.done, hclaimed⟩

/-- The next node is met without failure, and computed anew iff it is on the agenda. -/
theorem visit (h : p.Follows s met) {v : Visit} (hlive : s.tree.contains v.id = true) :
    ∃ p', p.visit v = (.ok (), p') ∧ p'.Follows s (met ++ [v]) := by
  cases hlookup : v.manager.bind fun number => s.managers[number]? with
  | none => exact h.visit_unmanaged hlookup
  | some m₀ =>
    obtain ⟨number, hv, hm₀⟩ := Option.bind_eq_some_iff.mp hlookup
    exact h.visit_managed hv hm₀ hlive

theorem visitAll (h : p.Follows s met) {todo : List Visit}
    (hlive : ∀ v ∈ todo, s.tree.contains v.id = true) :
    ∃ p', p.visitAll todo = (.ok (), p') ∧ p'.Follows s (met ++ todo) := by
  induction todo generalizing met p with
  | nil => exact ⟨p, rfl, (List.append_nil met).symm ▸ h⟩
  | cons v todo ih =>
    obtain ⟨next, hnext, hfollows⟩ := h.visit (hlive v List.mem_cons_self)
    obtain ⟨p', hp', hend⟩ := ih hfollows fun w hw => hlive w (List.mem_cons_of_mem _ hw)
    refine ⟨p', ?_, ?_⟩
    · rw [Pass.visitAll, hnext]
      exact hp'
    · rw [List.append_assoc] at hend
      exact hend

end Pass.Follows

/-! ## §3 The whole pass -/

/-- The scene that a pass leaves. -/
def passed (s : Scene) : Scene :=
  (s.sync.recomputeAll (s.sync.agenda s.sync.visible)).validated s.sync.visible

/-- **A pass does what its agenda says**, and it does not fail. -/
theorem framePass_eq (s : Scene) :
    ∃ p, s.framePass = (.ok (), p) ∧ p.scene = s.passed ∧
      p.done = (s.sync.agenda s.sync.visible).map Prod.fst := by
  have hlive : ∀ v ∈ s.sync.visible, s.sync.tree.contains v.id = true := fun v hv =>
    NodeTree.contains_iff.mpr
      ((visits_sublist _ _ s.sync.tree.forest).subset (List.mem_map_of_mem hv))
  obtain ⟨p, hp, hend⟩ := (Pass.follows_start s.sync).visitAll hlive
  exact ⟨p, hp, hend.scene, hend.done⟩

theorem updateStyles_eq (s : Scene) :
    s.updateStyles = (.ok s.framePass.2.done.length, s.passed) := by
  obtain ⟨p, hp, hscene, -⟩ := s.framePass_eq
  rw [updateStyles, hp, ← hscene]

end Scene

end StyledScene
