import StyledScene.Proofs.Scene.Following

/-!
# Inheritance across managers

What a node inherits comes from its parent, whichever managers the two have; but whether a node is
computed anew is decided by its own mark and its own manager. When the manager of the parent is not
valid, the parent may get another style while a child with a valid manager of its own is left as it was
(`Outrun`). Main statement: right after a pass, a visible node that no such change has outrun, since it was
marked or computed last, has what it inherits from the present style of its parent
(`get?_computedStyle_of_inherited`); `get?_computedStyle_outrun` is a node that a pass has outrun.
-/

namespace StyledScene

namespace Scene

/-! ## §1 Runs of discreet hosts -/

/-- The parent gets another style from a manager that was not valid, while the node's own manager is. -/
def Outrun (s : Scene) (a : SceneAction) (id : NodeId) : Prop :=
  ∃ p m m', s.tree.parentId? id = some p ∧ s.manager? id = some m ∧ m.valid = true ∧
    s.manager? p = some m' ∧ m'.valid = false ∧
    ((s.after a).stylesOf p).computed ≠ (s.stylesOf p).computed

variable {s : Scene} {missed : NodeId → Prop} {misses : Scene → SceneAction → NodeId → Prop}

theorem Traced.wellKept (h : Traced (fun _ a => a.Discreet) misses s missed) : s.WellKept := by
  induction h with
  | empty => exact wellKept_empty
  | @step s _ a _ ha ih => exact (s.stepsTo_after a).wellKept ha ih

/-- Every run of a discreet host has a trace. -/
theorem Traced.run {actions : List SceneAction} (h : Traced (fun _ a => a.Discreet) misses s missed)
    (hactions : ∀ a ∈ actions, a.Discreet) :
    ∃ missed', Traced (fun _ a => a.Discreet) misses (s.run actions) missed' := by
  induction actions generalizing s missed with
  | nil => exact ⟨missed, h⟩
  | cons a actions ih =>
    exact ih (h.step (hactions a List.mem_cons_self)) fun b hb =>
      hactions b (List.mem_cons_of_mem a hb)

/-- A visible node that has to be computed is computed by the pass, so only nodes fall behind that were
outrun. -/
theorem Traced.current_visible (h : Traced (fun _ a => a.Discreet) Outrun s missed) :
    s.Current fun id => s.tree.isEffectivelyVisible id = .ok true ∧ ¬ missed id := by
  induction h with
  | empty => exact current_empty _
  | @step s missed a h ha ih =>
    have hk := h.wellKept
    refine ih.after hk ha ?_ ?_ ?_
    · rintro id hclean hnot hsame ⟨hvis, hunmissed⟩
      exact ⟨hsame ▸ hvis, fun hmissed => hunmissed ⟨hclean, hnot, Or.inl hmissed⟩⟩
    · rintro rfl id ⟨hvis, -⟩ - - k hk' hknot m m' hm - -
      rw [after_updateStyles, s.equalUpToMarks_passed.isEffectivelyVisible] at hvis
      -- the parent of a visible node is visible as well
      have hkvis : s.tree.isEffectivelyVisible k = .ok true := by
        rcases hk' with rfl | hparent
        · exact hvis
        · exact NodeTree.isEffectivelyVisible_parent hk.tree.nodup_ids hvis hparent
      cases hbefore : m.valid with
      | true => rfl
      | false =>
        exact absurd (((accounts_passed hk.tree).mem_iff k).mpr ⟨hkvis, m, hm, Or.inr hbefore⟩) hknot
    · intro id ⟨_, hunmissed⟩ hclean hnot p m m' hparent hm hvalid hm' hinvalid
      by_contra hother
      exact hunmissed
        ⟨hclean, hnot, Or.inr ⟨p, m, m', hparent, hm, hvalid, hm', hinvalid, hother⟩⟩

/-! ## §2 Right after a pass -/

theorem computedStyle_of_live {id : NodeId} (hlive : s.tree.contains id = true) :
    s.computedStyle id = .ok (s.stylesOf id).computed := by
  rw [computedStyle, read, if_pos hlive]

/-- **Right after a pass, what is inherited comes from the parent.** In a scene of a discreet host, take a
visible node with a manager, of its own or not, that nothing has outrun. If neither the node nor a matching
declaration of its manager has a property that the node inherits, and the parent's style has it, then the
node's style has it with the same value. -/
theorem get?_computedStyle_of_inherited (h : Traced (fun _ a => a.Discreet) Outrun s missed)
    {id p : NodeId} {m : StyleManager} {style : Style} {c : Category} {k : Key c} {v : c.Value}
    (hvis : (s.after .updateStyles).tree.isEffectivelyVisible id = .ok true)
    (hm : (s.after .updateStyles).manager? id = some m)
    (hunmissed : ¬ missedAfter Outrun s missed .updateStyles id)
    (hparent : (s.after .updateStyles).tree.parentId? id = some p)
    (hinherits : ((s.after .updateStyles).stylesOf id).kind.inherits.contains k = true)
    (hown : ((s.after .updateStyles).stylesOf id).ownValues.get? k = none)
    (hnone : ∀ d, ¬ m.Candidate ((s.after .updateStyles).tree.lineage id) k d)
    (hstyle : (s.after .updateStyles).computedStyle p = .ok style) (hv : style.get? k = some v) :
    ∃ computed, (s.after .updateStyles).computedStyle id = .ok computed ∧
      computed.get? k = some v := by
  have hnext := h.step (a := .updateStyles) trivial
  have hlive := NodeTree.contains_of_visible hvis
  have hsettled : ¬ (s.after .updateStyles).Due id := by
    rw [after_updateStyles]
    exact (accounts_passed h.wellKept.tree).not_due id
  obtain ⟨hclean, hvalid⟩ : (s.after .updateStyles).tree.isDirty id = .ok false ∧ m.valid = true := by
    rcases needed_or_settled hlive m with hneeded | hsettled'
    · exact absurd ⟨hvis, m, hm, hneeded⟩ hsettled
    · exact hsettled'
  have hfollows := hnext.current_visible.follows id ⟨hvis, hunmissed⟩ hclean m hm hvalid
  have horderly : m.Orderly := by
    obtain ⟨number, -, hlookup⟩ := Option.bind_eq_some_iff.mp hm
    exact (hnext.wellKept.managers m (List.mem_of_getElem? hlookup)).1
  refine ⟨((s.after .updateStyles).stylesOf id).computed, computedStyle_of_live hlive, ?_⟩
  rw [computedStyle_of_live (NodeTree.contains_of_parentId? hparent)] at hstyle
  rw [hfollows]
  refine (StyleManager.Gives.inherited ?_ hnone ?_).eq horderly
  · exact hown
  · rw [StyleContext.inherited?, presentContext, if_pos hinherits, hparent, Option.map_some,
      Option.bind_some, Except.ok.inj hstyle]
    exact hv

/-- A column with a label in it, each with a manager of its own. -/
def twoManagers : Scene :=
  empty.run [.createNode .container, .createChild ⟨1, 1⟩ .text, .addManager .usual,
    .addManager .usual, .attach ⟨1, 1⟩ 0, .attach ⟨2, 1⟩ 1]

/-- A font weight is declared for the column. -/
def heavyColumn : List SceneAction :=
  [.editManager 0 (.access "container"),
    .editManager 0 (.change (.keyed "container") (.edit (.set .fontWeight 700)))]

/-- Moreover, the manager of the label is made invalid. -/
def heavyColumnAfresh : List SceneAction := heavyColumn ++ [.editManager 1 .invalidate]

theorem traced_twoManagers {actions : List SceneAction} (hactions : ∀ a ∈ actions, a.Discreet) :
    ∃ missed, Traced (fun _ a => a.Discreet) Outrun
      (twoManagers.run (.updateStyles :: actions)) missed := by
  obtain ⟨missed, htraced⟩ := @Traced.run _ _ Outrun
    [.createNode .container, .createChild ⟨1, 1⟩ .text, .addManager .usual, .addManager .usual,
      .attach ⟨1, 1⟩ 0, .attach ⟨2, 1⟩ 1] .empty (by simp [SceneAction.Discreet])
  refine htraced.run fun a ha => ?_
  rcases List.mem_cons.mp ha with rfl | hlater
  · trivial
  · exact hactions a hlater

/-- Nobody is adopted in these runs, so that they can be computed without sorting ids. -/
theorem run_twoManagers {actions : List SceneAction}
    (h : (twoManagers.passedInStep.run actions).Synced) :
    (twoManagers.run (.updateStyles :: actions)).after .updateStyles =
      (twoManagers.passedInStep.run actions).passedInStep := by
  rw [← after_updateStyles_of_synced h, ← after_updateStyles_of_synced (s := twoManagers)
    (by decide)]
  rfl

theorem not_candidate_of_listed {m : StyleManager} (h : m.listed.length = 0) {lineage : Lineage}
    {c : Category} {k : Key c} (d : Declaration) : ¬ m.Candidate lineage k d := by
  rintro ⟨hd, -⟩
  rw [List.length_eq_zero_iff.mp h] at hd
  cases hd

/-- If the label is computed as well, it inherits the new font weight. -/
theorem get?_computedStyle_heavyColumnAfresh :
    ∃ computed,
      ((twoManagers.run (.updateStyles :: heavyColumnAfresh)).after .updateStyles).computedStyle
        ⟨2, 1⟩ = .ok computed ∧ computed.get? .fontWeight = some 700 := by
  obtain ⟨missed, htraced⟩ := @traced_twoManagers heavyColumnAfresh
    (by simp [heavyColumnAfresh, heavyColumn, SceneAction.Discreet, ManagerEdit.Tracked])
  have hrenewed : ⟨2, 1⟩ ∈ ((twoManagers.run (.updateStyles :: heavyColumnAfresh)).renewed
      .updateStyles).map Prod.fst := by decide
  have hunmissed : ¬ missedAfter Outrun (twoManagers.run (.updateStyles :: heavyColumnAfresh)) missed
      .updateStyles ⟨2, 1⟩ := fun h => h.2.1 hrenewed
  have hscene := @run_twoManagers heavyColumnAfresh (by decide)
  have hlisted : (((twoManagers.run (.updateStyles :: heavyColumnAfresh)).after
      .updateStyles).manager? ⟨2, 1⟩).map (fun m => m.listed.length) = some 0 := by
    rw [hscene]
    decide
  obtain ⟨m, hm, hlength⟩ := Option.map_eq_some_iff.mp hlisted
  refine get?_computedStyle_of_inherited (p := ⟨1, 1⟩) (k := .fontWeight) htraced ?_ hm hunmissed
    ?_ ?_ ?_ (fun d => not_candidate_of_listed hlength d) (computedStyle_of_live ?_) ?_
  all_goals
    rw [hscene]
    decide +kernel

/-- If the label is not computed, it does not inherit the new font weight: both were computed with valid
managers, and then only the manager of the column has changed. -/
theorem get?_computedStyle_outrun :
    (∃ missed, Traced (fun _ a => a.Discreet) Outrun
        (twoManagers.run (.updateStyles :: heavyColumn)) missed) ∧
      ∃ s' : Scene, s' = (twoManagers.run (.updateStyles :: heavyColumn)).after .updateStyles ∧
        s'.tree.isEffectivelyVisible ⟨2, 1⟩ = .ok true ∧
        s'.tree.parentId? ⟨2, 1⟩ = some ⟨1, 1⟩ ∧
        s'.attachments.get? ⟨2, 1⟩ = some 1 ∧ s'.managerNumber? ⟨1, 1⟩ = some 0 ∧
        (s'.stylesOf ⟨2, 1⟩).kind.inherits.contains .fontWeight = true ∧
        (s'.stylesOf ⟨2, 1⟩).ownValues.get? .fontWeight = none ∧
        (∃ m, s'.manager? ⟨2, 1⟩ = some m ∧
          ∀ d, ¬ m.Candidate (s'.tree.lineage ⟨2, 1⟩) .fontWeight d) ∧
        ∃ style computed, s'.computedStyle ⟨1, 1⟩ = .ok style ∧
          style.get? .fontWeight = some 700 ∧ s'.computedStyle ⟨2, 1⟩ = .ok computed ∧
          computed.get? .fontWeight = none := by
  have hscene := @run_twoManagers heavyColumn (by decide)
  refine ⟨traced_twoManagers (by simp [heavyColumn, SceneAction.Discreet, ManagerEdit.Tracked]), _,
    hscene.symm, ?_⟩
  have hlisted : (((twoManagers.passedInStep.run heavyColumn).passedInStep.manager? ⟨2, 1⟩).map
      fun m => m.listed.length) = some 0 := by decide
  obtain ⟨m, hm, hlength⟩ := Option.map_eq_some_iff.mp hlisted
  refine ⟨by decide, by decide, by decide, by decide,
    by decide, by decide, ⟨m, hm, fun d => not_candidate_of_listed hlength d⟩, ?_⟩
  exact ⟨_, _, computedStyle_of_live (by decide), by decide +kernel,
    computedStyle_of_live (by decide), by decide +kernel⟩

end Scene

end StyledScene
