import StyledScene.Proofs.Scene.Descent

/-!
# What a frame pass accounts for

`Accounts` says what a frame pass does to every part of a scene: who is computed anew and in which
order, by which manager and from what, who stays as it was, which managers are valid afterwards. Main
statement: every pass over a reachable scene accounts for the nodes that it reports, a second pass finds
nothing left to do, and the pass along the links of a linked scene does the same
(`updateStyles_accounts`).
-/

namespace StyledScene

namespace Scene

/-! ## §1 The account -/

/-- A pass over `s` that leaves `s'` has computed the nodes in `done` anew, and nothing else. -/
structure Accounts (s s' : Scene) (done : List NodeId) : Prop where
  /-- No node is computed twice. -/
  nodup : done.Nodup
  /-- The nodes that are computed are those that were due. -/
  mem_iff : ∀ id, id ∈ done ↔ s.Due id
  /-- No node is computed before its parent. -/
  parents_first : done.Pairwise fun a b => s.tree.parentId? a ≠ some b
  /-- The tree keeps its shape, and its nodes everything but their marks. -/
  shape : s.tree.EqualUpToMarks s'.tree
  /-- A new style is what the manager of the node computes from the style that its parent has in the
  end, and the flags go with it. -/
  settled : ∀ id ∈ done, ∃ m, s.manager? id = some m ∧
    (s'.stylesOf id).computed = m.computeStyle (s'.tree.lineage id)
      { parent := (s'.tree.parentId? id).map fun p => (s'.stylesOf p).computed
        ownValues := some (s'.stylesOf id).ownValues
        defaults := some (s'.stylesOf id).defaults
        inherits := (s'.stylesOf id).kind.inherits } ∧
    (s'.stylesOf id).flags = (s'.stylesOf id).kind.summarize (s'.stylesOf id).computed
  clean : ∀ id ∈ done, s'.tree.isDirty id = .ok false
  /-- All other nodes keep their styles, their flags and their marks. -/
  kept : ∀ id, s.tree.contains id = true → id ∉ done →
    s'.stylesOf id = s.stylesOf id ∧ s'.tree.isDirty id = s.tree.isDirty id
  /-- What the host gave to the nodes stays. -/
  own : ∀ id, s.tree.contains id = true →
    (s'.stylesOf id).kind = (s.stylesOf id).kind ∧
      (s'.stylesOf id).ownValues = (s.stylesOf id).ownValues ∧
      (s'.stylesOf id).defaults = (s.stylesOf id).defaults
  managerNumber : ∀ id, s.tree.contains id = true → s'.managerNumber? id = s.managerNumber? id
  /-- The managers of the visible nodes are valid, and otherwise as before. -/
  used : ∀ number, s.InUse number →
    s'.managers[number]? = s.managers[number]?.map StyleManager.markValid
  unused : ∀ number, ¬ s.InUse number → s'.managers[number]? = s.managers[number]?

/-! ## §2 Adoption changes no account -/

variable {s : Scene}

theorem due_sync {id : NodeId} : s.sync.Due id ↔ s.Due id := by
  constructor
  · rintro ⟨hvis, hneeded⟩
    rw [manager?_sync (s := s) (NodeTree.contains_of_visible hvis)] at hneeded
    exact ⟨hvis, hneeded⟩
  · rintro ⟨hvis, hneeded⟩
    rw [← manager?_sync (NodeTree.contains_of_visible hvis)] at hneeded
    exact ⟨hvis, hneeded⟩

theorem inUse_sync {number : Nat} : s.sync.InUse number ↔ s.InUse number := by
  constructor
  · rintro ⟨id, hvis, hnumber⟩
    rw [managerNumber?_sync (s := s) (NodeTree.contains_of_visible hvis)] at hnumber
    exact ⟨id, hvis, hnumber⟩
  · rintro ⟨id, hvis, hnumber⟩
    rw [← managerNumber?_sync (NodeTree.contains_of_visible hvis)] at hnumber
    exact ⟨id, hvis, hnumber⟩

/-! ## §3 One pass -/

/-- A pass leaves the scene in step with its tree. -/
theorem synced_passed (hwf : s.tree.WellFormed) : s.passed.Synced := by
  have hall : (s.sync.recomputeAll (s.sync.agenda s.sync.visible)).Synced := by
    apply (synced_sync hwf).recomputeAll hwf
    intro entry hentry
    exact NodeTree.contains_of_visible ((mem_agenda_iff (s := s.sync) hwf.nodup_ids).mp hentry).1
  exact ⟨hall.styles_live, hall.attachments_live, hall.covered⟩

theorem accounts_passed (hwf : s.tree.WellFormed) :
    s.Accounts s.passed ((s.sync.agenda s.sync.visible).map Prod.fst) := by
  have hnd := hwf.nodup_ids
  have hsettles := settles_agenda (s := s.sync) hnd
  have hord := hsettles.order
  have hwf' : s.sync.tree.WellFormed := hwf
  constructor
  · exact hord.nodup
  · exact fun id => (mem_agenda_ids_iff (s := s.sync) hnd).trans due_sync
  · exact hord.parents_first
  · exact s.equalUpToMarks_passed
  · intro id hid
    obtain ⟨⟨id, m⟩, hentry, rfl⟩ := List.mem_map.mp hid
    have hmanager := hsettles.manager _ hentry
    rw [manager?_sync (s := s) (hord.live id hid)] at hmanager
    refine ⟨m, hmanager, (synced_passed hwf).computed_of_settled ?_⟩
    exact freshStyles_recomputeAll hwf' hord hentry
  · exact fun id hid => isDirty_recomputeAll_of_mem hord hid
  · intro id hlive hnot
    refine ⟨?_, isDirty_recomputeAll hlive hnot⟩
    rw [← stylesOf_sync hwf hlive]
    exact congrArg (Option.getD · _) (styles_recomputeAll hwf' hord hlive hnot)
  · intro id hlive
    rw [← stylesOf_sync hwf hlive]
    exact own_recomputeAll hwf' hord hlive
  · intro id hlive
    rw [← managerNumber?_sync hlive]
    exact @managerNumber?_congr s.sync s.passed s.equalUpToMarks_passed
      (attachments_recomputeAll s.sync _) id
  · intro number huse
    have hused := (uses_visible_iff (s := s.sync) hnd).mpr (inUse_sync.mpr huse)
    rw [passed, getElem?_validated, if_pos hused, managers_recomputeAll]
    rfl
  · intro number hnot
    have hunused : ¬ uses s.sync.visible number = true := fun hused =>
      hnot (inUse_sync.mp ((uses_visible_iff (s := s.sync) hnd).mp hused))
    rw [passed, getElem?_validated, if_neg hunused, managers_recomputeAll]
    rfl

/-! ## §4 The next pass -/

namespace Accounts

variable {s' : Scene} {done : List NodeId}

theorem inUse_iff (h : s.Accounts s' done) {number : Nat} : s'.InUse number ↔ s.InUse number := by
  constructor
  · rintro ⟨id, hvis, hnumber⟩
    rw [h.shape.isEffectivelyVisible] at hvis
    rw [h.managerNumber id (NodeTree.contains_of_visible hvis)] at hnumber
    exact ⟨id, hvis, hnumber⟩
  · rintro ⟨id, hvis, hnumber⟩
    rw [← h.managerNumber id (NodeTree.contains_of_visible hvis)] at hnumber
    rw [← h.shape.isEffectivelyVisible] at hvis
    exact ⟨id, hvis, hnumber⟩

/-- After a pass, the managers in use are valid. -/
theorem valid_of_inUse (h : s.Accounts s' done) {number : Nat} (huse : s.InUse number)
    {m : StyleManager} (hm : s'.managers[number]? = some m) : m.valid = true := by
  rw [h.used number huse] at hm
  obtain ⟨m₀, -, rfl⟩ := Option.map_eq_some_iff.mp hm
  rfl

/-- After a pass, nothing is due. -/
theorem not_due (h : s.Accounts s' done) (id : NodeId) : ¬ s'.Due id := by
  rintro ⟨hvis, m, hm, hneeded⟩
  rw [h.shape.isEffectivelyVisible] at hvis
  have hlive := NodeTree.contains_of_visible hvis
  obtain ⟨number, hnumber, hlookup⟩ := Option.bind_eq_some_iff.mp hm
  rw [h.managerNumber id hlive] at hnumber
  have huse : s.InUse number := ⟨id, hvis, hnumber⟩
  have hvalid := h.valid_of_inUse huse hlookup
  rcases hneeded with hdirty | hinvalid
  · by_cases hdone : id ∈ done
    · -- what was computed has lost its mark
      rw [h.clean id hdone] at hdirty
      cases hdirty
    · -- a marked node with a manager was due
      rw [(h.kept id hlive hdone).2] at hdirty
      rw [h.used number huse] at hlookup
      obtain ⟨m₀, hm₀, -⟩ := Option.map_eq_some_iff.mp hlookup
      refine hdone ((h.mem_iff id).mpr ⟨hvis, m₀, ?_, Or.inl hdirty⟩)
      rw [manager?, hnumber]
      exact hm₀
  · -- the manager of a visible node is in use
    rw [hvalid] at hinvalid
    cases hinvalid

end Accounts

theorem validated_eq_self {found : List Visit}
    (h : ∀ number m, s.managers[number]? = some m → uses found number = true → m.valid = true) :
    s.validated found = s := by
  obtain ⟨tree, styles, attachments, managers⟩ := s
  unfold validated
  congr 1
  apply List.ext_getElem?
  intro number
  rw [List.getElem?_mapIdx]
  cases hm : managers[number]? with
  | none => rfl
  | some m =>
    rw [Option.map_some]
    split
    · -- who is valid already is not changed by being made so
      rename_i hused
      have hvalid := h number m hm hused
      rw [StyleManager.markValid, ← hvalid]
    · rfl

/-- A second pass changes nothing. -/
theorem passed_passed (hwf : s.tree.WellFormed) :
    s.passed.agenda s.passed.visible = [] ∧ s.passed.passed = s.passed := by
  have haccounts := accounts_passed hwf
  have hwf' := hwf.of_equalUpToMarks haccounts.shape
  have hsync := sync_eq_self (synced_passed hwf)
  have hagenda : s.passed.agenda s.passed.visible = [] := by
    apply List.eq_nil_iff_forall_not_mem.mpr
    intro entry hentry
    exact haccounts.not_due entry.1
      ((mem_agenda_ids_iff hwf'.nodup_ids).mp (List.mem_map_of_mem hentry))
  refine ⟨hagenda, ?_⟩
  rw [passed, hsync, hagenda]
  apply validated_eq_self (s := s.passed)
  intro number m hm hused
  have huse := haccounts.inUse_iff.mp ((uses_visible_iff hwf'.nodup_ids).mp hused)
  exact haccounts.valid_of_inUse huse hm

/-- **A frame pass computes what is due, and nothing else.** On a reachable scene it does not fail; it
answers how many nodes it has computed anew; it accounts for those nodes and for every other part of
the scene; and a pass straight after it computes nothing and changes nothing. The pass along the links,
with the roots as they are found in slot order, ends in the same scene with the same answer. -/
theorem updateStyles_accounts (h : s.Reachable) :
    s.updateStyles.1 = .ok s.framePass.2.done.length ∧
      s.Accounts s.updateStyles.2 s.framePass.2.done ∧
      s.updateStyles.2.updateStyles = (.ok 0, s.updateStyles.2) ∧
      ∀ (l : LinkedScene) (drawn : List PaintCall) (ids : List NodeId), l.Represents s drawn →
        l.tree.Enumerates ids →
        LinkedScene.Yields (LinkedScene.updateStyles ids) l (.ok s.framePass.2.done.length)
          s.updateStyles.2 drawn := by
  have hwf := wellFormed_of_reachable h
  have hdone (t : Scene) : t.framePass.2.done = (t.sync.agenda t.sync.visible).map Prod.fst := by
    obtain ⟨p, hp, -, hdone⟩ := t.framePass_eq
    rw [hp]
    exact hdone
  obtain ⟨hagenda, hpassed⟩ := passed_passed hwf
  have hlinked (l : LinkedScene) (drawn : List PaintCall) (ids : List NodeId)
      (hl : l.Represents s drawn) (hids : l.tree.Enumerates ids) :=
    hl.ends_updateStyles hwf (rootsAscend_of_reachable h) hids
  rw [updateStyles_eq] at hlinked ⊢
  refine ⟨rfl, ?_, ?_, hlinked⟩
  · rw [hdone]
    exact accounts_passed hwf
  · show s.passed.updateStyles = (.ok 0, s.passed)
    rw [updateStyles_eq, hdone, sync_eq_self (synced_passed hwf), hagenda, hpassed]
    rfl

/-- A managed root with a visible child, a hidden child, and a node below the hidden one; beside it a
root that has no manager. -/
def halfHidden : Scene :=
  empty.run [.createNode .container, .addManager .usual, .attach ⟨1, 1⟩ 0,
    .createChild ⟨1, 1⟩ .text, .createChild ⟨1, 1⟩ .container, .createChild ⟨3, 1⟩ .text,
    .editTree (.setVisible ⟨3, 1⟩ false), .createNode .container]

/-- A pass computes the root and its visible child, also along the links. -/
theorem updateStyles_halfHidden :
    halfHidden.updateStyles.1 = .ok 2 ∧
      halfHidden.Accounts halfHidden.updateStyles.2 [⟨1, 1⟩, ⟨2, 1⟩] ∧
      halfHidden.updateStyles.2.updateStyles = (.ok 0, halfHidden.updateStyles.2) ∧
      LinkedScene.Yields (LinkedScene.updateStyles halfHidden.tree.ids)
        (LinkedScene.ofScene halfHidden) (.ok 2) halfHidden.updateStyles.2 [] := by
  have hreach : halfHidden.Reachable := ⟨_, rfl⟩
  have hwf := wellFormed_of_reachable hreach
  have hdone : halfHidden.framePass.2.done = [⟨1, 1⟩, ⟨2, 1⟩] := by decide
  have hl := LinkedScene.represents_ofScene hwf.nodup_ids
  obtain ⟨hcount, haccounts, hagain, hlinked⟩ := updateStyles_accounts hreach
  have hends := hlinked _ _ _ hl (hl.tree.enumerates hwf)
  rw [hdone] at hcount haccounts hends
  exact ⟨hcount, haccounts, hagain, hends⟩

end Scene

end StyledScene
