import StyledScene.Proofs.Scene.Freshness

/-!
# Styles that follow

A style follows if its manager computes it from the style that the parent has at present. Where all the
nodes of a path follow one manager, the first of them has its style from scratch (`computed_eq_scratch`).

Whether styles follow is a matter of single nodes, so it can be told for the nodes of any scope: those
without a mark, with a valid manager, follow (`Current`). An action of a discreet host keeps this for
whatever it computes and whatever it spares (`Current.after`). The nodes that actions pass by to their
harm are noted along a run until they are marked or computed anew (`Traced`).
-/

namespace StyledScene

namespace Scene

/-! ## §1 Following the parent -/

/-- The context of a node with the style that its parent has at present. -/
def presentContext (s : Scene) (id : NodeId) : StyleContext where
  parent := (s.tree.parentId? id).map fun p => (s.stylesOf p).computed
  ownValues := some (s.stylesOf id).ownValues
  defaults := some (s.stylesOf id).defaults
  inherits := (s.stylesOf id).kind.inherits

/-- The node has the style that the manager computes from the present style of its parent. -/
def Follows (s : Scene) (m : StyleManager) (id : NodeId) : Prop :=
  (s.stylesOf id).computed = m.computeStyle (s.tree.lineage id) (s.presentContext id)

variable {s s' : Scene} {m m' : StyleManager} {id : NodeId}

theorem Follows.congr (h : s.Follows m id) (hlineage : s'.tree.lineage id = s.tree.lineage id)
    (hstyles : s'.stylesOf id = s.stylesOf id)
    (hparent : s'.tree.parentId? id = s.tree.parentId? id)
    (hcomputed : ∀ p, s.tree.parentId? id = some p →
      (s'.stylesOf p).computed = (s.stylesOf p).computed)
    (hmanager : ∀ lineage context, m'.computeStyle lineage context = m.computeStyle lineage context) :
    s'.Follows m' id := by
  have hcontext : s'.presentContext id = s.presentContext id := by
    simp only [presentContext, hstyles, hparent]
    congr 1
    exact Option.map_congr fun p hp => hcomputed p hp
  rw [Follows, hstyles, hlineage, hcontext, hmanager]
  exact h

/-- What has been computed last follows. -/
theorem follows_recomputeAll (hwf : s.tree.WellFormed) (hsynced : s.Synced)
    {due : List (NodeId × StyleManager)} (hord : s.tree.InOrder (due.map Prod.fst))
    (hmem : (id, m) ∈ due) : (s.recomputeAll due).Follows m id := by
  have hsynced' := hsynced.recomputeAll hwf fun entry hentry =>
    hord.live entry.1 (List.mem_map_of_mem hentry)
  -- every living node has styles, so the parent's are there to be read
  have hcontext : (s.recomputeAll due).contextOf id = (s.recomputeAll due).presentContext id := by
    simp only [contextOf, presentContext]
    congr 1
    cases hp : (s.recomputeAll due).tree.parentId? id with
    | none => rfl
    | some p =>
      rw [Option.bind_some, hsynced'.styles_of_live (NodeTree.contains_of_parentId? hp)]
      rfl
  rw [Follows, ← hcontext]
  exact congrArg NodeStyles.computed (freshStyles_recomputeAll hwf hord hmem)

/-- **Where every node of a path follows, the first has its style from scratch.** -/
theorem computed_eq_scratch (hnd : s.tree.forest.ids.Nodup) (hlive : s.tree.contains id = true)
    (hfollows : ∀ k ∈ s.pathIds id, s.Follows m k) :
    some (s.stylesOf id).computed = s.scratch m (s.pathIds id) := by
  obtain ⟨n, above, hp, hn⟩ := NodeTree.path?_of_contains hlive
  clear hlive
  rw [pathIds_of_path? hp] at hfollows ⊢
  induction above generalizing id n with
  | nil =>
    rw [List.map_singleton, scratch, ← hn, hfollows n.id List.mem_cons_self, presentContext,
      hn, NodeTree.parentId?_of_root hp]
    rfl
  | cons q up ih =>
    have hparent := ih q (fun k hk => hfollows k (List.mem_cons_of_mem n.id hk))
      (Forest.path?_above hnd hp) rfl
    rw [List.map_cons, scratch, ← hparent, ← hn, hfollows n.id List.mem_cons_self, presentContext,
      hn, NodeTree.parentId?_of_path? hp]
    rfl

/-! ## §2 Scopes -/

/-- In the scope, unmarked nodes with a valid manager follow. -/
structure Current (s : Scene) (Scope : NodeId → Prop) : Prop where
  /-- Marks reach down: the parent of an unmarked node bears none, if its manager is valid. -/
  reach : ∀ id, Scope id → s.tree.isDirty id = .ok false → ∀ p, s.tree.parentId? id = some p →
    ∀ m, s.manager? p = some m → m.valid = true → s.tree.isDirty p = .ok false
  follows : ∀ id, Scope id → s.tree.isDirty id = .ok false →
    ∀ m, s.manager? id = some m → m.valid = true → s.Follows m id

variable {Scope Scope' : NodeId → Prop}

/-- The path of an unmarked node starts with an unmarked node. -/
theorem path?_of_clean {t : NodeTree} (h : t.isDirty id = .ok false) :
    ∃ n above, t.path? id = some (n :: above) ∧ n.id = id ∧ n.dirty = false := by
  obtain ⟨sub, hsub, -⟩ := NodeTree.ask_eq_ok_iff.mp h
  have hlive : t.contains id = true := by rw [NodeTree.contains, hsub]; rfl
  obtain ⟨n, above, hp, hn⟩ := NodeTree.path?_of_contains hlive
  rw [NodeTree.isDirty_of_path? hp] at h
  exact ⟨n, above, hp, hn, Except.ok.inj h⟩

theorem contains_of_clean {t : NodeTree} (h : t.isDirty id = .ok false) : t.contains id = true := by
  obtain ⟨n, above, hp, -, -⟩ := path?_of_clean h
  exact NodeTree.contains_of_path? hp

theorem current_empty (Scope : NodeId → Prop) : empty.Current Scope := by
  constructor
  · intro id _ hclean
    cases hclean
  · intro id _ hclean
    cases hclean

/-- Changes that announce themselves keep everything current that they do not mark. -/
theorem Current.of_announces (h : s.Current Scope) (hannounces : s.Announces s')
    (hwf : s.tree.WellFormed) (hwf' : s'.tree.WellFormed)
    (hscope : ∀ id, s'.tree.isDirty id = .ok false → s'.tree.path? id = s.tree.path? id →
      Scope' id → Scope id) : s'.Current Scope' := by
  constructor
  · intro id hid hclean p hparent m' hm' hvalid
    obtain ⟨n, q, up, hp', rfl⟩ := NodeTree.parentId?_eq_some_iff.mp hparent
    have hn : n.dirty = false := by
      rw [NodeTree.isDirty_of_path? hp'] at hclean
      exact Except.ok.inj hclean
    obtain ⟨hp, hsame⟩ := hannounces id n (q :: up) hp' hn
    obtain ⟨m, hm, hbefore, -⟩ := hsame.managers q (by simp) m' hm' hvalid
    -- the parent stands on the same path, with the same mark
    have hq := h.reach id (hscope id hclean (hp'.trans hp.symm) hid)
      (by rw [NodeTree.isDirty_of_path? hp, hn]) q.id (NodeTree.parentId?_of_path? hp) m hm hbefore
    rw [NodeTree.isDirty_of_path? (Forest.path?_above hwf.nodup_ids hp)] at hq
    rw [NodeTree.isDirty_of_path? (Forest.path?_above hwf'.nodup_ids hp'), hq]
  · intro id hid hclean m' hm' hvalid
    obtain ⟨n, above, hp', rfl, hn⟩ := path?_of_clean hclean
    obtain ⟨hp, hsame⟩ := hannounces n.id n above hp' hn
    obtain ⟨m, hm, hbefore, hcompute⟩ := hsame.managers n List.mem_cons_self m' hm' hvalid
    have hfollows := h.follows n.id (hscope n.id hclean (hp'.trans hp.symm) hid)
      (by rw [NodeTree.isDirty_of_path? hp, hn]) m hm hbefore
    refine hfollows.congr (hsame.lineage n List.mem_cons_self) (hsame.styles n List.mem_cons_self) ?_
      (fun p hparent => ?_) hcompute
    · simp only [NodeTree.parentId?, hp, hp']
    · obtain ⟨k, q, up, hpq, rfl⟩ := NodeTree.parentId?_eq_some_iff.mp hparent
      obtain ⟨rfl, rfl⟩ := List.cons.inj (Option.some.inj (hp.symm.trans hpq))
      rw [hsame.styles q (by simp)]

theorem Current.sync (h : s.Current Scope) (hwf : s.tree.WellFormed) : s.sync.Current Scope :=
  h.of_announces (announces_sync hwf) hwf hwf fun _ _ _ hid => hid

/-! ## §3 Computing anew -/

/-- Nodes are computed that are due, and managers are made valid; the node is left alone, and rightly
so. -/
structure Spares (s s' : Scene) (due : List (NodeId × StyleManager)) (id : NodeId) : Prop where
  /-- The managers that the node and its parent have are not made valid behind their backs. -/
  served : ∀ k, k = id ∨ s.tree.parentId? id = some k → k ∉ due.map Prod.fst →
    ∀ m m', s.manager? k = some m → s'.manager? k = some m' → m'.valid = true → m.valid = true
  /-- The parent gets no new style from a manager that was not valid, if the node's own was. -/
  kept : ∀ p m m', s.tree.parentId? id = some p → s.manager? id = some m → m.valid = true →
    s.manager? p = some m' → m'.valid = false →
    (s'.stylesOf p).computed = (s.stylesOf p).computed

variable {due : List (NodeId × StyleManager)} {found : List Visit}

/-- The parent of a spared node keeps its style. -/
theorem Current.computed_parent (h : s.Current Scope) (hwf : s.tree.WellFormed)
    (hdue : s.Settles due) (hspares : s.Spares ((s.recomputeAll due).validated found) due id)
    (hid : Scope id) (hclean : s.tree.isDirty id = .ok false) (hm : s.manager? id = some m)
    (hvalid : m.valid = true) {p : NodeId} (hparent : s.tree.parentId? id = some p) :
    ((s.recomputeAll due).stylesOf p).computed = (s.stylesOf p).computed := by
  by_cases hp : p ∈ due.map Prod.fst
  · obtain ⟨⟨p, mp⟩, hentry, rfl⟩ := List.mem_map.mp hp
    have hmp := hdue.manager _ hentry
    cases hvalidp : mp.valid with
    | false => exact hspares.kept p m mp hparent hm hvalid hmp hvalidp
    | true =>
      -- no mark can have asked for it, for then the node would bear one as well
      rcases hdue.needed _ hentry with hdirty | hinvalid
      · rw [h.reach id hid hclean p hparent mp hmp hvalidp] at hdirty
        cases hdirty
      · rw [hvalidp] at hinvalid
        cases hinvalid
  · have hplive := NodeTree.contains_of_parentId? hparent
    rw [stylesOf, stylesOf, styles_recomputeAll hwf hdue.order hplive hp]

/-- **Computing nodes keeps everything current that is spared.** -/
theorem Current.recomputeAll (h : s.Current Scope) (hwf : s.tree.WellFormed) (hsynced : s.Synced)
    (hdue : s.Settles due)
    (hspares : ∀ id, Scope' id → s.tree.isDirty id = .ok false → id ∉ due.map Prod.fst →
      Scope id ∧ s.Spares ((s.recomputeAll due).validated found) due id) :
    ((s.recomputeAll due).validated found).Current Scope' := by
  have hshape := s.equalUpToMarks_recomputeAll due
  have hclean {k : NodeId} (hk : (s.recomputeAll due).tree.isDirty k = .ok false)
      (hnot : k ∉ due.map Prod.fst) : s.tree.isDirty k = .ok false := by
    rw [← hk]
    exact (isDirty_recomputeAll ((hshape.contains k).symm.trans (contains_of_clean hk)) hnot).symm
  constructor
  · intro id hid hidclean p hparent m' hm' hvalid
    have hparent : s.tree.parentId? id = some p := (hshape.parentId? id).symm.trans hparent
    have hplive := NodeTree.contains_of_parentId? hparent
    obtain ⟨m, hm, -⟩ := manager?_computed hm'
    show (s.recomputeAll due).tree.isDirty p = .ok false
    by_cases hp : p ∈ due.map Prod.fst
    · exact isDirty_recomputeAll_of_mem hdue.order hp
    rw [isDirty_recomputeAll hplive hp]
    by_cases hin : id ∈ due.map Prod.fst
    · -- a marked parent would have been computed before the node
      exact NodeTree.isDirty_eq_false hplive fun hdirty =>
        hp (hdue.upward id hin p hparent m hm (Or.inl hdirty))
    · obtain ⟨hold, hspared⟩ := hspares id hid (hclean hidclean hin) hin
      exact h.reach id hold (hclean hidclean hin) p hparent m hm
        (hspared.served p (Or.inr hparent) hp m m' hm hm' hvalid)
  · intro id hid hidclean m' hm' hvalid
    obtain ⟨m, hm, hcompute⟩ := manager?_computed hm'
    by_cases hin : id ∈ due.map Prod.fst
    · obtain ⟨⟨id, m₀⟩, hentry, rfl⟩ := List.mem_map.mp hin
      obtain rfl : m₀ = m := Option.some.inj ((hdue.manager _ hentry).symm.trans hm)
      exact (follows_recomputeAll hwf hsynced hdue.order hentry).congr rfl rfl rfl (fun _ _ => rfl)
        hcompute
    · have hidclean := hclean hidclean hin
      obtain ⟨hold, hspared⟩ := hspares id hid hidclean hin
      have hbefore := hspared.served id (Or.inl rfl) hin m m' hm hm' hvalid
      refine (h.follows id hold hidclean m hm hbefore).congr (hshape.lineage id) ?_
        (hshape.parentId? id) (fun p hparent => ?_) hcompute
      · exact congrArg (Option.getD · _)
          (styles_recomputeAll hwf hdue.order (contains_of_clean hidclean) hin)
      · exact h.computed_parent hwf hdue hspared hold hidclean hm hbefore hparent

/-! ## §4 Every action -/

/-- Adoption makes no difference to whether a node is spared. -/
theorem Spares.sync (h : s.Spares s' due id) (hwf : s.tree.WellFormed)
    (hlive : s.tree.contains id = true) : s.sync.Spares s' due id := by
  constructor
  · intro k hk hnot m m' hm
    have hklive : s.tree.contains k = true := by
      rcases hk with rfl | hparent
      · exact hlive
      · exact NodeTree.contains_of_parentId? hparent
    rw [manager?_sync hklive] at hm
    exact h.served k hk hnot m m' hm
  · intro p m m' hparent hm hvalid hm' hinvalid
    have hplive : s.tree.contains p = true := NodeTree.contains_of_parentId? hparent
    rw [manager?_sync hlive] at hm
    rw [manager?_sync hplive] at hm'
    rw [stylesOf_sync hwf hplive]
    exact h.kept p m m' hparent hm hvalid hm' hinvalid

/-- **An action keeps everything current that it spares.** Only a pass makes managers valid, so only a
pass can do so behind the back of a node. -/
theorem Current.after (h : s.Current Scope) (hk : s.WellKept) {a : SceneAction} (ha : a.Discreet)
    (hscope : ∀ id, (s.after a).tree.isDirty id = .ok false → id ∉ (s.renewed a).map Prod.fst →
      (s.after a).tree.isEffectivelyVisible id = s.tree.isEffectivelyVisible id →
      Scope' id → Scope id)
    (hserved : a = .updateStyles → ∀ id, Scope' id → (s.after a).tree.isDirty id = .ok false →
      id ∉ (s.renewed a).map Prod.fst → ∀ k, k = id ∨ s.tree.parentId? id = some k →
      k ∉ (s.renewed a).map Prod.fst → ∀ m m', s.manager? k = some m →
      (s.after a).manager? k = some m' → m'.valid = true → m.valid = true)
    (hkept : ∀ id, Scope' id → (s.after a).tree.isDirty id = .ok false →
      id ∉ (s.renewed a).map Prod.fst → ∀ p m m', s.tree.parentId? id = some p →
      s.manager? id = some m → m.valid = true → s.manager? p = some m' → m'.valid = false →
      ((s.after a).stylesOf p).computed = (s.stylesOf p).computed) :
    (s.after a).Current Scope' := by
  have hwf := hk.tree
  have hstep := s.stepsTo_after a
  have hwf' := hstep.wellFormed hwf
  generalize s.after a = s' at hstep hwf' hscope hserved hkept
  rcases hstep.announces_or_computes ha hk with ⟨hnobody, hannounces⟩ | ⟨hsettles, hs'⟩
  · refine h.of_announces hannounces hwf hwf' fun id hclean hpath => hscope id hclean ?_ ?_
    · simp [hnobody]
    · obtain ⟨n, above, hp, -, -⟩ := path?_of_clean hclean
      rw [NodeTree.isEffectivelyVisible_of_path? hp,
        NodeTree.isEffectivelyVisible_of_path? (hpath.symm.trans hp)]
  · have hshape := s.sync.equalUpToMarks_recomputeAll (s.renewed a)
    -- an action for a single node makes no manager valid
    obtain ⟨found, rfl, hfound⟩ : ∃ found,
        s' = (s.sync.recomputeAll (s.renewed a)).validated found ∧
          (found = [] ∨ a = .updateStyles) := by
      rcases hs' with rfl | ⟨rfl, rfl⟩
      · exact ⟨[], (validated_nil _).symm, Or.inl rfl⟩
      · exact ⟨_, rfl, Or.inr rfl⟩
    refine (h.sync hwf).recomputeAll hwf (synced_sync hwf) hsettles fun id hid hclean hnot => ?_
    have hlive := contains_of_clean hclean
    have hclean' : (s.sync.recomputeAll (s.renewed a)).tree.isDirty id = .ok false :=
      (isDirty_recomputeAll hlive hnot).trans hclean
    refine ⟨hscope id hclean' hnot (hshape.isEffectivelyVisible id) hid, ?_⟩
    refine Spares.sync ⟨fun k hk hknot m m' hm hm' hvalid => ?_, hkept id hid hclean' hnot⟩ hwf hlive
    rcases hfound with rfl | ha'
    · rw [validated_nil, manager?_congr hshape (attachments_recomputeAll _ _)
        (managers_recomputeAll _ _), manager?_sync] at hm'
      · obtain rfl := Option.some.inj (hm.symm.trans hm')
        exact hvalid
      · rcases hk with rfl | hparent
        · exact hlive
        · exact NodeTree.contains_of_parentId? hparent
    · exact hserved ha' id hid hclean' hnot k hk hknot m m' hm hm' hvalid

/-! ## §5 Runs that take note -/

section Runs

variable (allowed : Scene → SceneAction → Prop) (misses : Scene → SceneAction → NodeId → Prop)

/-- The nodes that a run has missed, after one more action: they are forgotten when they are marked or
computed anew. -/
def missedAfter (s : Scene) (missed : NodeId → Prop) (a : SceneAction) (id : NodeId) : Prop :=
  (s.after a).tree.isDirty id = .ok false ∧ id ∉ (s.renewed a).map Prod.fst ∧
    (missed id ∨ misses s a id)

/-- The scene comes from a run of allowed actions, which has missed the nodes. -/
inductive Traced : Scene → (NodeId → Prop) → Prop where
  | empty : Traced Scene.empty fun _ => False
  | step {s : Scene} {missed : NodeId → Prop} {a : SceneAction} (h : Traced s missed)
      (ha : allowed s a) : Traced (s.after a) (missedAfter misses s missed a)

end Runs

end Scene

end StyledScene
