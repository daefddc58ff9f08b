import StyledScene.Proofs.Scene.Accounting
import StyledScene.Proofs.Scene.Announcing

/-!
# Freshness

The style of a node from scratch is computed along its path: first that of the root, then that of each
node from the style of its parent, all with the tree, the declarations and the values of this moment.
The library does not compute it this way; it keeps styles and computes few of them anew. Main statement:
in a scene of a careful host, right after a frame pass, every visible node whose root carries a manager
has exactly its style from scratch (`computedStyle_eq_scratch`).

What carries it is `Fresh`: at all times, a visible node without a mark, with a valid manager, has its
style from scratch. Every change either announces itself, or computes nodes together with those of their
ancestors that have to be computed first.
-/

namespace StyledScene

namespace Scene

/-! ## §1 Styles from scratch -/

/-- The style of the first of some nodes, computed from the last one downward. -/
def scratch (s : Scene) (m : StyleManager) : List NodeId → Option Style
  | [] => none
  | id :: above => some <| m.computeStyle (s.tree.lineage id)
      { parent := s.scratch m above
        ownValues := some (s.stylesOf id).ownValues
        defaults := some (s.stylesOf id).defaults
        inherits := (s.stylesOf id).kind.inherits }

/-- The path of a node, upward. -/
def pathIds (s : Scene) (id : NodeId) : List NodeId := ((s.tree.path? id).getD []).map Node.id

/-- The manager that the root of a node carries. -/
def rootManager? (s : Scene) (id : NodeId) : Option StyleManager :=
  (s.pathIds id).getLast?.bind fun root =>
    (s.attachments.get? root).bind fun number => s.managers[number]?

/-- The node has its style from scratch, and the flags that go with it. -/
def UpToDate (s : Scene) (m : StyleManager) (id : NodeId) : Prop :=
  some (s.stylesOf id).computed = s.scratch m (s.pathIds id) ∧
    (s.stylesOf id).flags = (s.stylesOf id).kind.summarize (s.stylesOf id).computed

/-- Visible nodes without a mark, with a valid manager, are up to date. -/
def Fresh (s : Scene) : Prop :=
  ∀ id m, s.tree.isEffectivelyVisible id = .ok true → s.tree.isDirty id = .ok false →
    s.manager? id = some m → m.valid = true → s.UpToDate m id

/-- Two scenes give a style the same to start from, apart from the style of the parent. -/
def SameInputs (s s' : Scene) (id : NodeId) : Prop :=
  s'.tree.lineage id = s.tree.lineage id ∧ (s'.stylesOf id).kind = (s.stylesOf id).kind ∧
    (s'.stylesOf id).ownValues = (s.stylesOf id).ownValues ∧
    (s'.stylesOf id).defaults = (s.stylesOf id).defaults

theorem scratch_congr {s s' : Scene} {m m' : StyleManager} {ids : List NodeId}
    (hinputs : ∀ id ∈ ids, s.SameInputs s' id)
    (hmanager : ∀ lineage context, m'.computeStyle lineage context = m.computeStyle lineage context) :
    s'.scratch m' ids = s.scratch m ids := by
  -- the style of the parent is the induction hypothesis
  induction ids with
  | nil => rfl
  | cons id above ih =>
    obtain ⟨hlineage, hkind, hown, hdefaults⟩ := hinputs id List.mem_cons_self
    rw [scratch, scratch, hlineage, hkind, hown, hdefaults, hmanager,
      ih fun k hk => hinputs k (List.mem_cons_of_mem id hk)]

theorem pathIds_of_path? {s : Scene} {id : NodeId} {p : List Node} (h : s.tree.path? id = some p) :
    s.pathIds id = p.map Node.id := by
  rw [pathIds, h, Option.getD_some]

theorem pathIds_congr {s s' : Scene} (h : s.tree.EqualUpToMarks s'.tree) (id : NodeId) :
    s'.pathIds id = s.pathIds id :=
  h.map_id_getD id

theorem UpToDate.congr {s s' : Scene} {m m' : StyleManager} {id : NodeId} (h : s.UpToDate m id)
    (hpath : s'.pathIds id = s.pathIds id) (hinputs : ∀ k ∈ s.pathIds id, s.SameInputs s' k)
    (hmanager : ∀ lineage context, m'.computeStyle lineage context = m.computeStyle lineage context)
    (hstyles : s'.stylesOf id = s.stylesOf id) : s'.UpToDate m' id := by
  obtain ⟨hcomputed, hflags⟩ := h
  refine ⟨?_, by rw [hstyles]; exact hflags⟩
  rw [hstyles, hpath, scratch_congr hinputs hmanager]
  exact hcomputed

/-! ## §2 Announced changes -/

variable {s s' : Scene}

/-- A change that announces itself keeps a scene fresh. -/
theorem Fresh.of_announces (hfresh : s.Fresh) (h : s.Announces s') : s'.Fresh := by
  intro id m' hvis hclean hm' hvalid
  obtain ⟨n, above, hp', hn⟩ := NodeTree.path?_of_contains (NodeTree.contains_of_visible hvis)
  have hnclean : n.dirty = false := by
    rw [NodeTree.isDirty_of_path? hp'] at hclean
    exact Except.ok.inj hclean
  obtain ⟨hp, hsame⟩ := h id n above hp' hnclean
  -- the path is the old one, and so is everything that is looked up along it
  have hvis' : s.tree.isEffectivelyVisible id = .ok true := by
    rw [NodeTree.isEffectivelyVisible_of_path? hp, ← hvis,
      NodeTree.isEffectivelyVisible_of_path? hp']
  have hclean' : s.tree.isDirty id = .ok false := by
    rw [NodeTree.isDirty_of_path? hp, hnclean]
  obtain ⟨m, hm, hbefore, hcompute⟩ := hsame.managers n List.mem_cons_self m' (hn ▸ hm') hvalid
  refine (hfresh id m hvis' hclean' (hn ▸ hm) hbefore).congr ?_ ?_ hcompute ?_
  · rw [pathIds_of_path? hp, pathIds_of_path? hp']
  · intro k hk
    rw [pathIds_of_path? hp] at hk
    obtain ⟨a, ha, rfl⟩ := List.mem_map.mp hk
    have hstyles := hsame.styles a ha
    exact ⟨hsame.lineage a ha, by rw [hstyles], by rw [hstyles], by rw [hstyles]⟩
  · exact hn ▸ hsame.styles n List.mem_cons_self

/-- Adoption keeps a scene fresh. -/
theorem Fresh.sync (hfresh : s.Fresh) (hwf : s.tree.WellFormed) : s.sync.Fresh :=
  hfresh.of_announces (announces_sync hwf)

/-! ## §3 Computing anew -/

/-- A living node asks for a new style, by its mark or by its manager, or it does not. -/
theorem needed_or_settled {id : NodeId} (hlive : s.tree.contains id = true) (m : StyleManager) :
    (s.tree.isDirty id = .ok true ∨ m.valid = false) ∨
      s.tree.isDirty id = .ok false ∧ m.valid = true := by
  by_cases hdirty : s.tree.isDirty id = .ok true
  · exact Or.inl (Or.inl hdirty)
  · cases hvalid : m.valid with
    | false => exact Or.inl (Or.inr rfl)
    | true => exact Or.inr ⟨NodeTree.isDirty_eq_false hlive hdirty, rfl⟩

/-- A settled node is up to date if the style of its parent was from scratch. -/
theorem upToDate_of_settled {m : StyleManager} {id : NodeId} (above : List NodeId)
    (hsettled : s.stylesOf id = s.freshStyles m id) (hpath : s.pathIds id = id :: above)
    (hparent : (s.contextOf id).parent = s.scratch m above) : s.UpToDate m id := by
  have hcomputed : (s.stylesOf id).computed =
      m.computeStyle (s.tree.lineage id) (s.contextOf id) := congrArg NodeStyles.computed hsettled
  have hflags : (s.stylesOf id).flags =
      (s.stylesOf id).kind.summarize (m.computeStyle (s.tree.lineage id) (s.contextOf id)) :=
    congrArg NodeStyles.flags hsettled
  refine ⟨?_, by rw [hcomputed]; exact hflags⟩
  rw [hcomputed, hpath, scratch, ← hparent]
  rfl

/-- Computing other nodes keeps a node up to date. -/
theorem UpToDate.recomputeAll {m : StyleManager} {id : NodeId} (h : s.UpToDate m id)
    (hwf : s.tree.WellFormed) {due : List (NodeId × StyleManager)}
    (hord : s.tree.InOrder (due.map Prod.fst)) (hlive : s.tree.contains id = true)
    (hnot : id ∉ due.map Prod.fst) : (s.recomputeAll due).UpToDate m id := by
  have hshape := s.equalUpToMarks_recomputeAll due
  refine h.congr (pathIds_congr hshape id) (fun k hk => ?_) (fun _ _ => rfl) ?_
  · obtain ⟨n, above, hp, -⟩ := NodeTree.path?_of_contains hlive
    rw [pathIds_of_path? hp] at hk
    obtain ⟨a, ha, rfl⟩ := List.mem_map.mp hk
    exact ⟨hshape.lineage a.id, own_recomputeAll hwf hord (contains_of_mem_path hp ha)⟩
  · exact congrArg (Option.getD · _) (styles_recomputeAll hwf hord hlive hnot)

/-- A node that is computed anew is up to date if its parent is, in the end. -/
theorem upToDate_of_mem (hk : s.WellHosted) (hsynced : s.Synced)
    {due : List (NodeId × StyleManager)} (hdue : s.Settles due) {id : NodeId} {m : StyleManager}
    (hm : s.manager? id = some m) (hin : id ∈ due.map Prod.fst) {n : Node} {above : List Node}
    (hp : s.tree.path? id = some (n :: above))
    (hup : ∀ q up, above = q :: up → (s.recomputeAll due).UpToDate m q.id) :
    (s.recomputeAll due).UpToDate m id := by
  have hshape := s.equalUpToMarks_recomputeAll due
  obtain ⟨⟨id, m'⟩, hentry, rfl⟩ := List.mem_map.mp hin
  obtain rfl : m' = m := Option.some.inj ((hdue.manager _ hentry).symm.trans hm)
  have hsettled := freshStyles_recomputeAll hk.tree hdue.order hentry
  refine upToDate_of_settled (above.map Node.id) hsettled ?_ ?_
  · rw [pathIds_congr hshape, pathIds_of_path? hp, List.map_cons, Forest.id_of_path? hp]
  · rw [contextOf, hshape.parentId?]
    cases above with
    | nil =>
      rw [NodeTree.parentId?_of_root hp]
      rfl
    | cons q up =>
      have hqp := Forest.path?_above hk.tree.nodup_ids hp
      have hqlive := (hshape.contains q.id).trans (NodeTree.contains_of_path? hqp)
      -- every living node has styles, so the style of the parent is there to be read
      have hqstyles := (hsynced.recomputeAll hk.tree fun entry hentry =>
        hdue.order.live entry.1 (List.mem_map_of_mem hentry)).styles_of_live hqlive
      rw [NodeTree.parentId?_of_path? hp, Option.bind_some, hqstyles, Option.map_some,
        (hup q up rfl).1, pathIds_congr hshape, pathIds_of_path? hqp]

/-- **Nodes that are computed anew are up to date afterwards**, and so are nodes that were fresh. The
induction is on the path: the style of a parent is from scratch when its child is computed. -/
theorem upToDate_recomputeAll (hk : s.WellHosted) (hsynced : s.Synced) (hfresh : s.Fresh)
    {due : List (NodeId × StyleManager)} (hdue : s.Settles due) {id : NodeId} {m : StyleManager}
    (hvis : s.tree.isEffectivelyVisible id = .ok true) (hm : s.manager? id = some m)
    (h : id ∈ due.map Prod.fst ∨ s.tree.isDirty id = .ok false ∧ m.valid = true) :
    (s.recomputeAll due).UpToDate m id := by
  have hkept (k : NodeId) (hkvis : s.tree.isEffectivelyVisible k = .ok true)
      (hkm : s.manager? k = some m) (hknot : k ∉ due.map Prod.fst)
      (hkfresh : s.tree.isDirty k = .ok false ∧ m.valid = true) :
      (s.recomputeAll due).UpToDate m k :=
    (hfresh k m hkvis hkfresh.1 hkm hkfresh.2).recomputeAll hk.tree hdue.order
      (NodeTree.contains_of_visible hkvis) hknot
  obtain ⟨n, above, hp, -⟩ := NodeTree.path?_of_contains (NodeTree.contains_of_visible hvis)
  induction above generalizing id n with
  | nil =>
    by_cases hin : id ∈ due.map Prod.fst
    · exact upToDate_of_mem hk hsynced hdue hm hin hp fun q up heq => by cases heq
    · exact hkept id hvis hm hin (h.resolve_left hin)
  | cons q up ih =>
    by_cases hin : id ∈ due.map Prod.fst
    · have hparent := NodeTree.parentId?_of_path? hp
      have hqp := Forest.path?_above hk.tree.nodup_ids hp
      have hqvis := NodeTree.isEffectivelyVisible_parent hk.tree.nodup_ids hvis hparent
      have hqm : s.manager? q.id = some m := (hk.manager?_above hp).symm.trans hm
      apply upToDate_of_mem hk hsynced hdue hm hin hp
      intro q' up' heq
      obtain ⟨rfl, rfl⟩ := List.cons.inj heq
      refine ih hqvis hqm ?_ q hqp
      -- a parent that is not computed as well was fresh before
      rcases needed_or_settled (NodeTree.contains_of_visible hqvis) m with hneeded | hsettled
      · exact Or.inl (hdue.upward id hin q.id hparent m hqm hneeded)
      · exact Or.inr hsettled
    · exact hkept id hvis hm hin (h.resolve_left hin)

/-- Computing some nodes and their stale ancestors keeps a scene fresh. -/
theorem Fresh.recomputeAll (hfresh : s.Fresh) (hk : s.WellHosted) (hsynced : s.Synced)
    {due : List (NodeId × StyleManager)} (hdue : s.Settles due) : (s.recomputeAll due).Fresh := by
  have hshape := s.equalUpToMarks_recomputeAll due
  intro id m hvis hclean hm hvalid
  rw [hshape.isEffectivelyVisible] at hvis
  rw [manager?_congr hshape (s.attachments_recomputeAll due) (s.managers_recomputeAll due)] at hm
  refine upToDate_recomputeAll hk hsynced hfresh hdue hvis hm ?_
  by_cases hin : id ∈ due.map Prod.fst
  · exact Or.inl hin
  · rw [isDirty_recomputeAll (NodeTree.contains_of_visible hvis) hin] at hclean
    exact Or.inr ⟨hclean, hvalid⟩

/-- Making managers valid changes nobody's manager, but for its validity. -/
theorem manager?_validated {found : List Visit} {id : NodeId} {m : StyleManager}
    (hm : (s.validated found).manager? id = some m) :
    ∃ m₀, s.manager? id = some m₀ ∧
      ∀ lineage context, m.computeStyle lineage context = m₀.computeStyle lineage context := by
  obtain ⟨number, hnumber, hlookup⟩ := Option.bind_eq_some_iff.mp hm
  have hnumber : s.managerNumber? id = some number := hnumber
  rw [getElem?_validated] at hlookup
  split at hlookup
  · obtain ⟨m₀, hm₀, rfl⟩ := Option.map_eq_some_iff.mp hlookup
    exact ⟨m₀, Option.bind_eq_some_iff.mpr ⟨number, hnumber, hm₀⟩, fun _ _ => rfl⟩
  · exact ⟨m, Option.bind_eq_some_iff.mpr ⟨number, hnumber, hlookup⟩, fun _ _ => rfl⟩

/-- The manager of a node after nodes were computed is the one from before, but for its validity. -/
theorem manager?_computed {due : List (NodeId × StyleManager)} {found : List Visit} {id : NodeId}
    {m : StyleManager} (hm : ((s.recomputeAll due).validated found).manager? id = some m) :
    ∃ m₀, s.manager? id = some m₀ ∧
      ∀ lineage context, m.computeStyle lineage context = m₀.computeStyle lineage context := by
  obtain ⟨m₀, hm₀, hcompute⟩ := manager?_validated hm
  rw [manager?_congr (s.equalUpToMarks_recomputeAll due) (s.attachments_recomputeAll due)
    (s.managers_recomputeAll due)] at hm₀
  exact ⟨m₀, hm₀, hcompute⟩

/-- After a pass, every visible node with a manager is up to date. -/
theorem upToDate_passed (hk : s.WellHosted) (hfresh : s.Fresh) {id : NodeId} {m : StyleManager}
    (hvis : s.passed.tree.isEffectivelyVisible id = .ok true) (hm : s.passed.manager? id = some m) :
    s.passed.UpToDate m id := by
  have hnd := hk.tree.nodup_ids
  rw [s.equalUpToMarks_passed.isEffectivelyVisible] at hvis
  obtain ⟨m₀, hm₀, hcompute⟩ := manager?_computed (s := s.sync) hm
  -- what a visible node needs decides whether it is on the agenda
  have hdone : id ∈ (s.sync.agenda s.sync.visible).map Prod.fst ∨
      s.sync.tree.isDirty id = .ok false ∧ m₀.valid = true := by
    rcases needed_or_settled (s := s.sync) (NodeTree.contains_of_visible hvis) m₀ with
      hneeded | hsettled
    · exact Or.inl ((mem_agenda_ids_iff (s := s.sync) hnd).mpr ⟨hvis, m₀, hm₀, hneeded⟩)
    · exact Or.inr hsettled
  have hall := upToDate_recomputeAll hk.sync (synced_sync hk.tree) (hfresh.sync hk.tree)
    (settles_agenda (s := s.sync) hnd) hvis hm₀ hdone
  exact hall.congr rfl (fun k _ => ⟨rfl, rfl, rfl, rfl⟩) hcompute rfl

/-! ## §4 Every action -/

/-- **Every action of a careful host keeps a scene fresh.** -/
theorem StepsTo.fresh {a : SceneAction} (h : s.StepsTo a s') (ha : a.Admissible s)
    (hk : s.WellHosted) (hfresh : s.Fresh) : s'.Fresh := by
  rcases h.announces_or_computes ha.discreet hk.wellKept with ⟨-, hannounced⟩ | ⟨hsettles, hs'⟩
  · exact hfresh.of_announces hannounced
  · rcases hs' with rfl | ⟨-, rfl⟩
    · exact (hfresh.sync hk.tree).recomputeAll hk.sync (synced_sync hk.tree) hsettles
    · exact fun id m hvis _ hm _ => upToDate_passed hk hfresh hvis hm

theorem fresh_empty : empty.Fresh := by
  intro id m hvis _ _ _
  have hlive := NodeTree.contains_of_visible hvis
  cases hlive

theorem Hosted.fresh (h : s.Hosted) : s.Fresh := by
  induction h with
  | empty => exact fresh_empty
  | @step s a h ha ih => exact (s.stepsTo_after a).fresh ha h.wellHosted ih

/-! ## §5 Right after a pass -/

/-- In a well-hosted scene a node uses the manager of its root. -/
theorem WellHosted.manager?_eq_rootManager? (hk : s.WellHosted) {id : NodeId}
    (hlive : s.tree.contains id = true) : s.manager? id = s.rootManager? id := by
  obtain ⟨n, above, hp, hn⟩ := NodeTree.path?_of_contains hlive
  clear hlive
  -- going up, the manager stays the same, and so does the root
  induction above generalizing id n with
  | nil =>
    rw [manager?, managerNumber?_of_path? hp, rootManager?, pathIds_of_path? hp]
    simp
  | cons q up ih =>
    have hqp := Forest.path?_above hk.tree.nodup_ids hp
    rw [hk.manager?_above hp, ih q hqp rfl, rootManager?, rootManager?, pathIds_of_path? hp,
      pathIds_of_path? hqp]
    rfl

/-- **Right after a frame pass, visible styles are from scratch.** In a scene of a careful host, every
visible node whose root carries a manager then has the style that this manager computes from the root
down, with the flags of that style, and it bears no mark. -/
theorem computedStyle_eq_scratch (h : s.Hosted) {id : NodeId} {m : StyleManager}
    (hvis : s.updateStyles.2.tree.isEffectivelyVisible id = .ok true)
    (hroot : s.updateStyles.2.rootManager? id = some m) :
    ∃ style, s.updateStyles.2.scratch m (s.updateStyles.2.pathIds id) = some style ∧
      s.updateStyles.2.computedStyle id = .ok style ∧
      s.updateStyles.2.boxFlags id =
        .ok ((s.updateStyles.2.stylesOf id).kind.summarize style) ∧
      s.updateStyles.2.tree.isDirty id = .ok false := by
  have hk := h.wellHosted
  rw [updateStyles_eq] at hvis hroot ⊢
  simp only at hvis hroot ⊢
  have hlive := NodeTree.contains_of_visible hvis
  have hk' : s.passed.WellHosted := StepsTo.wellHosted .pass trivial hk
  rw [← hk'.manager?_eq_rootManager? hlive] at hroot
  obtain ⟨hcomputed, hflags⟩ := upToDate_passed hk h.fresh hvis hroot
  refine ⟨(s.passed.stylesOf id).computed, hcomputed.symm, ?_, ?_, ?_⟩
  · rw [computedStyle, read, if_pos hlive]
  · rw [boxFlags, read, if_pos hlive, hflags]
  · -- a marked node would be due again
    apply NodeTree.isDirty_eq_false hlive
    intro hdirty
    exact (accounts_passed hk.tree).not_due id ⟨hvis, m, hroot, Or.inl hdirty⟩

/-- A managed column with a label in it. The font weight of columns is declared after a first pass,
while the label is hidden. -/
def column : Scene :=
  empty.run [.createNode .container, .addManager .usual, .attach ⟨1, 1⟩ 0,
    .createChild ⟨1, 1⟩ .text, .updateStyles, .editTree (.setVisible ⟨2, 1⟩ false),
    .editManager 0 (.access "Container"),
    .editManager 0 (.change (.keyed "container") (.edit (.set .fontWeight 700))),
    .ensureStyle ⟨1, 1⟩, .editTree (.setVisible ⟨2, 1⟩ true)]

theorem hosted_column : column.Hosted :=
  Hosted.empty.run ⟨trivial, trivial, rfl, trivial, trivial, trivial, trivial, trivial, trivial,
    trivial, trivial⟩

/-- After the next pass, the label has its style from scratch. -/
theorem computedStyle_column :
    column.updateStyles.2.tree.isEffectivelyVisible ⟨2, 1⟩ = .ok true ∧
      ∃ m style, column.updateStyles.2.rootManager? ⟨2, 1⟩ = some m ∧
        column.updateStyles.2.scratch m [⟨2, 1⟩, ⟨1, 1⟩] = some style ∧
        column.updateStyles.2.computedStyle ⟨2, 1⟩ = .ok style := by
  have hvis : column.updateStyles.2.tree.isEffectivelyVisible ⟨2, 1⟩ = .ok true := by
    decide
  have hpath : column.updateStyles.2.pathIds ⟨2, 1⟩ = [⟨2, 1⟩, ⟨1, 1⟩] := by decide
  have hcarried : (column.updateStyles.2.rootManager? ⟨2, 1⟩).isSome = true := by decide
  obtain ⟨m, hm⟩ := Option.isSome_iff_exists.mp hcarried
  obtain ⟨style, hscratch, hcomputed, -⟩ := computedStyle_eq_scratch hosted_column hvis hm
  rw [hpath] at hscratch
  exact ⟨hvis, m, style, hm, hscratch, hcomputed⟩

end Scene

end StyledScene
