import StyledScene.Proofs.Scene.Freshness

/-!
# Paths with a gap

The frame pass passes over a node that uses no manager and goes on below it. Bringing a single node up to
date does not: it goes down the path from the root and is refused at the first node that uses no manager
(`ensureStyle_fst_eq`), whatever stands below. So the two disagree about a managed node below one that has
no manager. Main statement: right after a pass, a visible node all of whose path is managed is answered
with the style that the pass has left on it and can be painted, and with a gap in its path it is refused;
neither changes the scene (`read_passed`). That may happen to a node that the pass has computed
(`read_gap`).
-/

namespace StyledScene

namespace Scene

variable {s : Scene} {id : NodeId}

/-! ## §1 Where a path is refused -/

/-- The topmost node on the path of a node that uses no manager. -/
def unserved? (s : Scene) (id : NodeId) : Option NodeId :=
  (s.pathIds id).reverse.find? fun k => (s.manager? k).isNone

theorem unserved?_of_path? {p : List Node} (hp : s.tree.path? id = some p) :
    s.unserved? id = (p.reverse.find? fun n => (s.manager? n.id).isNone).map Node.id := by
  rw [unserved?, pathIds_of_path? hp, ← List.map_reverse, List.find?_map]
  rfl

theorem unserved?_eq_none_iff :
    s.unserved? id = none ↔ ∀ k ∈ s.pathIds id, (s.manager? k).isSome = true := by
  simp [unserved?, Option.isSome_iff_ne_none]

/-- Bringing nodes up to date is refused at the first one that uses no manager. -/
theorem refresh_fst_eq (ns : List Node) :
    (s.refresh ns).1 =
      match ns.find? fun n => (s.manager? n.id).isNone with
      | none => .ok ()
      | some n => .error (.noStyleManager n.id) := by
  induction ns generalizing s with
  | nil => rfl
  | cons n ns ih =>
    unfold refresh
    cases hm : s.manager? n.id with
    | none => simp [hm]
    | some m =>
      -- computing a node does not change who has which manager
      have hmanager := manager?_congr (s.equalUpToMarks_recompute m n.id) rfl rfl
      simp only [ih, hmanager, List.find?_cons, hm, Option.isNone_some]

/-- A node without a manager is stale, so the stale nodes are refused where the path is. -/
theorem find?_stalePath {p : List Node} (hp : s.tree.path? id = some p) :
    ((s.stalePath id).find? fun n => (s.manager? n.id).isNone) =
      p.reverse.find? fun n => (s.manager? n.id).isNone := by
  rw [stalePath_of_path? hp, List.find?_filter]
  congr 1
  funext n
  cases hm : s.manager? n.id with
  | none => simp [isStale, hm]
  | some m => simp

/-- **On demand, a path is refused at its topmost node without a manager.** -/
theorem ensureStyle_fst_eq (hlive : s.tree.contains id = true) :
    (s.ensureStyle id).1 =
      match s.sync.unserved? id with
      | none => .ok ((s.ensureStyle id).2.stylesOf id).computed
      | some k => .error (.noStyleManager k) := by
  obtain ⟨n, above, hp, -⟩ := NodeTree.path?_of_contains hlive
  have hrefresh := s.sync.refresh_fst_eq (s.sync.stalePath id)
  rw [find?_stalePath (s := s.sync) hp] at hrefresh
  rw [unserved?_of_path? (s := s.sync) hp]
  -- the work is done after adoption, on the stale nodes of the path
  unfold ensureStyle
  simp only
  rw [if_pos (show s.sync.tree.contains id = true from hlive)]
  revert hrefresh
  rcases s.sync.refresh (s.sync.stalePath id) with ⟨r, after⟩
  rintro rfl
  cases (n :: above).reverse.find? fun n => (s.sync.manager? n.id).isNone <;> rfl

/-- Nobody is served where the first node has no manager. -/
theorem served_eq_nil {ns : List Node} (h : ∀ n, ns.head? = some n → s.manager? n.id = none) :
    s.served ns = [] := by
  cases ns with
  | nil => rfl
  | cons n ns =>
    unfold served
    rw [h n rfl]

/-! ## §2 After a pass -/

/-- After a pass, the stale nodes of a visible path are those without a manager. -/
theorem manager?_of_mem_stalePath_passed (hwf : s.tree.WellFormed)
    (hvis : s.passed.tree.isEffectivelyVisible id = .ok true) {n : Node}
    (hn : n ∈ s.passed.stalePath id) : s.passed.manager? n.id = none := by
  have haccounts := accounts_passed hwf
  have hnd := (hwf.of_equalUpToMarks haccounts.shape).nodup_ids
  obtain ⟨p, hp, hall⟩ := NodeTree.isEffectivelyVisible_iff.mp hvis
  rw [stalePath_of_path? hp] at hn
  obtain ⟨hmem, hstale⟩ := List.mem_filter.mp hn
  obtain ⟨below, up, rfl, hup⟩ := NodeTree.path?_of_mem_path hnd hp (List.mem_reverse.mp hmem)
  cases hm : s.passed.manager? n.id with
  | none => rfl
  | some m =>
    -- a managed node on a visible path would still be due
    have hnvis : s.passed.tree.isEffectivelyVisible n.id = .ok true :=
      NodeTree.isEffectivelyVisible_iff.mpr
        ⟨n :: up, hup, fun k hk => hall k (List.mem_append_right below hk)⟩
    exact (haccounts.not_due n.id ⟨hnvis, m, hm, (isStale_iff hup hm).mp hstale⟩).elim

/-- On demand, a visible node is answered after a pass without any work, or it is refused. -/
theorem ensureStyle_passed (hwf : s.tree.WellFormed)
    (hvis : s.passed.tree.isEffectivelyVisible id = .ok true) :
    s.passed.ensureStyle id =
      (match s.passed.unserved? id with
        | none => .ok (s.passed.stylesOf id).computed
        | some k => .error (.noStyleManager k),
      s.passed) := by
  have hsync := sync_eq_self (synced_passed hwf)
  -- the first stale node, if any, has no manager, so nobody is computed
  have hsnd : (s.passed.ensureStyle id).2 = s.passed := by
    rw [ensureStyle_snd, hsync, served_eq_nil]
    · rfl
    · exact fun n hn => manager?_of_mem_stalePath_passed hwf hvis (List.mem_of_head? hn)
  have hfst := ensureStyle_fst_eq (NodeTree.contains_of_visible hvis)
  rw [hsync, hsnd] at hfst
  exact Prod.ext hfst hsnd

/-- Right after a pass, a visible node all of whose path is managed is answered with the style that the
pass has left on it, and the scene stays as it is. -/
theorem ensureStyle_after_pass (h : s.Reachable)
    (hvis : (s.after .updateStyles).tree.isEffectivelyVisible id = .ok true)
    (hmanaged : ∀ k ∈ (s.after .updateStyles).pathIds id,
      ((s.after .updateStyles).manager? k).isSome = true) :
    ∃ style m, (s.after .updateStyles).computedStyle id = .ok style ∧
      (s.after .updateStyles).manager? id = some m ∧
      (s.after .updateStyles).ensureStyle id = (.ok style, s.after .updateStyles) := by
  rw [after_updateStyles] at hvis hmanaged ⊢
  have hlive := NodeTree.contains_of_visible hvis
  have hensure := ensureStyle_passed (wellFormed_of_reachable h) hvis
  rw [unserved?_eq_none_iff.mpr hmanaged] at hensure
  obtain ⟨n, above, hp, hn⟩ := NodeTree.path?_of_contains hlive
  obtain ⟨m, hm⟩ := Option.isSome_iff_exists.mp (hmanaged id (by simp [pathIds_of_path? hp, hn]))
  exact ⟨(s.passed.stylesOf id).computed, m, if_pos hlive, hm, hensure⟩

/-- With a gap in its path, a visible node is refused after a pass: it names the topmost node that has no
manager. -/
theorem ensureStyle_after_gap (h : s.Reachable)
    (hvis : (s.after .updateStyles).tree.isEffectivelyVisible id = .ok true) {k : NodeId}
    (hgap : (s.after .updateStyles).unserved? id = some k) :
    (s.after .updateStyles).ensureStyle id =
      (.error (.noStyleManager k), s.after .updateStyles) := by
  rw [after_updateStyles] at hvis hgap ⊢
  have hensure := ensureStyle_passed (wellFormed_of_reachable h) hvis
  rwa [hgap] at hensure

theorem paint_of_ensureStyle_ok {style : Style} {m : StyleManager}
    (hensure : s.ensureStyle id = (.ok style, s)) (hm : s.manager? id = some m) (rect : Rect) :
    s.paint id rect = (.ok ((m.skinFor? style).getD boxSkin rect style), s) := by
  rw [paint, hensure]
  simp only [hm]

theorem paint_of_ensureStyle_error {e : SceneError} (hensure : s.ensureStyle id = (.error e, s))
    (rect : Rect) : s.paint id rect = (.error e, s) := by
  rw [paint, hensure]

/-! ## §3 What can be read -/

/-- **What a pass keeps current can be read and painted, unless its path has a gap.** Right after a pass
over a reachable scene, a visible node all of whose path is managed is answered with the style that the
pass has left on it, its box can be painted, and the scene stays as it is. Any other visible node is
refused, by the name of the topmost node on its path that has no manager; the scene stays as it is. -/
theorem read_passed (h : s.Reachable)
    (hvis : (s.after .updateStyles).tree.isEffectivelyVisible id = .ok true) :
    ((∀ k ∈ (s.after .updateStyles).pathIds id,
        ((s.after .updateStyles).manager? k).isSome = true) →
      ∃ style m, (s.after .updateStyles).computedStyle id = .ok style ∧
        (s.after .updateStyles).manager? id = some m ∧
        (s.after .updateStyles).ensureStyle id = (.ok style, s.after .updateStyles) ∧
        ∀ rect, (s.after .updateStyles).paint id rect =
          (.ok ((m.skinFor? style).getD boxSkin rect style), s.after .updateStyles)) ∧
    ∀ k, (s.after .updateStyles).unserved? id = some k →
      (s.after .updateStyles).ensureStyle id =
          (.error (.noStyleManager k), s.after .updateStyles) ∧
        ∀ rect, (s.after .updateStyles).paint id rect =
          (.error (.noStyleManager k), s.after .updateStyles) := by
  constructor
  · intro hmanaged
    obtain ⟨style, m, hstyle, hm, hensure⟩ := ensureStyle_after_pass h hvis hmanaged
    exact ⟨style, m, hstyle, hm, hensure, paint_of_ensureStyle_ok hensure hm⟩
  · intro k hgap
    have hensure := ensureStyle_after_gap h hvis hgap
    exact ⟨hensure, paint_of_ensureStyle_error hensure⟩

/-- The column of `halfHidden` is managed, and so its visible label can be read after a pass. -/
theorem read_halfHidden :
    ∃ style m, (halfHidden.after .updateStyles).computedStyle ⟨2, 1⟩ = .ok style ∧
      (halfHidden.after .updateStyles).manager? ⟨2, 1⟩ = some m ∧
      (halfHidden.after .updateStyles).ensureStyle ⟨2, 1⟩ =
        (.ok style, halfHidden.after .updateStyles) ∧
      ∀ rect, (halfHidden.after .updateStyles).paint ⟨2, 1⟩ rect =
        (.ok ((m.skinFor? style).getD boxSkin rect style), halfHidden.after .updateStyles) := by
  have hpass := after_updateStyles_of_synced (s := halfHidden) (by decide)
  refine (read_passed (s := halfHidden) ⟨_, rfl⟩ ?_).1 ?_
  · rw [hpass]
    decide
  · rw [hpass]
    decide

/-- A column without a manager, and in it a label that has one. -/
def lonelyLabel : Scene :=
  empty.run [.createNode .container, .createChild ⟨1, 1⟩ .text, .addManager .usual,
    .attach ⟨2, 1⟩ 0]

/-- The pass computes the label and takes its mark away. On demand, and to be painted, the label is
refused, and it is the column that is named. -/
theorem read_gap :
    lonelyLabel.Reachable ∧
      (lonelyLabel.after .updateStyles).tree.isEffectivelyVisible ⟨2, 1⟩ = .ok true ∧
      ((lonelyLabel.after .updateStyles).manager? ⟨2, 1⟩).isSome = true ∧
      (lonelyLabel.after .updateStyles).tree.isDirty ⟨2, 1⟩ = .ok false ∧
      (((lonelyLabel.after .updateStyles).stylesOf ⟨2, 1⟩).computed.get? .textAntialias).isSome =
        true ∧
      ((lonelyLabel.after .updateStyles).ensureStyle ⟨2, 1⟩).1 =
        .error (.noStyleManager ⟨1, 1⟩) ∧
      ∀ rect, ((lonelyLabel.after .updateStyles).paint ⟨2, 1⟩ rect).1 =
        .error (.noStyleManager ⟨1, 1⟩) := by
  have hpass := after_updateStyles_of_synced (s := lonelyLabel) (by decide)
  have hreach : lonelyLabel.Reachable := ⟨_, rfl⟩
  have hvis : (lonelyLabel.after .updateStyles).tree.isEffectivelyVisible ⟨2, 1⟩ = .ok true := by
    rw [hpass]
    decide
  have hgap : (lonelyLabel.after .updateStyles).unserved? ⟨2, 1⟩ = some ⟨1, 1⟩ := by
    rw [hpass]
    decide
  have hensure := ensureStyle_after_gap hreach hvis hgap
  refine ⟨hreach, hvis, ?_, ?_, ?_, ?_, fun rect => ?_⟩
  · rw [hpass]
    decide
  · rw [hpass]
    decide
  · rw [hpass]
    decide +kernel
  · rw [hensure]
  · rw [paint_of_ensureStyle_error hensure]

end Scene

end StyledScene
