import StyledScene.Proofs.Scene.Descent
import StyledScene.Proofs.Scene.Refusals

/-!
# Linked scenes and scenes step together

On a linked scene that represents a scene, the work of an action ends, gives the answer that the scene
gives, and leaves a linked scene that represents the scene afterwards, with those calls on its canvas that
were answered (`Represents.work`). So what is known of refused actions holds statement by statement. Main
statement: a refused action leaves no trace (`refused_without_trace`).
-/

namespace StyledScene

/-- The calls that an answer consists of. -/
def callsOf : Except SceneError SceneReply → List PaintCall
  | .ok (.calls calls) => calls
  | _ => []

namespace LinkedScene

namespace Represents

variable {l : LinkedScene} {s : Scene} {drawn : List PaintCall} {id : NodeId}

/-! ## §1 Styles on demand -/

/-- Computing nodes one after the other is what bringing them up to date does. -/
theorem ends_recomputeEach (h : l.Represents s drawn) (hwf : s.tree.WellFormed) {ns : List Node}
    (hlive : ∀ n ∈ ns, s.tree.contains n.id = true) :
    Yields (recomputeEach (ns.map fun n => (n.id, s.manager? n.id))) l (s.refresh ns).1
      (s.refresh ns).2 drawn := by
  induction ns generalizing s l with
  | nil => exact (ends_pure ()).yields h
  | cons n ns ih =>
    rw [List.map_cons]
    unfold Scene.refresh
    cases hm : s.manager? n.id with
    | none => exact (ends_throw _).yields h
    | some m =>
      have hsame := s.equalUpToMarks_recompute m n.id
      have hmanager := Scene.manager?_congr hsame rfl rfl
      refine (h.ends_recompute hwf m (hlive n List.mem_cons_self)).bind fun l' hl' => ?_
      have hrest := ih hl' (hwf.of_equalUpToMarks hsame) fun k hk =>
        (hsame.contains k.id).trans (hlive k (List.mem_cons_of_mem n hk))
      simp only [hmanager] at hrest
      exact hrest

theorem ends_ensureStyle (h : l.Represents s drawn) (hwf : s.tree.WellFormed) (id : NodeId) :
    Yields (ensureStyle id) l (s.ensureStyle id).1 (s.ensureStyle id).2 drawn := by
  refine (h.ends_sync hwf).bind fun l₁ hl₁ => ?_
  have hwf₁ : s.sync.tree.WellFormed := hwf
  cases hlive : s.tree.contains id with
  | false =>
    rw [Scene.ensureStyle_of_dead hlive]
    exact (hl₁.ends_climbStale_of_dead (Scene.synced_sync hwf) hlive).bind_error.yields hl₁
  | true =>
    obtain ⟨n, above, hp, -⟩ := NodeTree.path?_of_contains hlive
    refine (hl₁.ends_climbStale hwf₁.nodup_ids hp).bind_yields ?_
    rw [← List.map_reverse, ← List.filter_reverse, ← Scene.stalePath_of_path? (s := s.sync) hp]
    have hstale : ∀ k ∈ s.sync.stalePath id, s.sync.tree.contains k.id = true := by
      intro k hk
      obtain ⟨above, hpk, -⟩ := Scene.mem_stalePath (s := s.sync) hwf.nodup_ids hp hk
      exact NodeTree.contains_of_path? hpk
    have heach := hl₁.ends_recomputeEach hwf₁ hstale
    have hkept := s.sync.refresh_snd (s.sync.stalePath id)
    have hshape := s.sync.equalUpToMarks_recomputeAll (s.sync.served (s.sync.stalePath id))
    unfold Scene.ensureStyle
    simp only
    rw [if_pos (show s.sync.tree.contains id = true from hlive)]
    -- a refusal on the way up ends the work; else the style of the node is read
    revert heach hkept
    rcases s.sync.refresh (s.sync.stalePath id) with ⟨e | u, after⟩
    · exact fun heach _ => heach.bind_error
    · rintro heach rfl
      refine heach.bind fun l₂ hl₂ => ?_
      -- the node is still there to be read
      have hread := hl₂.ends_read id
      rw [Scene.read, if_pos ((hshape.contains id).trans hlive)] at hread
      exact hread.bind_yields ((ends_pure _).yields hl₂)

/-- Painting puts the calls on the canvas that the scene answers. -/
theorem ends_paint (h : l.Represents s drawn) (hwf : s.tree.WellFormed) (id : NodeId)
    (rect : Rect) :
    Yields (paint id rect) l (s.paint id rect).1 (s.paint id rect).2
      (drawn ++ (s.paint id rect).1.toOption.getD []) := by
  have hensure := h.ends_ensureStyle hwf id
  have hshape := s.equalUpToMarks_ensureStyle id
  have hmanager := @Scene.manager?_of_ensureStyle_eq_ok s id
  have hanswer := @Scene.ensureStyle_eq_ok s id
  unfold Scene.paint
  revert hensure hshape hmanager hanswer
  rcases s.ensureStyle id with ⟨e | style, after⟩
  · intro hensure _ _ _
    show Yields (paint id rect) l (.error e) after (drawn ++ [])
    rw [List.append_nil]
    exact hensure.bind_error
  · intro hensure hshape hmanager hanswer
    obtain ⟨hlive, hstyle⟩ := hanswer rfl
    simp only at hensure hshape hstyle
    subst hstyle
    obtain ⟨m, hm⟩ := Option.isSome_iff_exists.mp (hmanager rfl)
    simp only [hm]
    -- only now, after everything that can be refused, the canvas gets its calls
    refine hensure.bind fun l' hl' => ?_
    have hlive' : after.tree.contains id = true := (hshape.contains id).trans hlive
    have hread := hl'.ends_read id
    rw [Scene.read, if_pos hlive'] at hread
    refine (hl'.ends_styleManager (hwf.of_equalUpToMarks hshape).nodup_ids hlive').bind_yields ?_
    simp only [hm]
    refine hread.bind_yields ⟨_, (ends_modify _).bind (ends_pure _), ?_⟩
    exact ⟨hl'.tree, hl'.styles, hl'.attachments, hl'.managers,
      congrArg (· ++ _) hl'.canvas⟩

/-! ## §2 Every action -/

theorem ends_createNode (h : l.Represents s drawn) (hwf : s.tree.WellFormed) (kind : Kind) :
    Yields (createNode kind) l (.ok (s.createNode kind).1) (s.createNode kind).2 drawn := by
  have hcreate := h.tree.ends_create hwf kind.name
  refine (h.onTree_ok hcreate).bind fun l' hl' => ?_
  exact ⟨_, (ends_modify _).bind (ends_pure _), hl'.styled _ _⟩

/-- Marking is done if the node is alive, and else refused. -/
theorem ends_markDirty (h : l.Represents s drawn) (hwf : s.tree.WellFormed) (id : NodeId) :
    (s.tree.markDirty id = .ok (s.tree.marked id) ∧ s.tree.contains id = true ∧
        Yields (onTree (LinkedTree.markDirty id)) l (.ok ()) (s.withTree (s.tree.marked id)) drawn) ∨
      ∃ e, s.tree.markDirty id = .error e ∧
        Yields (onTree (LinkedTree.markDirty id)) l (.error (.tree e)) s drawn := by
  have hagrees := h.tree.agrees_markDirty hwf id
  cases hr : s.tree.markDirty id with
  | error e =>
    rw [hr] at hagrees
    exact Or.inr ⟨e, rfl, h.onTree_error hagrees⟩
  | ok t' =>
    rw [hr] at hagrees
    obtain ⟨hlive, rfl⟩ := Scene.markDirty_eq_ok hr
    exact Or.inl ⟨rfl, hlive, h.onTree_ok hagrees⟩

/-- What the host gives to a node is changed after the mark was set; the node is still alive then. -/
theorem ends_revise (h : l.Represents s drawn) (hwf : s.tree.WellFormed) (id : NodeId)
    (f : NodeStyles → NodeStyles) :
    Yields ((fun _ => SceneReply.done) <$> revise id f) l
      (s.outcome ((s.revise id f).map fun after => (.done, after))).1
      (s.outcome ((s.revise id f).map fun after => (.done, after))).2 drawn := by
  unfold Scene.revise
  rcases h.ends_markDirty hwf id with ⟨hr, hlive, hmark⟩ | ⟨e, hr, hmark⟩
  · rw [hr]
    have hlive' := ((NodeTree.EqualUpToMarks.marked s.tree id).contains id).trans hlive
    have hrevise : Yields (revise id f) l (.ok ()) (s.restyled id (f (s.stylesOf id))) drawn :=
      hmark.bind fun l' hl' => hl'.ends_update hlive' f
    exact hrevise.map _
  · rw [hr]
    exact hmark.bind_error.map _

theorem ends_attach (h : l.Represents s drawn) (hwf : s.tree.WellFormed) (id : NodeId)
    (number : Nat) :
    Yields ((fun _ => SceneReply.done) <$> attach id number) l (s.perform (.attach id number)).1
      (s.perform (.attach id number)).2 drawn := by
  rw [Scene.perform, Scene.attach]
  rcases h.ends_markDirty hwf id with ⟨hr, -, hmark⟩ | ⟨e, hr, hmark⟩
  · rw [hr]
    have hattach : Yields (attach id number) l (.ok ())
        { s with tree := s.tree.marked id, attachments := s.attachments.insert id number } drawn := by
      refine hmark.bind fun l' hl' => ⟨_, ends_modify _, hl'.tree, hl'.styles, fun k => ?_,
        hl'.managers, hl'.canvas⟩
      have hold : l'.attached? k = s.attachments.get? k := hl'.attachments k
      rw [NodeMap.get?_insert, ← hold]
      rfl
    exact hattach.map _
  · rw [hr]
    exact hmark.bind_error.map _

theorem ends_detach (h : l.Represents s drawn) (hwf : s.tree.WellFormed) (id : NodeId) :
    Yields (SceneReply.manager <$> detach id) l (s.perform (.detach id)).1
      (s.perform (.detach id)).2 drawn := by
  rw [Scene.perform, Scene.detach]
  rcases h.ends_markDirty hwf id with ⟨hr, -, hmark⟩ | ⟨e, hr, hmark⟩
  · rw [hr]
    have hdetach : Yields (detach id) l (.ok (s.attachments.get? id))
        { s with tree := s.tree.marked id, attachments := s.attachments.erase id } drawn := by
      refine hmark.bind fun l' hl' => ⟨{ l' with attached? := erased l'.attached? id },
        ends_get.bind ((ends_set _).bind ?_), hl'.tree, hl'.styles, fun k => ?_, hl'.managers,
        hl'.canvas⟩
      · rw [hl'.attachments]
        exact ends_pure _
      · have hold : l'.attached? k = s.attachments.get? k := hl'.attachments k
        rw [NodeMap.get?_erase, ← hold]
        rfl
    exact hdetach.map _
  · rw [hr]
    exact hmark.bind_error.map _

theorem ends_createChild (h : l.Represents s drawn) (hwf : s.tree.WellFormed) (parent : NodeId)
    (kind : Kind) :
    Yields (SceneReply.created <$> createChild parent kind) l
      (s.perform (.createChild parent kind)).1 (s.perform (.createChild parent kind)).2 drawn := by
  have hagrees := h.tree.agrees_createChild hwf parent kind.name
  rw [Scene.perform, Scene.createChild]
  cases hr : s.tree.createChild parent kind.name with
  | error e =>
    rw [hr] at hagrees
    exact (h.onTree_error hagrees).bind_error.map _
  | ok answer =>
    obtain ⟨id, t'⟩ := answer
    rw [hr] at hagrees
    have hcreate : Yields (createChild parent kind) l (.ok id)
        { s with tree := t', styles := s.styles.insert id (NodeStyles.new kind) } drawn :=
      (h.onTree_ok hagrees).bind fun l' hl' =>
        ⟨_, (ends_modify _).bind (ends_pure _), hl'.styled _ _⟩
    exact hcreate.map _

theorem ends_destroy (h : l.Represents s drawn) (hwf : s.tree.WellFormed) (id : NodeId) :
    Yields ((fun _ => SceneReply.done) <$> destroy id) l (s.perform (.destroy id)).1
      (s.perform (.destroy id)).2 drawn := by
  have hagrees := h.tree.agrees_destroy hwf id
  rw [Scene.perform, Scene.destroy]
  cases hr : s.tree.destroy id with
  | error e =>
    rw [hr] at hagrees
    exact (h.onTree_error hagrees).bind_error.map _
  | ok t' =>
    rw [hr] at hagrees
    have hdestroy : Yields (destroy id) l (.ok ()) (s.withTree t').forgetDead drawn :=
      (h.onTree_ok hagrees).bind fun l' hl' => ⟨_, ends_modify _, hl'.forgetful⟩
    exact hdestroy.map _

theorem ends_editTree (h : l.Represents s drawn) (hwf : s.tree.WellFormed) (e : TreeEdit) :
    Yields (Scene.replyOf <$> LinkedScene.onTree (LinkedTree.edit e)) l (s.perform (.editTree e)).1
      (s.perform (.editTree e)).2 drawn := by
  have hagrees := h.tree.agrees_edit hwf e
  rw [Scene.perform]
  cases hr : s.tree.edit e with
  | error err =>
    rw [hr] at hagrees
    exact (h.onTree_error hagrees).map _
  | ok answer =>
    rw [hr] at hagrees
    exact (h.onTree_ok hagrees).map _

theorem ends_addManager (h : l.Represents s drawn) (config : ManagerConfig) :
    Yields (addManager config) l (.ok s.managers.length) (s.addManager config) drawn := by
  refine ⟨{ l with managers := l.managers ++ [StyleManager.new config] },
    ends_get.bind ((ends_set _).bind ?_), h.tree, h.styles, h.attachments,
    congrArg (· ++ [StyleManager.new config]) h.managers, h.canvas⟩
  rw [h.managers]
  exact ends_pure _

theorem ends_editManager (h : l.Represents s drawn) (number : Nat) (e : ManagerEdit) :
    Yields (do
      modify fun l => l.managing number fun m => m.after e
      return SceneReply.done) l (.ok .done) (s.modifyManager number fun m => m.after e) drawn :=
  ⟨_, (ends_modify _).bind (ends_pure _), h.managing number _⟩

/-- Only painting makes calls. -/
theorem callsOf_perform {a : SceneAction} (ha : ∀ id rect, a ≠ .paint id rect) :
    callsOf (s.perform a).1 = [] := by
  cases a with
  | editTree e =>
    rw [Scene.perform]
    rcases s.tree.edit e with err | ⟨reply, t'⟩
    · rfl
    · cases reply <;> rfl
  | createChild parent kind =>
    rw [Scene.perform, Scene.createChild]
    cases s.tree.createChild parent kind.name <;> rfl
  | destroy id =>
    rw [Scene.perform, Scene.destroy]
    cases s.tree.destroy id <;> rfl
  | attach id number =>
    rw [Scene.perform, Scene.attach]
    cases s.tree.markDirty id <;> rfl
  | detach id =>
    rw [Scene.perform, Scene.detach]
    cases s.tree.markDirty id <;> rfl
  | editOwn id edits =>
    rw [Scene.perform, Scene.modifyOwn, Scene.revise]
    cases s.tree.markDirty id <;> rfl
  | editDefaults id edits =>
    rw [Scene.perform, Scene.modifyDefaults, Scene.revise]
    cases s.tree.markDirty id <;> rfl
  | ensureStyle id =>
    rw [Scene.perform]
    rcases s.ensureStyle id with ⟨e | style, after⟩ <;> rfl
  | updateStyles =>
    rw [Scene.perform]
    rcases s.updateStyles with ⟨e | count, after⟩ <;> rfl
  | paint id rect => exact absurd rfl (ha id rect)
  | _ => rfl

/-- The work of an action that does not paint: the canvas stays as it is. -/
theorem work_of_ne_paint (h : l.Represents s drawn) (hwf : s.tree.WellFormed)
    (hroots : s.tree.RootsAscend) {ids : List NodeId} (hids : l.tree.Enumerates ids)
    {a : SceneAction} (ha : ∀ id rect, a ≠ .paint id rect) :
    Yields (LinkedScene.work ids a) l (s.perform a).1 (s.after a) drawn := by
  cases a with
  | paint id rect => exact absurd rfl (ha id rect)
  | editTree e => exact h.ends_editTree hwf e
  | createNode kind => exact (h.ends_createNode hwf kind).map _
  | createChild parent kind => exact h.ends_createChild hwf parent kind
  | destroy id => exact h.ends_destroy hwf id
  | addManager config => exact (h.ends_addManager config).map _
  | editManager number e => exact h.ends_editManager number e
  | attach id number => exact h.ends_attach hwf id number
  | detach id => exact h.ends_detach hwf id
  | editOwn id edits => exact h.ends_revise hwf id _
  | editDefaults id edits => exact h.ends_revise hwf id _
  | ensureStyle id => exact (h.ends_ensureStyle hwf id).map _
  | updateStyles => exact (h.ends_updateStyles hwf hroots hids).map _

/-- **Linked scene and scene step together**: the work of an action ends, answers what the scene
answers, leaves a linked scene that represents the scene afterwards, and puts on the canvas the calls
that were answered. -/
theorem work (h : l.Represents s drawn) (hwf : s.tree.WellFormed) (hroots : s.tree.RootsAscend)
    {ids : List NodeId} (hids : l.tree.Enumerates ids) (a : SceneAction) :
    Yields (LinkedScene.work ids a) l (s.perform a).1 (s.after a)
      (drawn ++ callsOf (s.perform a).1) := by
  by_cases hpaints : ∃ id rect, a = .paint id rect
  · obtain ⟨id, rect, rfl⟩ := hpaints
    have hpaint := (h.ends_paint hwf id rect).map SceneReply.calls
    have hcalls : callsOf (s.perform (.paint id rect)).1 = (s.paint id rect).1.toOption.getD [] := by
      rw [Scene.perform]
      rcases s.paint id rect with ⟨e | calls, after⟩ <;> rfl
    rw [hcalls]
    exact hpaint
  · have ha : ∀ id rect, a ≠ .paint id rect := fun id rect heq => hpaints ⟨id, rect, heq⟩
    rw [callsOf_perform ha, List.append_nil]
    exact h.work_of_ne_paint hwf hroots hids ha

end Represents

/-! ## §3 Refused work -/

/-- Only the frame pass goes through the slots. -/
theorem work_eq_work {a : SceneAction} (ha : a ≠ .updateStyles) (ids ids' : List NodeId) :
    work ids a = work ids' a := by
  cases a with
  | updateStyles => exact absurd rfl ha
  | _ => rfl

end LinkedScene

namespace Scene

/-- **A refused action leaves no trace.** In every scene of a host who attaches only managers that there
are: the scene looks the same after a refusal; and the statements of the refused action, carried out one
after the other on any linked scene that represents the scene, end in the same refusal, with the same
tree, the same styles, attachments and managers as the scene then has, and nothing new on the canvas.
An id is the reason exactly if it is the first one given that is not alive; two ids are the reason for a
circle exactly if both are alive and the new parent is the node itself or below it; and a manager is
missed exactly on a path with a gap. -/
theorem refused_without_trace {s : Scene} (h : s.Built) :
    (∀ a e, (s.perform a).1 = .error e →
      s.LooksLike (s.after a) ∧
        ∀ l drawn ids, LinkedScene.Represents l s drawn →
          ∃ l', Ends (LinkedScene.work ids a) l (.error e) l' ∧ l'.Represents (s.after a) drawn ∧
            l'.tree = l.tree) ∧
    (∀ a id, (s.perform a).1 = .error (.tree (.invalidNode id)) ↔
      (a.arguments.find? fun k => !s.tree.contains k) = some id) ∧
    (∀ a child parent, (s.perform a).1 = .error (.tree (.circularParentage child parent)) ↔
      a = .editTree (.setParent child (some parent)) ∧ s.tree.contains child = true ∧
        s.tree.contains parent = true ∧
        ∃ ids, s.tree.preorder child = .ok ids ∧ parent ∈ ids) ∧
    ∀ a k, (s.perform a).1 = .error (.noStyleManager k) ↔
      ∃ id, (a = .ensureStyle id ∨ ∃ rect, a = .paint id rect) ∧ s.unserved? id = some k := by
  have hwf := wellFormed_of_reachable h.reachable
  refine ⟨fun a e herror => ⟨h.looksLike_after herror, fun l drawn ids hl => ?_⟩, fun a id => ?_,
    fun a child parent => ?_, fun a k => ?_⟩
  · have ha : a ≠ .updateStyles := by
      -- a pass is not refused
      rintro rfl
      rw [perform_eq_error_iff hwf] at herror
      cases herror
    -- the work ends as the scene says, with nothing on the canvas for a refusal
    obtain ⟨l', hends, hl'⟩ :=
      hl.work hwf (rootsAscend_of_reachable h.reachable) (hl.tree.enumerates hwf) a
    rw [herror, LinkedScene.work_eq_work ha _ ids] at hends
    rw [herror] at hl'
    have hl' : l'.Represents (s.after a) (drawn ++ []) := hl'
    rw [List.append_nil] at hl'
    refine ⟨l', hends, hl', hl.tree.unique ?_⟩
    rw [← (h.looksLike_after herror).tree]
    exact hl'.tree
  · rw [perform_eq_error_iff hwf, refusal?_eq_invalidNode_iff]
  · rw [perform_eq_error_iff hwf, refusal?_eq_circularParentage_iff hwf.nodup_ids]
  · rw [perform_eq_error_iff hwf, refusal?_eq_noStyleManager_iff]

theorem built_lonelyLabel : lonelyLabel.Built :=
  Built.empty.run ⟨trivial, trivial, trivial, Nat.zero_lt_one, trivial⟩

/-- To bring the label of `lonelyLabel` up to date is refused because of the column, which is marked and
has no manager; and neither of them has been computed. -/
theorem refused_lonelyLabel :
    (lonelyLabel.perform (.ensureStyle ⟨2, 1⟩)).1 = .error (.noStyleManager ⟨1, 1⟩) ∧
      lonelyLabel.LooksLike (lonelyLabel.after (.ensureStyle ⟨2, 1⟩)) ∧
      (∃ l', Ends (LinkedScene.work [] (.ensureStyle ⟨2, 1⟩)) (LinkedScene.ofScene lonelyLabel)
          (.error (.noStyleManager ⟨1, 1⟩)) l' ∧
        l'.Represents (lonelyLabel.after (.ensureStyle ⟨2, 1⟩)) []) ∧
      (lonelyLabel.perform (.editTree (.setParent ⟨1, 1⟩ (some ⟨2, 1⟩)))).1 =
        .error (.tree (.circularParentage ⟨1, 1⟩ ⟨2, 1⟩)) := by
  have hall := refused_without_trace built_lonelyLabel
  have hwf := wellFormed_of_reachable built_lonelyLabel.reachable
  have herror : (lonelyLabel.perform (.ensureStyle ⟨2, 1⟩)).1 = .error (.noStyleManager ⟨1, 1⟩) :=
    (hall.2.2.2 _ _).mpr ⟨_, Or.inl rfl, by decide⟩
  obtain ⟨hlooks, hwork⟩ := hall.1 _ _ herror
  obtain ⟨l', hends, hl', -⟩ := hwork _ _ [] (LinkedScene.represents_ofScene hwf.nodup_ids)
  refine ⟨herror, hlooks, ⟨l', hends, hl'⟩, ?_⟩
  exact (hall.2.2.1 _ _ _).mpr ⟨rfl, by decide, by decide, _, rfl, by decide⟩

end Scene

end StyledScene
