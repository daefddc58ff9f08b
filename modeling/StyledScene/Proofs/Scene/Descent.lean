import StyledScene.Proofs.Scene.Represented
import StyledScene.Proofs.Tree.ForestInvariant

/-!
# The frame pass along the links

The frame pass goes down a linked scene with a stack: it takes a node off, reads its record, serves it, and
puts its children back with the manager that it uses. The reads could be refused, and computing a node takes
its mark away, which changes the table while the stack still holds other nodes. Neither does harm: with the
roots of a forest on top of the stack the loop serves the forest as `Scene.visits` lists it, and changes no
record outside (`ends_serveAll`). So the pass on a linked scene is the pass on the scene that it represents
(`Represents.ends_updateStyles`).
-/

namespace StyledScene

/-- What stands beside a tree has no node of it. -/
theorem Forest.not_mem_of_mem_beside {n : Node} {children rest : Forest}
    (hnd : (tree n children rest).ids.Nodup) {k : NodeId} (hk : k ∈ rest.ids) :
    k ∉ n.id :: children.ids := by
  obtain ⟨⟨-, hnr⟩, -, -, hdisj⟩ := nodup_ids_tree.mp hnd
  intro hin
  rcases List.mem_cons.mp hin with rfl | hin
  · exact hnr hk
  · exact hdisj k hin hk

namespace Scene

theorem Pass.visitAll_append_of_ok {p p' : Pass} {vs : List Visit}
    (h : p.visitAll vs = (.ok (), p')) (ws : List Visit) : p.visitAll (vs ++ ws) = p'.visitAll ws := by
  induction vs generalizing p with
  | nil =>
    obtain ⟨-, rfl⟩ := Prod.mk.inj h
    rfl
  | cons v vs ih =>
    rw [visitAll] at h
    rw [List.cons_append, visitAll]
    rcases hv : p.visit v with ⟨e | ⟨⟩, next⟩
    · rw [hv] at h
      cases h
    · rw [hv] at h
      exact ih h

/-- To claim a manager computes no node. -/
theorem Pass.tree_claim (p : Pass) (number : Nat) (m : StyleManager) :
    (p.claim number m).2.scene.tree = p.scene.tree ∧ (p.claim number m).2.done = p.done := by
  unfold claim
  split <;> exact ⟨rfl, rfl⟩

/-- The visible nodes of the first tree come first. -/
theorem visits_tree (attachments : NodeMap Nat) (inherited : Option Nat) (n : Node)
    (children rest : Forest) :
    visits attachments inherited (.tree n children rest) =
      visits attachments inherited (.single (n, children)) ++ visits attachments inherited rest := by
  simp [visits, Forest.single]

end Scene

/-- Taking a mark away changes no other record. -/
theorem LinkedTree.Represents.record?_cleaned {l l' : LinkedTree} {t : NodeTree} {id k : NodeId}
    (h : l.Represents t) (h' : l'.Represents (t.cleaned id)) (hlive : t.contains id = true)
    (hk : k ≠ id) : l'.record? k = l.record? k := by
  obtain ⟨sub, hsub⟩ := Option.isSome_iff_exists.mp hlive
  obtain ⟨up, hrecord⟩ := h.record?_of_subtree? hsub
  have hclear := h.agrees_clearDirty id
  rw [show t.clearDirty id = .ok (t.cleaned id) from NodeTree.ask_eq_ok_iff.mpr ⟨sub, hsub, rfl⟩]
    at hclear
  obtain ⟨l'', hends, hl''⟩ := hclear
  -- there is one table for the tree, the one that the update leaves
  obtain rfl := h'.unique hl''
  obtain ⟨-, rfl⟩ := hends.unique (ends_update hrecord _)
  rw [record?_modified, if_neg hk]

namespace LinkedPass

open Scene (Pass Visit visits)

variable {lp : LinkedPass} {p : Pass} {drawn : List PaintCall}

/-! ## §1 Passes in step -/

/-- The pass over a linked scene is where the pass over a scene is. -/
structure InStep (lp : LinkedPass) (p : Pass) (drawn : List PaintCall) : Prop where
  scene : lp.scene.Represents p.scene drawn
  claimed : lp.claimed = p.claimed
  wellFormed : p.scene.tree.WellFormed

/-- Both passes have gone on, and no record was changed but those of the given nodes. -/
structure Advances (lp : LinkedPass) (p : Pass) (lp' : LinkedPass) (p' : Pass) (ids : List NodeId)
    (drawn : List PaintCall) : Prop where
  inStep : lp'.InStep p' drawn
  attachments : p'.scene.attachments = p.scene.attachments
  kept : ∀ k, k ∉ ids → lp'.scene.tree.record? k = lp.scene.tree.record? k

theorem InStep.advances (h : lp.InStep p drawn) (ids : List NodeId) : Advances lp p lp p ids drawn :=
  ⟨h, rfl, fun _ _ => rfl⟩

theorem Advances.trans {lp' lp'' : LinkedPass} {p' p'' : Pass} {ids ids' : List NodeId}
    (h : Advances lp p lp' p' ids drawn) (h' : Advances lp' p' lp'' p'' ids' drawn) :
    Advances lp p lp'' p'' (ids ++ ids') drawn where
  inStep := h'.inStep
  attachments := h'.attachments.trans h.attachments
  kept k hk := by
    rw [List.mem_append, not_or] at hk
    exact (h'.kept k hk.2).trans (h.kept k hk.1)

theorem Advances.mono {lp' : LinkedPass} {p' : Pass} {ids ids' : List NodeId}
    (h : Advances lp p lp' p' ids drawn) (hsub : ids ⊆ ids') : Advances lp p lp' p' ids' drawn :=
  ⟨h.inStep, h.attachments, fun k hk => h.kept k fun hin => hk (hsub hin)⟩

/-- A forest that none of the changed nodes belongs to is recorded as before. -/
theorem Advances.recorded {lp' : LinkedPass} {p' : Pass} {ids : List NodeId}
    (h : Advances lp p lp' p' ids drawn) {f : Forest} {up : Option NodeId}
    (hf : f.Recorded lp.scene.tree.record? up) (hout : ∀ k ∈ f.ids, k ∉ ids) :
    f.Recorded lp'.scene.tree.record? up :=
  hf.congr fun k hk => h.kept k (hout k hk)

theorem ends_onScene {α : Type} {x : LinkedScene.Work α} {a : Except SceneError α} {l' : LinkedScene}
    (h : Ends x lp.scene a l') : Ends (onScene x) lp a { lp with scene := l' } := by
  show (x.run.run lp.scene).map _ = _
  rw [h]
  rfl

/-! ## §2 One node -/

/-- A manager is claimed in both passes, with the same answer, and no record changes. -/
theorem ends_claim (h : lp.InStep p drawn) (number : Nat) (m : StyleManager) :
    ∃ lp', Ends (claim number m) lp (.ok (p.claim number m).1) lp' ∧
      Advances lp p lp' (p.claim number m).2 [] drawn := by
  unfold claim Scene.Pass.claim
  rw [← h.claimed]
  cases hfound : lp.claimed.find? fun entry => entry.1 == number with
  | some entry =>
    refine ⟨lp, ends_get.bind ?_, h.advances []⟩
    rw [hfound]
    exact ends_pure _
  | none =>
    refine ⟨⟨lp.scene.managing number fun m => m.swapValid.2, lp.claimed ++ [(number, m.swapValid.1)]⟩,
      ends_get.bind ?_, ⟨h.scene.managing number _, rfl, h.wellFormed⟩, rfl, fun _ _ => rfl⟩
    rw [hfound]
    exact (ends_set _).bind (ends_pure _)

/-- A living node is computed anew in both passes, and is not refused. -/
theorem ends_recompute (h : lp.InStep p drawn) (m : StyleManager) {id : NodeId}
    (hlive : p.scene.tree.contains id = true) :
    ∃ lp', Ends (onScene (LinkedScene.recompute m id)) lp (.ok ()) lp' ∧
      Advances lp p lp' { p with scene := p.scene.recompute m id, done := p.done ++ [id] } [id]
        drawn := by
  obtain ⟨l', hends, hl'⟩ := h.scene.ends_recompute h.wellFormed m hlive
  refine ⟨{ lp with scene := l' }, ends_onScene hends, ⟨hl', h.claimed, ?_⟩, rfl, fun k hk => ?_⟩
  · exact h.wellFormed.of_equalUpToMarks (p.scene.equalUpToMarks_recompute m id)
  · exact h.scene.tree.record?_cleaned hl'.tree hlive fun heq => hk (List.mem_singleton.mpr heq)

/-- A node is served in both passes. -/
theorem ends_serve (h : lp.InStep p drawn) {v : Visit} (hlive : p.scene.tree.contains v.id = true) :
    ∃ p' lp', p.visit v = (.ok (), p') ∧
      Ends (serve p.done.length v.id v.dirty v.manager) lp (.ok p'.done.length) lp' ∧
      Advances lp p lp' p' [v.id] drawn := by
  unfold serve Scene.Pass.visit
  cases hlookup : v.manager.bind fun number =>
      (p.scene.managers[number]?).map fun m => (number, m) with
  | none =>
    refine ⟨p, lp, rfl, ends_get.bind ?_, h.advances _⟩
    rw [h.scene.managers, hlookup]
    exact ends_pure _
  | some found =>
    obtain ⟨number, m⟩ := found
    have hlookup' : (v.manager.bind fun number =>
        (lp.scene.managers[number]?).map fun m => (number, m)) = some (number, m) := by
      rw [h.scene.managers, hlookup]
    have hkept := p.tree_claim number m
    obtain ⟨lp₁, hclaim, h₁⟩ := ends_claim h number m
    -- from here on both passes go on from what the claim has left
    dsimp only
    generalize p.claim number m = answer at hkept hclaim h₁ ⊢
    obtain ⟨wasValid, p₁⟩ := answer
    obtain ⟨htree, hdone⟩ : p₁.scene.tree = p.scene.tree ∧ p₁.done = p.done := hkept
    by_cases hneeded : (v.dirty || !wasValid) = true
    · -- the node lives on, so that it is computed without being refused
      have hthere : p₁.scene.tree.contains v.id = true := htree ▸ hlive
      obtain ⟨lp₂, hends, h₂⟩ := ends_recompute h₁.inStep m hthere
      refine ⟨_, lp₂, ?_, ends_get.bind ?_, h₁.trans h₂⟩
      · dsimp only
        rw [if_pos hneeded, Scene.tryRecompute, if_pos hthere]
      · rw [hlookup']
        refine hclaim.bind ?_
        rw [if_pos hneeded, List.length_append, hdone]
        exact hends.bind (ends_pure _)
    · refine ⟨p₁, lp₁, if_neg hneeded, ends_get.bind ?_, h₁.mono (List.nil_subset _)⟩
      rw [hlookup']
      refine hclaim.bind ?_
      rw [if_neg hneeded, hdone]
      exact ends_pure _

/-! ## §3 The loop -/

theorem serveAll_nil (computed : Nat) : serveAll computed [] = pure computed := by rw [serveAll]

theorem serveAll_cons (computed : Nat) (id : NodeId) (inherited : Option Nat)
    (rest : List (NodeId × Option Nat)) :
    serveAll computed ((id, inherited) :: rest) = (do
      let r ← onScene (LinkedScene.onTree (LinkedTree.read id))
      if r.data.isVisible then
        let p ← get
        let manager := (p.scene.attached? id).or inherited
        let count ← serve computed id r.data.dirty manager
        serveAll count (r.children.map (fun child => (child, manager)) ++ rest)
      else serveAll computed rest) := by
  rw [serveAll]

section Turns

variable {n : Node} {up : Option NodeId} {children : List NodeId}
  {rest : List (NodeId × Option Nat)} {answer : Except SceneError Nat} {last : LinkedPass}

theorem ends_readNode (hn : lp.scene.tree.record? n.id = some ⟨n, up, children⟩) :
    Ends (onScene (LinkedScene.onTree (LinkedTree.read n.id))) lp (.ok ⟨n, up, children⟩) lp :=
  ends_onScene (LinkedScene.ends_onTree (LinkedTree.ends_read hn))

/-- A hidden node is dropped, with everything below it. -/
theorem ends_serveAll_hidden (hn : lp.scene.tree.record? n.id = some ⟨n, up, children⟩)
    (hhidden : n.isVisible = false) {computed : Nat} {manager : Option Nat}
    (hrest : Ends (serveAll computed rest) lp answer last) :
    Ends (serveAll computed ((n.id, manager) :: rest)) lp answer last := by
  rw [serveAll_cons]
  refine (ends_readNode hn).bind ?_
  simpa [hhidden] using hrest

/-- A visible node is served, and its children come on top of the stack. -/
theorem ends_serveAll_visible (hn : lp.scene.tree.record? n.id = some ⟨n, up, children⟩)
    (hvisible : n.isVisible = true) {computed count : Nat} {manager : Option Nat} {next : LinkedPass}
    (hserve : Ends (serve computed n.id n.dirty ((lp.scene.attached? n.id).or manager)) lp
      (.ok count) next)
    (hrest : Ends (serveAll count (children.map (fun child =>
      (child, (lp.scene.attached? n.id).or manager)) ++ rest)) next answer last) :
    Ends (serveAll computed ((n.id, manager) :: rest)) lp answer last := by
  rw [serveAll_cons]
  refine (ends_readNode hn).bind ?_
  simp only [hvisible, if_true]
  exact ends_get.bind (hserve.bind hrest)

end Turns

/-- **The loop serves a forest.** With the roots of a forest on top of the stack, each with the manager that
its parent uses, the loop serves the visible nodes of the forest as the pass meets them, and goes on with the
rest of the stack. -/
theorem ends_serveAll {f : Forest} {up : Option NodeId} (inherited : Option Nat)
    (h : lp.InStep p drawn) (hf : f.Recorded lp.scene.tree.record? up) (hnd : f.ids.Nodup) :
    ∃ p' lp', p.visitAll (visits p.scene.attachments inherited f) = (.ok (), p') ∧
      Advances lp p lp' p' f.ids drawn ∧
      ∀ rest answer last, Ends (serveAll p'.done.length rest) lp' answer last →
        Ends (serveAll p.done.length (f.rootIds.map (fun root => (root, inherited)) ++ rest)) lp
          answer last := by
  -- the passes go on from node to node, and the manager changes from level to level
  induction f generalizing lp p up inherited with
  | nil => exact ⟨p, lp, rfl, h.advances _, fun _ _ _ hrest => hrest⟩
  | tree n children others ihc ihr =>
    obtain ⟨⟨hnc, -⟩, hcnd, hrnd, -⟩ := Forest.nodup_ids_tree.mp hnd
    obtain ⟨hn, hc, hr⟩ := hf
    rw [Forest.rootIds_tree, List.map_cons, visits]
    cases hvisible : n.isVisible with
    | false =>
      -- nothing of this tree is met, and the loop drops its root
      obtain ⟨p', lp', hpass, hadvances, hgoes⟩ := ihr inherited h hr hrnd
      have hothers : others.ids ⊆ (Forest.tree n children others).ids := by simp
      refine ⟨p', lp', hpass, hadvances.mono hothers, fun rest answer last hrest => ?_⟩
      exact ends_serveAll_hidden hn hvisible (hgoes rest answer last hrest)
    | true =>
      -- the root is served, then what is below it, then what is beside it
      obtain ⟨above, hp, -⟩ := h.scene.tree.record?_eq_some hn
      generalize hmanager : (p.scene.attachments.get? n.id).or inherited = manager
      obtain ⟨p₁, lp₁, hvisit, hends, h₁⟩ :=
        ends_serve (v := ⟨n.id, n.dirty, manager⟩) h (NodeTree.contains_of_path? hp)
      have h₁ : Advances lp p lp₁ p₁ [n.id] drawn := h₁
      have hc₁ := h₁.recorded hc fun k hk hin => hnc (List.mem_singleton.mp hin ▸ hk)
      obtain ⟨p₂, lp₂, hbelow, h₂, hgoes₂⟩ := ihc manager h₁.inStep hc₁ hcnd
      have hr₂ := (h₁.trans h₂).recorded hr fun k => Forest.not_mem_of_mem_beside hnd
      obtain ⟨p₃, lp₃, hbeside, h₃, hgoes₃⟩ := ihr inherited h₂.inStep hr₂ hrnd
      rw [h₁.attachments] at hbelow
      rw [(h₁.trans h₂).attachments] at hbeside
      have hall : Advances lp p lp₃ p₃ (Forest.tree n children others).ids drawn := by
        rw [Forest.ids_tree, ← List.cons_append]
        exact (h₁.trans h₂).trans h₃
      refine ⟨p₃, lp₃, ?_, hall, fun rest answer last hrest => ?_⟩
      · rw [if_pos rfl]
        refine (Pass.visitAll_append_of_ok ?_ _).trans hbeside
        rw [Scene.Pass.visitAll, hvisit]
        exact hbelow
      · have hlookup : (lp.scene.attached? n.id).or inherited = manager := by
          rw [h.scene.attachments, hmanager]
        refine ends_serveAll_visible hn hvisible (hlookup ▸ hends) ?_
        rw [hlookup]
        exact hgoes₂ _ _ _ (hgoes₃ _ _ _ hrest)

/-- The loop is started for one root after the other, and so serves all trees. -/
theorem ends_serveRoots {f : Forest} {up : Option NodeId} (h : lp.InStep p drawn)
    (hf : f.Recorded lp.scene.tree.record? up) (hnd : f.ids.Nodup) :
    ∃ p' lp', p.visitAll (visits p.scene.attachments none f) = (.ok (), p') ∧ lp'.InStep p' drawn ∧
      Ends (f.rootIds.foldlM (fun computed root => serveAll computed [(root, none)]) p.done.length) lp
        (.ok p'.done.length) lp' := by
  induction f generalizing lp p with
  | nil => exact ⟨p, lp, rfl, h, ends_pure _⟩
  | tree n children rest _ ihr =>
    obtain ⟨hn, hc, hr⟩ := hf
    obtain ⟨⟨hnc, -⟩, hcnd, hrnd, -⟩ := Forest.nodup_ids_tree.mp hnd
    have hsingle : (Forest.single (n, children)).Recorded lp.scene.tree.record? up :=
      Forest.recorded_single.mpr ⟨hn, hc⟩
    have hids : (Forest.single (n, children)).ids = n.id :: children.ids := by simp [Forest.single]
    have hapart : (Forest.single (n, children)).ids.Nodup :=
      hids ▸ List.nodup_cons.mpr ⟨hnc, hcnd⟩
    -- the loop is done with one tree before it is started for the next
    obtain ⟨p₁, lp₁, hfirst, h₁, hgoes⟩ := ends_serveAll none h hsingle hapart
    have hr₁ := h₁.recorded hr fun k hk => hids ▸ Forest.not_mem_of_mem_beside hnd hk
    obtain ⟨p', lp', hothers, h', hends⟩ := ihr h₁.inStep hr₁ hrnd
    rw [h₁.attachments] at hothers
    refine ⟨p', lp', ?_, h', ?_⟩
    · rw [Scene.visits_tree]
      exact (Pass.visitAll_append_of_ok hfirst _).trans hothers
    · rw [Forest.rootIds_tree, List.foldlM_cons]
      refine Ends.bind (hgoes [] _ _ ?_) hends
      rw [serveAll_nil]
      exact ends_pure _

end LinkedPass

/-! ## §4 The pass -/

namespace LinkedScene

variable {l : LinkedScene} {s : Scene} {drawn : List PaintCall}

theorem ends_carryOut {α : Type} {x : LinkedPass.Work α} {a : α} {p : LinkedPass}
    (h : Ends x ⟨l, []⟩ (.ok a) p) : Ends (carryOut x) l (.ok a) p.scene := by
  show (x.run.run ⟨l, []⟩).map _ = _
  rw [h]
  rfl

/-- **The pass along the links is the pass.** Whatever linked scene represents a scene whose roots stand in
slot order, the pass over it ends: the reads are not refused, the same nodes are computed anew, and what the
pass leaves is represented. -/
theorem Represents.ends_updateStyles (h : l.Represents s drawn) (hwf : s.tree.WellFormed)
    (hroots : s.tree.RootsAscend) {ids : List NodeId} (hids : l.tree.Enumerates ids) :
    Yields (updateStyles ids) l s.updateStyles.1 s.updateStyles.2 drawn := by
  obtain ⟨l₁, hsync, h₁⟩ := h.ends_sync hwf
  -- adoption leaves the table of records alone
  have htree : l₁.tree = l.tree := h.tree.unique h₁.tree
  have hstart : LinkedPass.InStep ⟨l₁, []⟩ (Scene.Pass.start s.sync) drawn := ⟨h₁, rfl, hwf⟩
  obtain ⟨p', lp', hpass, h', hends⟩ :=
    LinkedPass.ends_serveRoots hstart h₁.tree.recorded hwf.nodup_ids
  have hframe : s.framePass = (.ok (), p') := hpass
  rw [Scene.updateStyles, hframe]
  refine ⟨lp'.scene, hsync.bind (ends_carryOut ?_), h'.scene⟩
  refine ends_get.bind ?_
  rw [htree, h.tree.rootsAmong_eq hwf hroots hids]
  exact hends

end LinkedScene

end StyledScene
