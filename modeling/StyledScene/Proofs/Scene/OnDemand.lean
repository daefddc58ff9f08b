import StyledScene.Proofs.Scene.LazyStyles
import StyledScene.Proofs.Scene.Refusals
import StyledScene.Proofs.Scene.Stepwise

/-!
# The effect of a style on demand

Bringing one node up to date touches the stale nodes on its path and nothing else, wherever managers are
attached and whichever of them are valid. `Refreshes` says what happens to every part of a scene: who is
computed anew and in which order, by which manager and from what, and what stays as it was. Main
statement: every style on demand that is not refused has this effect, and asking once more gives an
equal style (`ensureStyle_refreshes`).

Asking once more may compute nodes again, those with a manager that is not valid. They are settled by
then, so nothing changes (`stylesOf_recomputeAll_of_settled`).
-/

namespace StyledScene

namespace Scene

variable {s s' : Scene} {id : NodeId}

/-! ## §1 The effect -/

/-- To bring `id` up to date in `s`, the nodes in `done` were computed anew, which has left `s'`. -/
structure Refreshes (s s' : Scene) (id : NodeId) (done : List NodeId) : Prop where
  nodup : done.Nodup
  /-- The nodes were computed on the way from the root down to the node. -/
  downward : done.Sublist (s.pathIds id).reverse
  mem_iff : ∀ k, k ∈ done ↔ k ∈ s.pathIds id ∧
    (s.tree.isDirty k = .ok true ∨ ∃ m, s.manager? k = some m ∧ m.valid = false)
  /-- A new style is what the manager of the node computes from the style that its parent has in the
  end, and the flags go with it. -/
  settled : ∀ k ∈ done, ∃ m, s.manager? k = some m ∧ s'.manager? k = some m ∧
    (s'.stylesOf k).computed = m.computeStyle (s'.tree.lineage k)
      { parent := (s'.tree.parentId? k).map fun p => (s'.stylesOf p).computed
        ownValues := some (s'.stylesOf k).ownValues
        defaults := some (s'.stylesOf k).defaults
        inherits := (s'.stylesOf k).kind.inherits } ∧
    (s'.stylesOf k).flags = (s'.stylesOf k).kind.summarize (s'.stylesOf k).computed
  clean : ∀ k ∈ done, s'.tree.isDirty k = .ok false
  /-- Every other node keeps its style, its flags and its mark. -/
  kept : ∀ k, s.tree.contains k = true → k ∉ done →
    s'.stylesOf k = s.stylesOf k ∧ s'.tree.isDirty k = s.tree.isDirty k
  /-- What the host gave to the nodes stays. -/
  own : ∀ k, s.tree.contains k = true →
    (s'.stylesOf k).kind = (s.stylesOf k).kind ∧
      (s'.stylesOf k).ownValues = (s.stylesOf k).ownValues ∧
      (s'.stylesOf k).defaults = (s.stylesOf k).defaults
  /-- The tree keeps its shape, and its nodes everything but their marks. -/
  shape : s.tree.EqualUpToMarks s'.tree
  managerNumber : ∀ k, s.tree.contains k = true → s'.managerNumber? k = s.managerNumber? k
  managers : s'.managers = s.managers

/-! ## §2 One path -/

/-- On a path of managed nodes everyone is served who is stale. -/
theorem mem_served_stalePath_iff (hnd : s.tree.forest.ids.Nodup) {p : List Node}
    (hp : s.tree.path? id = some p) (hmanaged : ∀ k ∈ s.pathIds id, (s.manager? k).isSome = true)
    (k : NodeId) :
    k ∈ (s.served (s.stalePath id)).map Prod.fst ↔ k ∈ s.pathIds id ∧
      (s.tree.isDirty k = .ok true ∨ ∃ m, s.manager? k = some m ∧ m.valid = false) := by
  have hids := pathIds_of_path? hp
  have hon (n : Node) (hn : n ∈ p) : n.id ∈ s.pathIds id := hids ▸ List.mem_map_of_mem hn
  constructor
  · intro hk
    obtain ⟨n, hn, rfl⟩ := List.mem_map.mp ((s.served_sublist _).subset hk)
    obtain ⟨above, hpn, hstale⟩ := mem_stalePath hnd hp hn
    have hmem := hon n (mem_path_of_mem_stalePath hp hn)
    obtain ⟨m, hm⟩ := Option.isSome_iff_exists.mp (hmanaged n.id hmem)
    exact ⟨hmem, ((isStale_iff hpn hm).mp hstale).imp_right fun hvalid => ⟨m, hm, hvalid⟩⟩
  · rintro ⟨hk, hneeded⟩
    rw [hids] at hk
    obtain ⟨n, hn, rfl⟩ := List.mem_map.mp hk
    obtain ⟨-, above, -, hpn⟩ := NodeTree.path?_of_mem_path hnd hp hn
    obtain ⟨m, hm⟩ := Option.isSome_iff_exists.mp (hmanaged n.id (hon n hn))
    have hstale : s.isStale n = true := by
      refine (isStale_iff hpn hm).mpr (hneeded.imp_right ?_)
      rintro ⟨m', hm', hvalid⟩
      obtain rfl := Option.some.inj (hm.symm.trans hm')
      exact hvalid
    -- nobody before the node stops the work
    refine mem_served_of_mem (fun q hq => ?_) (n := n) ?_
    · exact hmanaged q.id (hon q (mem_path_of_mem_stalePath hp hq))
    · rw [stalePath_of_path? hp]
      exact List.mem_filter.mpr ⟨List.mem_reverse.mpr hn, hstale⟩

/-- A style on demand that is not refused comes from a path of managed nodes. -/
theorem managed_of_ensureStyle_eq_ok {style : Style} (h : (s.ensureStyle id).1 = .ok style) :
    ∀ k ∈ s.sync.pathIds id, (s.sync.manager? k).isSome = true := by
  obtain ⟨hlive, -⟩ := ensureStyle_eq_ok h
  rw [ensureStyle_fst_eq hlive] at h
  split at h
  · rename_i hserved
    exact unserved?_eq_none_iff.mp hserved
  · cases h

/-- A style on demand leaves the scene in step with its tree. -/
theorem synced_ensureStyle (hwf : s.tree.WellFormed) (id : NodeId) : (s.ensureStyle id).2.Synced := by
  rw [ensureStyle_snd]
  exact (synced_sync hwf).recomputeAll hwf fun entry hentry =>
    (settles_served (s := s.sync) hwf.nodup_ids id).order.live entry.1 (List.mem_map_of_mem hentry)

/-- What serving the path does, told beforehand. -/
theorem refreshes_of_managed (hwf : s.tree.WellFormed) (hlive : s.tree.contains id = true)
    (hmanaged : ∀ k ∈ s.sync.pathIds id, (s.sync.manager? k).isSome = true) :
    s.Refreshes (s.sync.recomputeAll (s.sync.served (s.sync.stalePath id))) id
      ((s.sync.served (s.sync.stalePath id)).map Prod.fst) := by
  have hwf' : s.sync.tree.WellFormed := hwf
  have hsettles := settles_served (s := s.sync) hwf.nodup_ids id
  have hord := hsettles.order
  obtain ⟨n, above, hp, -⟩ := NodeTree.path?_of_contains hlive
  have hpath : s.sync.tree.path? id = some (n :: above) := hp
  have hsynced := s.ensureStyle_snd id ▸ synced_ensureStyle hwf id
  have hmanager (k : NodeId) := s.ensureStyle_snd id ▸ s.manager?_ensureStyle id k
  constructor
  case nodup => exact hord.nodup
  case downward =>
    rw [pathIds_of_path? hp]
    exact (s.sync.served_sublist _).trans (stalePath_sublist hpath)
  case mem_iff =>
    intro k
    refine (mem_served_stalePath_iff (s := s.sync) hwf.nodup_ids hpath hmanaged k).trans ?_
    refine and_congr_right fun hk => ?_
    -- the nodes of the path are alive, and keep their managers when the scene is brought in step
    rw [pathIds_of_path? hpath] at hk
    obtain ⟨q, hq, rfl⟩ := List.mem_map.mp hk
    rw [manager?_sync (contains_of_mem_path hp hq)]
    rfl
  case settled =>
    intro k hk
    obtain ⟨⟨k, m⟩, hentry, rfl⟩ := List.mem_map.mp hk
    have hm := hsettles.manager _ hentry
    refine ⟨m, ?_, (hmanager k).trans hm, hsynced.computed_of_settled ?_⟩
    · exact (manager?_sync (s := s) (hord.live k hk)).symm.trans hm
    · exact freshStyles_recomputeAll hwf' hord hentry
  case clean => exact fun k hk => isDirty_recomputeAll_of_mem hord hk
  case kept =>
    intro k hk hnot
    refine ⟨?_, isDirty_recomputeAll hk hnot⟩
    rw [← stylesOf_sync hwf hk]
    exact congrArg (Option.getD · _) (styles_recomputeAll hwf' hord hk hnot)
  case own =>
    intro k hk
    rw [← stylesOf_sync hwf hk]
    exact own_recomputeAll hwf' hord hk
  case shape => exact s.sync.equalUpToMarks_recomputeAll _
  case managerNumber =>
    intro k hk
    rw [← managerNumber?_sync hk]
    exact managerNumber?_congr (s.sync.equalUpToMarks_recomputeAll _) (attachments_recomputeAll _ _) k
  case managers => exact managers_recomputeAll _ _

/-! ## §3 Asking again -/

/-- Computing nodes again that are settled changes no style. -/
theorem stylesOf_recomputeAll_of_settled {due : List (NodeId × StyleManager)} (h : s.Synced)
    (hwf : s.tree.WellFormed) (hlive : ∀ entry ∈ due, s.tree.contains entry.1 = true)
    (hsettled : ∀ entry ∈ due, s.stylesOf entry.1 = s.freshStyles entry.2 entry.1) {k : NodeId}
    (hk : s.tree.contains k = true) : (s.recomputeAll due).stylesOf k = s.stylesOf k := by
  induction due generalizing s with
  | nil => rfl
  | cons entry due ih =>
    obtain ⟨id, m⟩ := entry
    have hid := hlive _ List.mem_cons_self
    have hshape := s.equalUpToMarks_recompute m id
    have hstays {j : NodeId} (hj : s.tree.contains j = true) :
        (s.recompute m id).stylesOf j = s.stylesOf j := by
      by_cases hne : j = id
      · rw [hne, stylesOf_recompute_self]
        exact (hsettled _ List.mem_cons_self).symm
      · rw [stylesOf, stylesOf, styles_recompute_of_ne hwf m hid hj hne]
    have hsynced := h.recompute hwf m hid
    rw [recomputeAll, List.foldl_cons]
    refine (ih hsynced (hwf.of_equalUpToMarks hshape) ?_ ?_ ((hshape.contains k).trans hk)).trans
      (hstays hk)
    · exact fun entry hentry =>
        (hshape.contains entry.1).trans (hlive entry (List.mem_cons_of_mem _ hentry))
    · -- what is computed from is the same as before, so the others are still settled
      intro entry hentry
      have hentrylive := hlive entry (List.mem_cons_of_mem _ hentry)
      rw [hstays hentrylive, hsettled entry (List.mem_cons_of_mem _ hentry)]
      refine (freshStyles_congr entry.2 (hshape.lineage _) (hshape.parentId? _) ?_ ?_ ?_
        fun p hp => ?_).symm
      · rw [hstays hentrylive]
      · rw [hstays hentrylive]
      · rw [hstays hentrylive]
      · have hplive := NodeTree.contains_of_parentId? hp
        rw [hsynced.styles_of_live ((hshape.contains p).trans hplive), h.styles_of_live hplive,
          hstays hplive]

/-- After a node was brought up to date, only nodes that are settled can look stale on its path. -/
theorem Refreshes.ensureStyle_again {done : List NodeId} (h : s.Refreshes s' id done)
    (hsynced : s'.Synced) (hwf : s'.tree.WellFormed) (hlive : s'.tree.contains id = true)
    (hmanaged : ∀ k ∈ s'.pathIds id, (s'.manager? k).isSome = true)
    (hsettled : ∀ k ∈ done, ∀ m, s'.manager? k = some m → s'.stylesOf k = s'.freshStyles m k) :
    (s'.ensureStyle id).1 = .ok (s'.stylesOf id).computed := by
  have hsync := sync_eq_self hsynced
  have hsettles := settles_served (s := s') hwf.nodup_ids id
  obtain ⟨n, above, hp, -⟩ := NodeTree.path?_of_contains hlive
  have hserved := mem_served_stalePath_iff hwf.nodup_ids hp hmanaged
  -- a node that is stale once more was computed the first time
  have hdone : ∀ entry ∈ s'.served (s'.stalePath id), entry.1 ∈ done := by
    intro entry hentry
    obtain ⟨hon, hneeded⟩ := (hserved entry.1).mp (List.mem_map_of_mem hentry)
    have hentrylive := hsettles.order.live entry.1 (List.mem_map_of_mem hentry)
    rw [h.shape.contains] at hentrylive
    by_contra hnot
    refine hnot ((h.mem_iff entry.1).mpr ⟨pathIds_congr h.shape id ▸ hon, ?_⟩)
    rcases hneeded with hdirty | ⟨m, hm, hvalid⟩
    · exact Or.inl ((h.kept entry.1 hentrylive hnot).2 ▸ hdirty)
    · refine Or.inr ⟨m, ?_, hvalid⟩
      rw [← hm, manager?, manager?, h.managerNumber entry.1 hentrylive, h.managers]
  have hfst := ensureStyle_fst_eq hlive
  rw [hsync, unserved?_eq_none_iff.mpr hmanaged] at hfst
  rw [hfst, ensureStyle_snd, hsync, stylesOf_recomputeAll_of_settled hsynced hwf ?_ ?_ hlive]
  · exact fun entry hentry => hsettles.order.live entry.1 (List.mem_map_of_mem hentry)
  · exact fun entry hentry => hsettled entry.1 (hdone entry hentry) entry.2 (mem_served hentry)

/-- **The effect of a style on demand.** Where bringing a node of a reachable scene up to date is not
refused, it computes anew, from the root down, exactly the nodes on the path that are marked or have a
manager that is not valid. They lose their marks and have the styles and flags that their managers
compute in the end; everything else stays as it was. The answer is the style of the node, an equal one is
answered if the host asks again, and the linked scene makes the same step. -/
theorem ensureStyle_refreshes (h : s.Reachable) {style : Style}
    (hok : (s.ensureStyle id).1 = .ok style) :
    ∃ due, (s.ensureStyle id).2 = s.sync.recomputeAll due ∧
      s.Refreshes (s.ensureStyle id).2 id (due.map Prod.fst) ∧
      (s.ensureStyle id).2.computedStyle id = .ok style ∧
      ((s.ensureStyle id).2.ensureStyle id).1 = .ok style ∧
      ∀ (l : LinkedScene) (drawn : List PaintCall), l.Represents s drawn →
        LinkedScene.Yields (LinkedScene.ensureStyle id) l (.ok style) (s.ensureStyle id).2 drawn := by
  have hwf := wellFormed_of_reachable h
  obtain ⟨hlive, hstyle⟩ := ensureStyle_eq_ok hok
  have hmanaged := managed_of_ensureStyle_eq_ok hok
  have hrefreshes := refreshes_of_managed hwf hlive hmanaged
  have hsettles := settles_served (s := s.sync) hwf.nodup_ids id
  rw [← ensureStyle_snd] at hrefreshes
  have hlive' : (s.ensureStyle id).2.tree.contains id = true :=
    (hrefreshes.shape.contains id).trans hlive
  refine ⟨_, s.ensureStyle_snd id, hrefreshes, ?_, ?_, fun l drawn hl => ?_⟩
  · rw [hstyle]
    exact if_pos hlive'
  · rw [hstyle]
    refine hrefreshes.ensureStyle_again (synced_ensureStyle hwf id)
      (hwf.of_equalUpToMarks hrefreshes.shape) hlive' ?_ ?_
    · intro k hk
      rw [manager?_ensureStyle]
      exact hmanaged k (pathIds_congr hrefreshes.shape id ▸ hk)
    · intro k hk m hm
      obtain ⟨⟨k, m'⟩, hentry, rfl⟩ := List.mem_map.mp hk
      obtain rfl := Option.some.inj
        ((hsettles.manager _ hentry).symm.trans ((s.manager?_ensureStyle id k).symm.trans hm))
      rw [ensureStyle_snd]
      exact freshStyles_recomputeAll (s := s.sync) hwf hsettles.order hentry
  · rw [← hok]
    exact hl.ends_ensureStyle hwf id

/-- A marked column with a box in it that bears no mark and has a valid manager. In the box there is a
row with a manager that is not valid, and in the row a label without a mark. -/
def settledBox : Scene :=
  empty.run [.createNode .container, .createChild ⟨1, 1⟩ .container, .createChild ⟨2, 1⟩ .container,
    .createChild ⟨3, 1⟩ .text, .addManager .usual, .addManager .usual, .attach ⟨1, 1⟩ 0,
    .attach ⟨3, 1⟩ 1, .editManager 0 .markValid, .editTree (.clearDirty ⟨2, 1⟩),
    .editTree (.clearDirty ⟨4, 1⟩)]

/-- For the label, the column, the row and the label are computed, and the box is not. -/
theorem ensureStyle_refreshes_settledBox :
    ∃ style done, (settledBox.ensureStyle ⟨4, 1⟩).1 = .ok style ∧
      settledBox.Refreshes (settledBox.ensureStyle ⟨4, 1⟩).2 ⟨4, 1⟩ done ∧
      done.Sublist [⟨1, 1⟩, ⟨2, 1⟩, ⟨3, 1⟩, ⟨4, 1⟩] ∧
      ⟨1, 1⟩ ∈ done ∧ ⟨2, 1⟩ ∉ done ∧ ⟨3, 1⟩ ∈ done ∧ ⟨4, 1⟩ ∈ done ∧
      ((settledBox.ensureStyle ⟨4, 1⟩).2.ensureStyle ⟨4, 1⟩).1 = .ok style := by
  have hlive : settledBox.tree.contains ⟨4, 1⟩ = true := by decide
  have hserved : settledBox.sync.unserved? ⟨4, 1⟩ = none := by
    rw [unserved?_sync hlive]
    decide
  have hok := ensureStyle_fst_eq hlive
  rw [hserved] at hok
  obtain ⟨due, -, hrefreshes, -, hagain, -⟩ :=
    ensureStyle_refreshes (s := settledBox) ⟨_, rfl⟩ hok
  have hpath : settledBox.pathIds ⟨4, 1⟩ = [⟨4, 1⟩, ⟨3, 1⟩, ⟨2, 1⟩, ⟨1, 1⟩] := by decide
  have hbox : settledBox.tree.isDirty ⟨2, 1⟩ = .ok false ∧
      (settledBox.manager? ⟨2, 1⟩).map StyleManager.valid = some true := by decide
  have hlabel : (settledBox.manager? ⟨4, 1⟩).map StyleManager.valid = some false := by decide
  refine ⟨_, due.map Prod.fst, hok, hrefreshes, by simpa [hpath] using hrefreshes.downward,
    ?_, ?_, ?_, ?_, hagain⟩
  · exact (hrefreshes.mem_iff _).mpr ⟨by simp [hpath], Or.inl (by decide)⟩
  · rw [hrefreshes.mem_iff]
    rintro ⟨-, hdirty | ⟨m, hm, hvalid⟩⟩
    · rw [hbox.1] at hdirty
      cases hdirty
    · rw [hm, Option.map_some, hvalid] at hbox
      cases hbox.2
  · exact (hrefreshes.mem_iff _).mpr ⟨by simp [hpath], Or.inl (by decide)⟩
  · obtain ⟨m, hm, hvalid⟩ := Option.map_eq_some_iff.mp hlabel
    exact (hrefreshes.mem_iff _).mpr ⟨by simp [hpath], Or.inr ⟨m, hm, hvalid⟩⟩

end Scene

end StyledScene
