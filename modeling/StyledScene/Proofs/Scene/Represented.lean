import StyledScene.Proofs.Scene.Linked
import StyledScene.Proofs.Scene.Steps
import StyledScene.Proofs.Tree.Simulation

/-!
# Linked scenes that represent scenes

A linked scene represents a scene if its tree represents the tree and its tables hold the same entries.
What it reads is then what the scene reads (`ends_read`), and every climb to a root ends and finds what
the scene finds on the path: what selectors see (`ends_lineage`), the manager (`ends_styleManager`) and the
stale nodes (`ends_climbStale`). A node is computed anew from the same things (`ends_recompute`).
-/

namespace StyledScene

/-! ## §1 What selectors see -/

namespace LinkedTree.Represents

variable {l : LinkedTree} {t : NodeTree} {id : NodeId}

theorem siblingPlace?_eq (h : l.Represents t) (hnd : t.forest.ids.Nodup) {r : Record}
    (hr : l.record? id = some r) : l.siblingPlace? id r = t.siblingPlace? id := by
  obtain ⟨above, hp, hparent, -⟩ := h.record?_eq_some hr
  rw [siblingPlace?, NodeTree.siblingPlace?, hparent]
  cases hup : t.parentId? id with
  | none => rfl
  | some parent =>
    obtain ⟨n, m, up, hp', rfl⟩ := NodeTree.parentId?_eq_some_iff.mp hup
    -- the parent lists the node
    have hlisted := (NodeTree.mem_childIds_iff_parentId? hnd).mpr hup
    rw [Option.bind_some, h.record?_of_path? (Forest.path?_above hnd hp'), Option.bind_some,
      if_pos hlisted]
    rfl

theorem view_eq (h : l.Represents t) (hnd : t.forest.ids.Nodup) {n : Node} {parent : Option NodeId}
    {children : List NodeId} (hr : l.record? n.id = some ⟨n, parent, children⟩) (depth : Nat) :
    l.view n.id ⟨n, parent, children⟩ depth = t.view n depth := by
  obtain ⟨-, -, -, hchildren⟩ := h.record?_eq_some hr
  have hchildren : children = t.childIds n.id := hchildren
  rw [view, h.siblingPlace?_eq hnd hr, NodeTree.view, hchildren]

theorem ends_lineage (h : l.Represents t) (hnd : t.forest.ids.Nodup)
    (hlive : t.contains id = true) : Ends (LinkedTree.lineage id) l (.ok (t.lineage id)) l := by
  obtain ⟨n, above, hp, hn⟩ := NodeTree.path?_of_contains hlive
  -- on the path upward, whatever was found below
  have hclimb := (climb h.recorded hnd hp (motive := fun p => ∀ found,
    Ends (viewUp found (p.length - 1) (p.head?.map Node.id)) l (.ok (found ++ t.lineageOf p)) l)
    ?_ ?_).2 []
  · refine (ends_read (h.record?_of_path? hp)).bind ((ends_depth h.recorded hnd hp).bind ?_)
    rw [NodeTree.lineage, NodeTree.lineage?, hp]
    rw [List.head?_cons, Option.map_some, hn] at hclimb
    exact hclimb
  · intro found
    show Ends (viewUp found 0 none) l _ l
    rw [viewUp, NodeTree.lineageOf, List.append_nil]
    exact ends_pure found
  · intro k up hk hup found
    show Ends (viewUp found up.length (some k.id)) l _ l
    rw [viewUp]
    refine ends_get.bind ?_
    have hrest := hup (found ++ [t.view k up.length])
    rw [List.append_assoc, List.singleton_append] at hrest
    simp only [hk, h.view_eq hnd hk]
    exact hrest

end LinkedTree.Represents

theorem NodeMap.get?_eq_none {α : Type} {m : NodeMap α} {id : NodeId}
    (h : ∀ entry ∈ m.entries, entry.1 ≠ id) : m.get? id = none := by
  rw [NodeMap.get?, Option.map_eq_none_iff, List.find?_eq_none]
  exact fun entry hentry hkey => h entry hentry (beq_iff_eq.mp hkey)

namespace Scene.Synced

variable {s : Scene} {id : NodeId}

/-- In a scene in step, dead nodes have no styles. -/
theorem styles_of_dead (h : s.Synced) (hdead : ¬ s.tree.contains id = true) :
    s.styles.get? id = none :=
  NodeMap.get?_eq_none fun entry hentry heq => hdead (heq ▸ h.styles_live entry hentry)

/-- Nor do they have managers. -/
theorem attachments_of_dead (h : s.Synced) (hdead : ¬ s.tree.contains id = true) :
    s.attachments.get? id = none :=
  NodeMap.get?_eq_none fun entry hentry heq => hdead (heq ▸ h.attachments_live entry hentry)

end Scene.Synced

namespace LinkedScene

/-! ## §2 Representation -/

/-- The linked scene holds the scene, and the calls are on its canvas. -/
structure Represents (l : LinkedScene) (s : Scene) (drawn : List PaintCall) : Prop where
  tree : l.tree.Represents s.tree
  styles : ∀ id, l.style? id = s.styles.get? id
  attachments : ∀ id, l.attached? id = s.attachments.get? id
  managers : l.managers = s.managers
  canvas : l.canvas = drawn

/-- The linked scene that represents a scene, with nothing on its canvas. -/
def ofScene (s : Scene) : LinkedScene :=
  ⟨LinkedTree.ofTree s.tree, s.styles.get?, s.attachments.get?, s.managers, []⟩

theorem represents_ofScene {s : Scene} (hnd : s.tree.forest.ids.Nodup) :
    (ofScene s).Represents s [] :=
  ⟨LinkedTree.represents_ofTree hnd, fun _ => rfl, fun _ => rfl, rfl, rfl⟩

/-- The work ends with the answer and leaves a linked scene that represents `s'`. -/
def Yields {α : Type} (x : Work α) (l : LinkedScene) (answer : Except SceneError α) (s' : Scene)
    (drawn : List PaintCall) : Prop :=
  ∃ l', Ends x l answer l' ∧ l'.Represents s' drawn

theorem Yields.map {α β : Type} {x : Work α} {l : LinkedScene} {answer : Except SceneError α}
    {s' : Scene} {drawn : List PaintCall} (h : Yields x l answer s' drawn) (f : α → β) :
    Yields (f <$> x) l (answer.map f) s' drawn := by
  obtain ⟨l', hends, hl'⟩ := h
  exact ⟨l', hends.map f, hl'⟩

/-- Work that goes on from what other work leaves. -/
theorem Yields.bind {α β : Type} {x : Work α} {f : α → Work β} {l : LinkedScene} {a : α}
    {b : Except SceneError β} {s s' : Scene} {drawn drawn' : List PaintCall}
    (hx : Yields x l (.ok a) s drawn)
    (hf : ∀ l', l'.Represents s drawn → Yields (f a) l' b s' drawn') :
    Yields (x >>= f) l b s' drawn' := by
  obtain ⟨l', hends, hl'⟩ := hx
  obtain ⟨l'', hends', hl''⟩ := hf l' hl'
  exact ⟨l'', hends.bind hends', hl''⟩

theorem Yields.bind_error {α β : Type} {x : Work α} {f : α → Work β} {l : LinkedScene}
    {e : SceneError} {s : Scene} {drawn : List PaintCall} (hx : Yields x l (.error e) s drawn) :
    Yields (x >>= f) l (.error e) s drawn := by
  obtain ⟨l', hends, hl'⟩ := hx
  exact ⟨l', hends.bind_error, hl'⟩

end LinkedScene

namespace Ends

variable {α β : Type} {l : LinkedScene} {s : Scene} {drawn : List PaintCall}

open LinkedScene (Work Yields)

/-- Work that goes on after a look. -/
theorem bind_yields {x : Work α} {f : α → Work β} {a : α} {b : Except SceneError β}
    (hx : Ends x l (.ok a) l) (hf : Yields (f a) l b s drawn) : Yields (x >>= f) l b s drawn := by
  obtain ⟨l', hf, hl'⟩ := hf
  exact ⟨l', hx.bind hf, hl'⟩

/-- Work that only looks ends in the scene where it began. -/
theorem yields {x : Work α} {a : Except SceneError α} (hx : Ends x l a l)
    (h : l.Represents s drawn) : Yields x l a s drawn :=
  ⟨l, hx, h⟩

end Ends

namespace LinkedScene

theorem ends_onTree {α : Type} {l : LinkedScene} {x : LinkedTree.Work α} {a : Except TreeError α}
    {tree : LinkedTree} (h : Ends x l.tree a tree) :
    Ends (onTree x) l (Scene.liftTree a) { l with tree := tree } := by
  show (x.run.run l.tree).map _ = _
  rw [h]
  rfl

theorem styled_self (l : LinkedScene) (id : NodeId) (styles : NodeStyles) :
    (l.styled id styles).style? id = some styles :=
  if_pos rfl

theorem styled_styled (l : LinkedScene) (id : NodeId) (styles styles' : NodeStyles) :
    (l.styled id styles).styled id styles' = l.styled id styles' := by
  have htwice : entered (entered l.style? id styles) id styles' = entered l.style? id styles' := by
    funext k
    unfold entered
    by_cases hk : k = id
    · rw [if_pos hk, if_pos hk]
    · by_cases hslot : k.index = id.index <;> simp [hk, hslot]
  rw [LinkedScene.styled, LinkedScene.styled, htwice]
  rfl

namespace Represents

variable {l : LinkedScene} {s : Scene} {drawn : List PaintCall} {id : NodeId}

theorem alive_eq (h : l.Represents s drawn) (id : NodeId) : l.alive id = s.tree.contains id := by
  rw [Bool.eq_iff_iff, NodeTree.contains_iff, alive]
  constructor
  · intro hlive
    -- a dead id has no record
    by_contra hdead
    rw [h.tree.dead id hdead] at hlive
    cases hlive
  · intro hlive
    obtain ⟨r, hr⟩ := h.tree.recorded.exists_record? hlive
    rw [hr]
    rfl

/-- What a linked scene reads is what the scene reads. -/
theorem ends_read (h : l.Represents s drawn) (id : NodeId) :
    Ends (read id) l (s.read id fun styles => styles) l := by
  unfold LinkedScene.read Scene.read
  refine ends_get.bind ?_
  rw [h.alive_eq, h.styles]
  split
  · exact ends_pure _
  · exact ends_throw _

/-- A new entry for a node in the table of styles. -/
theorem styled (h : l.Represents s drawn) (id : NodeId) (styles : NodeStyles) :
    (l.styled id styles).Represents { s with styles := s.styles.insert id styles } drawn where
  tree := h.tree
  styles k := by
    rw [NodeMap.get?_insert, ← h.styles]
    rfl
  attachments := h.attachments
  managers := h.managers
  canvas := h.canvas

/-- A manager is changed. -/
theorem managing (h : l.Represents s drawn) (number : Nat) (f : StyleManager → StyleManager) :
    (l.managing number f).Represents (s.modifyManager number f) drawn where
  tree := h.tree
  styles := h.styles
  attachments := h.attachments
  managers := congrArg (List.modify · number f) h.managers
  canvas := h.canvas

theorem ends_update (h : l.Represents s drawn) (hlive : s.tree.contains id = true)
    (f : NodeStyles → NodeStyles) :
    Yields (update id f) l (.ok ()) { s with styles := s.styles.insert id (f (s.stylesOf id)) }
      drawn := by
  have hlive : l.alive id = true := (h.alive_eq id).trans hlive
  unfold update
  cases hstyles : l.style? id with
  | none =>
    -- the node is adopted first, and its new styles are changed at once
    refine ⟨l.styled id (f (NodeStyles.new Kind.container)), ends_get.bind ?_, ?_⟩
    · rw [if_pos hlive, hstyles]
      refine (ends_set _).bind (ends_get.bind ?_)
      have hends : Ends (modify fun l => l.styled id (f (NodeStyles.new Kind.container)) : Work Unit)
          (l.styled id (NodeStyles.new Kind.container)) (.ok ()) _ := ends_modify _
      rw [styled_styled] at hends
      rw [styled_self]
      exact hends
    · rw [Scene.stylesOf, ← h.styles, hstyles]
      exact h.styled id _
  | some styles =>
    refine ⟨l.styled id (f styles), ends_get.bind ?_, ?_⟩
    · rw [if_pos hlive, hstyles]
      refine ends_get.bind ?_
      rw [hstyles]
      exact ends_modify _
    · rw [Scene.stylesOf, ← h.styles, hstyles]
      exact h.styled id _

/-- What the tree agrees to do. -/
theorem onTree_ok {α : Type} {x : LinkedTree.Work α} {a : α} {t' : NodeTree}
    (h : l.Represents s drawn) (hx : LinkedTree.Agrees x l.tree (.ok (a, t'))) :
    Yields (onTree x) l (.ok a) (s.withTree t') drawn := by
  obtain ⟨tree, hends, htree⟩ := hx
  exact ⟨{ l with tree := tree }, ends_onTree hends, htree, h.styles, h.attachments, h.managers,
    h.canvas⟩

/-- What the tree refuses. -/
theorem onTree_error {α : Type} {x : LinkedTree.Work α} {e : TreeError} (h : l.Represents s drawn)
    (hx : LinkedTree.Agrees x l.tree (.error e)) :
    Yields (onTree x) l (.error (.tree e)) s drawn :=
  ⟨l, ends_onTree hx, h⟩

theorem forgetful (h : l.Represents s drawn) : l.forgetful.Represents s.forgetDead drawn where
  tree := h.tree
  styles k := by
    show (if l.alive k then l.style? k else none) = (s.styles.retain s.tree.contains).get? k
    rw [NodeMap.get?_retain, h.alive_eq, h.styles]
  attachments k := by
    show (if l.alive k then l.attached? k else none) = (s.attachments.retain s.tree.contains).get? k
    rw [NodeMap.get?_retain, h.alive_eq, h.attachments]
  managers := h.managers
  canvas := h.canvas

theorem ends_sync (h : l.Represents s drawn) (hwf : s.tree.WellFormed) :
    Yields sync l (.ok ()) s.sync drawn := by
  have hforgetful := h.forgetful
  refine ⟨l.forgetful.adopting, (ends_modify _).bind (ends_modify _), h.tree, fun k => ?_,
    hforgetful.attachments, h.managers, h.canvas⟩
  show (if l.forgetful.alive k then some ((l.forgetful.style? k).getD _)
    else l.forgetful.style? k) = _
  rw [hforgetful.alive_eq, hforgetful.styles]
  -- the living are adopted, and of the dead nothing is left
  split
  · rename_i hlive
    rw [Scene.styles_sync hwf hlive, Scene.stylesOf, ← s.styles_forgetDead hlive]
  · rename_i hdead
    rw [(Scene.synced_sync hwf).styles_of_dead hdead]
    exact (NodeMap.get?_retain _ _ _).trans (if_neg hdead)

/-! ## §3 Climbs -/

theorem ends_climbNumber (h : l.Represents s drawn) (hnd : s.tree.forest.ids.Nodup) {n : Node}
    {above : List Node} (hp : s.tree.path? id = some (n :: above)) :
    Ends (climbNumber (some id)) l (.ok (s.managerNumber? id)) l := by
  have hclimb := (LinkedTree.climb h.tree.recorded hnd hp (motive := fun p =>
    Ends (climbNumber (p.head?.map Node.id)) l
      (.ok (p.findSome? fun n => s.attachments.get? n.id)) l) ?_ ?_).2
  · rw [List.head?_cons, Option.map_some, Forest.id_of_path? hp] at hclimb
    rwa [Scene.managerNumber?_of_path? hp]
  · show Ends (climbNumber none) l (.ok none) l
    rw [climbNumber]
    exact ends_pure none
  · intro k up hk hup
    show Ends (climbNumber (some k.id)) l _ l
    rw [climbNumber, List.findSome?_cons]
    refine ends_get.bind ?_
    rw [h.attachments]
    cases s.attachments.get? k.id with
    | some number => exact ends_pure _
    | none =>
      -- the climb goes on to the parent in the record
      simp only [hk]
      exact hup

theorem ends_styleManager (h : l.Represents s drawn) (hnd : s.tree.forest.ids.Nodup)
    (hlive : s.tree.contains id = true) :
    Ends (styleManager id) l (.ok (s.manager? id)) l := by
  obtain ⟨n, above, hp, -⟩ := NodeTree.path?_of_contains hlive
  refine (h.ends_climbNumber hnd hp).bind (ends_get.bind ?_)
  rw [h.managers]
  exact ends_pure _

/-- The stale nodes are found from the node upward, each with its manager. -/
theorem ends_climbStale (h : l.Represents s drawn) (hnd : s.tree.forest.ids.Nodup) {n : Node}
    {above : List Node} (hp : s.tree.path? id = some (n :: above)) :
    Ends (climbStale [] (some id)) l
      (.ok (((n :: above).filter s.isStale).map fun k => (k.id, s.manager? k.id))) l := by
  have hclimb := (LinkedTree.climb h.tree.recorded hnd hp (motive := fun p => ∀ found,
    Ends (climbStale found (p.head?.map Node.id)) l
      (.ok (found ++ (p.filter s.isStale).map fun k => (k.id, s.manager? k.id))) l) ?_ ?_).2 []
  · rwa [List.head?_cons, Option.map_some, Forest.id_of_path? hp] at hclimb
  · intro found
    show Ends (climbStale found none) l _ l
    rw [climbStale, List.filter_nil, List.map_nil, List.append_nil]
    exact ends_pure found
  · intro k up hk hup found
    show Ends (climbStale found (some k.id)) l _ l
    obtain ⟨_, hpk, -, -⟩ := h.tree.record?_eq_some hk
    have hread : Ends (LinkedTree.read k.id) l.tree _ l.tree := LinkedTree.ends_read hk
    rw [climbStale]
    refine (h.ends_styleManager hnd (NodeTree.contains_of_path? hpk)).bind
      ((ends_onTree (hread.map _)).bind ((ends_onTree (hread.map _)).bind ?_))
    have hstale : (k.dirty || !(s.manager? k.id).any StyleManager.valid) = s.isStale k := rfl
    rw [List.filter_cons]
    simp only [hstale]
    cases s.isStale k with
    | true =>
      have hrest := hup (found ++ [(k.id, s.manager? k.id)])
      rw [List.append_assoc, List.singleton_append] at hrest
      exact hrest
    | false => exact hup found

/-- Of a dead node only the tables are asked before it is refused. -/
theorem ends_climbStale_of_dead (h : l.Represents s drawn) (hsynced : s.Synced)
    (hdead : s.tree.contains id = false) :
    Ends (climbStale [] (some id)) l (.error (.tree (.invalidNode id))) l := by
  have hrecord : l.tree.record? id = none :=
    h.tree.dead id fun hid => by rw [NodeTree.contains_iff.mpr hid] at hdead; cases hdead
  have hattached : l.attached? id = none := by
    rw [h.attachments]
    exact hsynced.attachments_of_dead (hdead ▸ Bool.false_ne_true)
  have hnumber : Ends (climbNumber (some id)) l (.ok none) l := by
    rw [climbNumber]
    refine ends_get.bind ?_
    simp only [hattached, hrecord, Option.bind_none]
    rw [climbNumber]
    exact ends_pure none
  have hmanager : Ends (styleManager id) l (.ok none) l := hnumber.bind (ends_get.bind (ends_pure _))
  have hdirty : Ends (LinkedTree.isDirty id) l.tree (.error (.invalidNode id)) l.tree :=
    (LinkedTree.ends_read_dead hrecord).map _
  rw [climbStale]
  exact hmanager.bind (ends_onTree hdirty).bind_error

/-! ## §4 One node -/

theorem ends_recompute (h : l.Represents s drawn) (hwf : s.tree.WellFormed) (m : StyleManager)
    (hlive : s.tree.contains id = true) :
    Yields (recompute m id) l (.ok ()) (s.recompute m id) drawn := by
  have hread := h.ends_read id
  rw [Scene.read, if_pos hlive] at hread
  obtain ⟨n, above, hp, hn⟩ := NodeTree.path?_of_contains hlive
  have hrecord := h.tree.record?_of_path? hp
  have hparent : Ends (LinkedTree.parent id) l.tree (.ok (s.tree.parentId? id)) l.tree :=
    (LinkedTree.ends_read hrecord).map _
  have hlineage := h.tree.ends_lineage hwf.nodup_ids hlive
  have hcontext : ((s.tree.parentId? id).bind l.style?).map NodeStyles.computed =
      (s.contextOf id).parent := by
    rw [funext h.styles, Option.map_bind]
    rfl
  refine hread.bind_yields ((ends_onTree hlineage).bind_yields ((ends_onTree hparent).bind_yields
    (ends_get.bind_yields ?_)))
  rw [hcontext]
  -- the new styles come first, then the mark goes
  refine (h.ends_update hlive _).bind fun l' hl' => ?_
  obtain ⟨sub, hsub⟩ := Option.isSome_iff_exists.mp hlive
  have hclear := hl'.tree.agrees_clearDirty id
  rw [show s.tree.clearDirty id = .ok (s.tree.cleaned id) from
    NodeTree.ask_eq_ok_iff.mpr ⟨sub, hsub, rfl⟩] at hclear
  exact hl'.onTree_ok hclear

end Represents

end LinkedScene

end StyledScene
