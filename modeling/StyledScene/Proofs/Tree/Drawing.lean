import StyledScene.Proofs.Tree.ForestInvariant
import StyledScene.Proofs.Tree.Roots
import StyledScene.Tree.Outline

/-!
# Drawing along the links

A picture drawn from the records of a linked tree, line by line on the way down. A call hands the level on to
the children, and tells each of them whether it is the last one; below the deepest level that is shown it
turns back. The lines are those of the forest that the records hold (`ends_outline`, `ends_outlineAll`).
-/

namespace StyledScene

namespace LinkedTree

/-! ## §1 The drawing -/

/-- Adds the lines of a node and of everything below it to what is drawn already. -/
def sketch (o : OutlineOptions) (drawn : String) (level : Nat) (isLast : Bool) (id : NodeId) :
    Work String := do
  if o.maxDepth.any (· < level) then return drawn
  else
    let r ← read id
    r.children.zipIdx.foldlM
      (fun drawn (child, i) => by
        apply sketch
        · exact o
        · exact drawn
        · exact level + 1
        · exact i + 1 == r.children.length
        · exact child)
      (drawn ++ o.line level isLast r.data)
partial_fixpoint

/-- The picture of a node and everything below it. -/
def outline (o : OutlineOptions) (id : NodeId) : Work String := sketch o "" 0 true id

/-- The picture of all trees, where `ids` are the living nodes. -/
def outlineAll (o : OutlineOptions) (ids : List NodeId) : Work String := do
  let l ← get
  let roots := l.rootsAmong ids
  let start := "Node Tree (" ++ toString ids.length ++ " total nodes):\n" ++
    (if roots.isEmpty then "  (empty)\n" else "")
  roots.foldlM (fun drawn root => sketch o drawn 0 true root) start

/-! ## §2 Drawing a recorded forest -/

section Sketch

variable {l : LinkedTree} {o : OutlineOptions} {f : Forest} {up : Option NodeId}

/-- A level is shown unless the deepest one lies above it. -/
theorem shows_eq (o : OutlineOptions) (level : Nat) : o.shows level = !o.maxDepth.any (· < level) := by
  cases hdeepest : o.maxDepth with
  | none => simp [OutlineOptions.shows, hdeepest]
  | some deepest =>
    simp only [OutlineOptions.shows, hdeepest, Option.all_some, Option.any_some, ← decide_not, Nat.not_lt]

/-- The calls for siblings, the first of which is the `k`-th of `count`. -/
def sketchEach (o : OutlineOptions) (drawn : String) (level k count : Nat) (ids : List NodeId) :
    Work String :=
  (ids.zipIdx k).foldlM (fun drawn (child, i) => sketch o drawn level (i + 1 == count) child) drawn

theorem sketchEach_cons (drawn : String) (level k count : Nat) (id : NodeId) (ids : List NodeId) :
    sketchEach o drawn level k count (id :: ids) = (do
      let drawn ← sketch o drawn level (k + 1 == count) id
      sketchEach o drawn level (k + 1) count ids) := by
  rw [sketchEach, List.zipIdx_cons, List.foldlM_cons]
  rfl

/-- Below the deepest level nothing is drawn. -/
theorem ends_sketch_of_deep {level : Nat} (hdeep : o.shows level = false) (drawn : String)
    (isLast : Bool) (id : NodeId) : Ends (sketch o drawn level isLast id) l (.ok drawn) l := by
  rw [shows_eq, Bool.not_eq_false'] at hdeep
  rw [sketch, if_pos hdeep]
  exact ends_pure drawn

/-- Elsewhere the line of the node comes first, then what its children draw. -/
theorem ends_sketch_of_shown {level : Nat} (hshown : o.shows level = true) {drawn : String}
    {isLast : Bool} {id : NodeId} {r : Record} (hr : l.record? id = some r)
    {a : Except TreeError String}
    (hbelow : Ends (sketchEach o (drawn ++ o.line level isLast r.data) (level + 1) 0
      r.children.length r.children) l a l) : Ends (sketch o drawn level isLast id) l a l := by
  rw [shows_eq, Bool.not_eq_true'] at hshown
  rw [sketch, if_neg (by simp [hshown])]
  exact (ends_read hr).bind hbelow

/-- **The calls for the roots of a recorded forest draw the forest.** -/
theorem ends_sketchEach (h : f.Recorded l.record? up) (level : Nat) {k count : Nat}
    (hcount : k + f.rootIds.length = count) (drawn : String) :
    Ends (sketchEach o drawn level k count f.rootIds) l (.ok (drawn ++ o.draw level f)) l := by
  induction f generalizing up level k count drawn with
  | nil => simpa [OutlineOptions.draw, sketchEach] using ends_pure drawn
  | tree n children rest ihc ihr =>
    obtain ⟨hn, hc, hr⟩ := h
    simp only [Forest.rootIds_tree, List.length_cons] at hcount
    have hlast : (k + 1 == count) = (rest == .nil) := by
      cases rest with
      | nil => simp [← hcount]
      | tree m below beside => simp [← hcount]
    have hbeside := ihr hr level (show k + 1 + rest.rootIds.length = count by omega)
    rw [Forest.rootIds_tree, sketchEach_cons, hlast, OutlineOptions.draw]
    cases hshown : o.shows level with
    | false =>
      apply (ends_sketch_of_deep hshown drawn _ n.id).bind
      simpa using hbeside drawn
    | true =>
      -- the line of the root, what is below it, what is beside it
      have hbelow := ihc hc (level + 1) (Nat.zero_add _) (drawn ++ o.line level (rest == .nil) n)
      apply (ends_sketch_of_shown hshown hn hbelow).bind
      simpa [String.append_assoc] using
        hbeside (drawn ++ o.line level (rest == .nil) n ++ o.draw (level + 1) children)

/-- A single tree is drawn by one call. -/
theorem ends_sketch_single {sub : Node × Forest} (h : (Forest.single sub).Recorded l.record? up)
    (drawn : String) :
    Ends (sketch o drawn 0 true sub.1.id) l (.ok (drawn ++ o.draw 0 (.single sub))) l := by
  have hcall : sketchEach o drawn 0 0 1 (Forest.single sub).rootIds = sketch o drawn 0 true sub.1.id := by
    rw [Forest.single, Forest.rootIds_tree, sketchEach_cons]
    exact bind_pure _
  rw [← hcall]
  exact ends_sketchEach h 0 rfl drawn

/-- What stands beside the root of a picture is no part of its line. -/
theorem draw_tree (o : OutlineOptions) (n : Node) (children rest : Forest) :
    o.draw 0 (.tree n children rest) = o.draw 0 (.single (n, children)) ++ o.draw 0 rest := by
  simp [OutlineOptions.draw, OutlineOptions.line, OutlineOptions.lead, Forest.single]

theorem ends_sketch_roots (h : f.Recorded l.record? up) (drawn : String) :
    Ends (f.rootIds.foldlM (fun drawn root => sketch o drawn 0 true root) drawn) l
      (.ok (drawn ++ o.draw 0 f)) l := by
  induction f generalizing drawn with
  | nil => simpa [OutlineOptions.draw] using ends_pure drawn
  | tree n children rest _ ihr =>
    obtain ⟨hn, hc, hr⟩ := h
    have hsingle : (Forest.single (n, children)).Recorded l.record? up :=
      Forest.recorded_single.mpr ⟨hn, hc⟩
    rw [Forest.rootIds_tree, List.foldlM_cons, draw_tree, ← String.append_assoc]
    exact (ends_sketch_single hsingle drawn).bind (ihr hr _)

end Sketch

end LinkedTree

/-! ## §3 The pictures of a tree -/

theorem NodeTree.length_ids (t : NodeTree) : t.ids.length = t.nodeCount := by
  simp [ids, nodeCount, Forest.ids]

/-- A tree without roots has no nodes. -/
theorem NodeTree.isEmpty_roots (t : NodeTree) : t.roots.isEmpty = (t.forest == .nil) := by
  cases hf : t.forest <;> simp [roots, hf]

namespace LinkedTree

namespace Represents

variable {l : LinkedTree} {t : NodeTree}

theorem ends_outline (h : l.Represents t) (o : OutlineOptions) (id : NodeId) :
    Ends (outline o id) l (t.outline o id) l := by
  rw [NodeTree.outline, NodeTree.ask]
  cases hsub : t.subtree? id with
  | none =>
    rw [outline, sketch, if_neg (by simp)]
    exact (h.ends_read_of_dead hsub).bind_error
  | some sub =>
    obtain ⟨_, hsingle⟩ := h.single_recorded hsub
    have hends := ends_sketch_single (o := o) hsingle ""
    rw [NodeTree.subtree?_id hsub, String.empty_append] at hends
    exact hends

theorem ends_outlineAll (h : l.Represents t) (hwf : t.WellFormed)
    (hroots : t.RootsAscend) (o : OutlineOptions) :
    Ends (outlineAll o t.ids) l (.ok (t.outlineAll o)) l := by
  refine ends_get.bind ?_
  simp only [h.rootsAmong_eq hwf hroots (h.enumerates hwf), t.length_ids, t.isEmpty_roots]
  exact ends_sketch_roots h.recorded _

end Represents

end LinkedTree

end StyledScene
