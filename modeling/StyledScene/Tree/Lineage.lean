import StyledScene.Selector.Matching
import StyledScene.Tree.Basic

/-!
# Lineages

The side of a tree that selectors see: a living node and its ancestors, each with its tags, ids,
classes, states, number of children and place among its siblings. The depth that a node reports is
the number of its ancestors.
-/

namespace StyledScene

namespace NodeTree

/-- What a selector sees of a node that has `depth` ancestors. -/
def view (t : NodeTree) (n : Node) (depth : Nat) : NodeView where
  tags := n.tags
  id := n.authorId
  autoId := n.autoId
  classes := n.classes
  hovered := n.state.contains .hovered
  focused := n.state.contains .focused
  active := n.state.contains .active
  disabled := n.state.contains .disabled
  childCount := (t.childIds n.id).length
  sibling := t.siblingPlace? n.id
  depth := depth

/-- What a selector sees of a path that leads up to a root. -/
def lineageOf (t : NodeTree) : List Node → Lineage
  | [] => []
  | n :: above => t.view n above.length :: t.lineageOf above

/-- What a selector sees of a living node and its ancestors. -/
def lineage? (t : NodeTree) (id : NodeId) : Option Lineage := (t.path? id).map t.lineageOf

/-- What a selector sees of a node; a dead one shows nothing, and no selector matches it. -/
def lineage (t : NodeTree) (id : NodeId) : Lineage := (t.lineage? id).getD []

@[simp] theorem length_lineageOf (t : NodeTree) (path : List Node) :
    (t.lineageOf path).length = path.length := by
  induction path with
  | nil => rfl
  | cons n above ih => simp [lineageOf, ih]

end NodeTree

end StyledScene
