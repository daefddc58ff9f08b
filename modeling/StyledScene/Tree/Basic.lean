import StyledScene.Tree.Forest

/-!
# Node trees

The nodes of a scene: a forest whose roots stand in slot order, the supply of ids, and the serial
number of the next node. This module reads a tree; every question about a node that is not alive is
answered by the same error.
-/

namespace StyledScene

/-- Why an operation on a tree was refused. -/
inductive TreeError where
  /-- No living node has the id. -/
  | invalidNode (id : NodeId)
  /-- The new parent is the node itself or lies below it. -/
  | circularParentage (child parent : NodeId)
deriving DecidableEq, Repr

/-- The wording shown to a host. -/
def TreeError.message : TreeError → String
  | .invalidNode id => "Invalid or destroyed node ID " ++ id.text
  | .circularParentage child parent =>
    "Cannot set node " ++ child.text ++ " under its own descendant " ++ parent.text

/-- The living nodes and what the tree needs to name the next one. -/
structure NodeTree where
  forest : Forest
  pool : IdPool
  nextSerial : Nat
deriving DecidableEq

namespace NodeTree

/-- The tree before any node exists. -/
def empty : NodeTree := ⟨.nil, .initial, 0⟩

/-! ## Look-ups -/

/-- The node with an id and what is below it, if it is alive. -/
def subtree? (t : NodeTree) (id : NodeId) : Option (Node × Forest) := t.forest.subtree? id

/-- The data of a living node. -/
def get? (t : NodeTree) (id : NodeId) : Option Node := (t.subtree? id).map Prod.fst

/-- Whether a node is alive. -/
def contains (t : NodeTree) (id : NodeId) : Bool := (t.subtree? id).isSome

/-- A living node and its ancestors, from the node upward. -/
def path? (t : NodeTree) (id : NodeId) : Option (List Node) := t.forest.path? id

/-- The parent of a node; none for roots and for dead nodes. -/
def parentId? (t : NodeTree) (id : NodeId) : Option NodeId :=
  match t.path? id with
  | some (_ :: parent :: _) => some parent.id
  | _ => none

/-- The children of a node in sibling order; empty for dead nodes. -/
def childIds (t : NodeTree) (id : NodeId) : List NodeId :=
  match t.subtree? id with
  | some (_, below) => below.rootIds
  | none => []

/-- The index of a node among its siblings and their number; none for roots. -/
def siblingPlace? (t : NodeTree) (id : NodeId) : Option (Nat × Nat) :=
  (t.parentId? id).map fun parent =>
    let siblings := t.childIds parent
    (siblings.idxOf id, siblings.length)

/-- Whether `id` is `ancestor` or lies below it. -/
def isUnder (t : NodeTree) (ancestor id : NodeId) : Bool :=
  match t.path? id with
  | some path => path.any fun n => n.id == ancestor
  | none => false

/-- The number of living nodes. -/
def nodeCount (t : NodeTree) : Nat := t.forest.nodes.length

/-- All living nodes in slot order. -/
def ids (t : NodeTree) : List NodeId := t.forest.ids.mergeSort fun a b => decide (a.index ≤ b.index)

/-- The nodes without a parent, in slot order. -/
def roots (t : NodeTree) : List NodeId := t.forest.rootIds

/-! ## Questions about one node -/

/-- Answers a question about a living node and what is below it. -/
def ask (t : NodeTree) (id : NodeId) {α : Type} (answer : Node → Forest → α) : Except TreeError α :=
  match t.subtree? id with
  | some (n, below) => .ok (answer n below)
  | none => .error (.invalidNode id)

/-- The data of a node. -/
def node (t : NodeTree) (id : NodeId) : Except TreeError Node := t.ask id fun n _ => n

/-- The parent of a node; roots have none. -/
def parent (t : NodeTree) (id : NodeId) : Except TreeError (Option NodeId) :=
  t.ask id fun _ _ => t.parentId? id

/-- The children of a node in sibling order. -/
def children (t : NodeTree) (id : NodeId) : Except TreeError (List NodeId) :=
  t.ask id fun _ below => below.rootIds

/-- The number of ancestors. -/
def depth (t : NodeTree) (id : NodeId) : Except TreeError Nat :=
  t.ask id fun _ _ => ((t.path? id).getD []).length - 1

/-- The index among the siblings and their number. -/
def siblingPosition (t : NodeTree) (id : NodeId) : Except TreeError (Option (Nat × Nat)) :=
  t.ask id fun _ _ => t.siblingPlace? id

/-- Everything below a node, parents before children. -/
def descendants (t : NodeTree) (id : NodeId) : Except TreeError (List NodeId) :=
  t.ask id fun _ below => below.ids

/-- The node, then everything below it, parents before children. -/
def preorder (t : NodeTree) (id : NodeId) : Except TreeError (List NodeId) :=
  t.ask id fun _ below => id :: below.ids

/-- Whether the node and all its ancestors are visible. -/
def isEffectivelyVisible (t : NodeTree) (id : NodeId) : Except TreeError Bool :=
  t.ask id fun _ _ => ((t.path? id).getD []).all Node.isVisible

/-- Whether the node needs a new style. -/
def isDirty (t : NodeTree) (id : NodeId) : Except TreeError Bool := t.ask id fun n _ => n.dirty

/-! ## First facts -/

theorem contains_iff {t : NodeTree} {id : NodeId} : t.contains id = true ↔ id ∈ t.forest.ids :=
  t.forest.subtree?_isSome id

theorem ask_eq_error_iff {t : NodeTree} {id : NodeId} {α : Type} {answer : Node → Forest → α}
    {e : TreeError} : t.ask id answer = .error e ↔ t.contains id = false ∧ e = .invalidNode id := by
  unfold ask contains
  cases t.subtree? id <;> simp [eq_comm]

end NodeTree

end StyledScene
