import StyledScene.Journal.Event
import StyledScene.Tree.Edit

/-!
# Events of the tree

What an edit of a tree reports, told from the trees before and after it.
-/

namespace StyledScene

namespace NodeTree

/-- The number of nodes that marking a node reaches. -/
def reach (t : NodeTree) (id : NodeId) : Nat :=
  match t.subtree? id with
  | some (_, below) => below.nodes.length + 1
  | none => 0

/-- The report that a node and everything below it were marked. -/
def markEvent (t : NodeTree) (id : NodeId) : Event := .subtreeMarked id (t.reach id)

/-- The report of taking a node out of a tree: its parent's remaining subtree is marked. -/
def detachEvents (t : NodeTree) (id : NodeId) : List Event :=
  match t.parentId? id with
  | some parent => [(t.detached id).markEvent parent]
  | none => []

/-- The reports of moving a node. -/
def moveEvents (before after : NodeTree) (id : NodeId) (parent : Option NodeId) : List Event :=
  before.detachEvents id ++
    [after.markEvent (parent.getD id), .nodeMoved id (before.parentId? id) parent]

/-- The reports of an edit of one node: nothing if it changed nothing. -/
def revisionEvents (before after : NodeTree) (id : NodeId) : List Event :=
  match before.get? id, after.get? id with
  | some old, some new =>
    if old.tags = new.tags ∧ old.authorId = new.authorId ∧ old.classes = new.classes ∧
        old.state = new.state then []
    else
      (if old.state = new.state then [] else [.stateChanged id old.state new.state]) ++
        [after.markEvent id]
  | _, _ => []

/-- The reports of an edit. A refused edit reports nothing, but a destruction is announced first. -/
def editEvents (t : NodeTree) (e : TreeEdit) : List Event :=
  let announced := match e with
    | .destroy id => [.destruction id]
    | _ => []
  announced ++
    match t.edit e with
    | .error _ => []
    | .ok (reply, after) =>
      match e, reply with
      | .create tag, .created id => [.nodeCreated id tag]
      | .createChild parent tag, .created id =>
        .nodeCreated id tag :: moveEvents (t.create tag).2 after id (some parent)
      | .destroy id, _ => t.detachEvents id
      | .setParent id parent, _ => moveEvents t after id parent
      | .pushTag id _, _ | .setAuthorId id _, _ | .addClass id _, _ | .removeClass id _, _
      | .toggleClass id _, _ | .setState id _ _, _ => revisionEvents t after id
      | .markDirty id, _ => [after.markEvent id]
      | _, _ => []

end NodeTree

end StyledScene
