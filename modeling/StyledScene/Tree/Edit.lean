import StyledScene.Tree.Basic

/-!
# Tree edits

The ways in which a host changes a tree. An edit that changes how a selector may match a node leaves
that node and everything below it marked; an edit of the shape marks the whole subtree of every
parent involved, because the places of siblings and the number of children count as well. An edit
that is refused leaves no new tree at all.
-/

namespace StyledScene

namespace NodeTree

/-! ## Marks -/

/-- The tree with a node and everything below it marked. -/
def marked (t : NodeTree) (id : NodeId) : NodeTree := { t with forest := t.forest.markUnder id }

/-- The tree with a possible node, and everything below it, marked. -/
def markedAt (t : NodeTree) : Option NodeId → NodeTree
  | some id => t.marked id
  | none => t

/-- Marks a node and everything below it. -/
def markDirty (t : NodeTree) (id : NodeId) : Except TreeError NodeTree :=
  t.ask id fun _ _ => t.marked id

/-- The tree with the mark of one node taken away. -/
def cleaned (t : NodeTree) (id : NodeId) : NodeTree :=
  { t with forest := t.forest.modify id Node.clean }

/-- Takes the mark of a single node away. -/
def clearDirty (t : NodeTree) (id : NodeId) : Except TreeError NodeTree :=
  t.ask id fun _ _ => t.cleaned id

/-! ## Shape -/

/-- The tree with a new root. -/
def create (t : NodeTree) (tag : String) : NodeId × NodeTree :=
  let (id, pool) := t.pool.take
  let node := Node.new id tag t.nextSerial
  (id, ⟨t.forest.insertRoot (node, .nil), pool, t.nextSerial + 1⟩)

/-- The tree without a node and everything below it. The parent's remaining subtree is marked. -/
def detached (t : NodeTree) (id : NodeId) : NodeTree :=
  markedAt { t with forest := t.forest.prune id } (t.parentId? id)

/-- The tree with a subtree added: as the last child of a parent, whose whole subtree is marked, or
as a marked root. -/
def attached (t : NodeTree) (subtree : Node × Forest) : Option NodeId → NodeTree
  | some parent => marked { t with forest := t.forest.graft parent subtree } parent
  | none => marked { t with forest := t.forest.insertRoot subtree } subtree.1.id

/-- Moves a node under a new parent, after the children that the parent has, or makes it a root. -/
def setParent (t : NodeTree) (id : NodeId) (parent : Option NodeId) : Except TreeError NodeTree :=
  match t.subtree? id with
  | none => .error (.invalidNode id)
  | some subtree =>
    match parent with
    | none => .ok ((t.detached id).attached subtree none)
    | some p =>
      if !t.contains p then .error (.invalidNode p)
      else if t.isUnder id p then .error (.circularParentage id p)
      -- the old parent is marked before the new one takes the subtree in
      else .ok ((t.detached id).attached subtree (some p))

/-- Creates a node as the last child of a parent. -/
def createChild (t : NodeTree) (parent : NodeId) (tag : String) :
    Except TreeError (NodeId × NodeTree) :=
  if t.contains parent then
    -- the node is a root first and is moved at once
    let (id, grown) := t.create tag
    (grown.setParent id (some parent)).map fun placed => (id, placed)
  else .error (.invalidNode parent)

/-- Destroys a node and everything below it; the slots become free in pre-order, the node's own last. -/
def destroy (t : NodeTree) (id : NodeId) : Except TreeError NodeTree :=
  t.ask id fun _ below =>
    { t.detached id with pool := (below.ids ++ [id]).foldl IdPool.release t.pool }

/-! ## Data -/

/-- Makes an edit of one node. If there is something to change, the node and everything below it are
marked; the answer says whether there was. -/
def revise (t : NodeTree) (id : NodeId) (edit : Node → Option Node) :
    Except TreeError (Bool × NodeTree) :=
  t.ask id fun n _ =>
    match edit n with
    | some n' => (true, marked { t with forest := t.forest.modify id fun _ => n' } id)
    | none => (false, t)

/-- Adds a more special tag. -/
def pushTag (t : NodeTree) (id : NodeId) (tag : String) : Except TreeError (Bool × NodeTree) :=
  t.revise id fun n => n.pushTag? tag

/-- Replaces the author's id. -/
def setAuthorId (t : NodeTree) (id : NodeId) (value : Option String) :
    Except TreeError (Bool × NodeTree) :=
  t.revise id fun n => n.setAuthorId? value

/-- Adds a class; the answer says whether it is new. -/
def addClass (t : NodeTree) (id : NodeId) (name : String) : Except TreeError (Bool × NodeTree) :=
  t.revise id fun n => n.addClass? name

/-- Takes a class away; the answer says whether it was there. -/
def removeClass (t : NodeTree) (id : NodeId) (name : String) : Except TreeError (Bool × NodeTree) :=
  t.revise id fun n => n.removeClass? name

/-- Whether a node has a class. -/
def hasClass (t : NodeTree) (id : NodeId) (name : String) : Except TreeError Bool :=
  t.ask id fun n _ => n.hasClass name

/-- Adds a class or takes it away; the answer says whether it was added. -/
def toggleClass (t : NodeTree) (id : NodeId) (name : String) : Except TreeError (Bool × NodeTree) :=
  match t.hasClass id name with
  | .error e => .error e
  | .ok true => (t.removeClass id name).map fun (_, after) => (false, after)
  | .ok false => t.addClass id name

/-- Turns states on or off; the answer says whether any changed. -/
def setState (t : NodeTree) (id : NodeId) (flags : NodeState) (on : Bool) :
    Except TreeError (Bool × NodeTree) :=
  t.revise id fun n => n.setState? flags on

end NodeTree

/-! ## Edits as data -/

/-- One edit of a tree. -/
inductive TreeEdit where
  | create (tag : String)
  | createChild (parent : NodeId) (tag : String)
  | destroy (id : NodeId)
  | setParent (id : NodeId) (parent : Option NodeId)
  | pushTag (id : NodeId) (tag : String)
  | setAuthorId (id : NodeId) (value : Option String)
  | addClass (id : NodeId) (name : String)
  | removeClass (id : NodeId) (name : String)
  | toggleClass (id : NodeId) (name : String)
  | setState (id : NodeId) (flags : NodeState) (on : Bool)
  | markDirty (id : NodeId)
  | clearDirty (id : NodeId)

namespace TreeEdit

/-- Puts a node after the children of a parent. -/
def addChild (parent child : NodeId) : TreeEdit := .setParent child (some parent)

/-- Tells whether the pointer is over the node. -/
def setHovered (id : NodeId) (yes : Bool) : TreeEdit := .setState id (.singleton .hovered) yes

/-- Tells whether the node has the focus. -/
def setFocused (id : NodeId) (yes : Bool) : TreeEdit := .setState id (.singleton .focused) yes

/-- Tells whether the node is pressed. -/
def setActive (id : NodeId) (yes : Bool) : TreeEdit := .setState id (.singleton .active) yes

/-- Tells whether the node takes part in interaction. -/
def setEnabled (id : NodeId) (yes : Bool) : TreeEdit := .setState id (.singleton .disabled) !yes

/-- Shows or hides the node. -/
def setVisible (id : NodeId) (yes : Bool) : TreeEdit := .setState id (.singleton .hidden) !yes

end TreeEdit

/-- What an edit answers. -/
inductive TreeReply where
  | done
  | created (id : NodeId)
  | changed (yes : Bool)
deriving DecidableEq, Repr

/-- Makes an edit. -/
def NodeTree.edit (t : NodeTree) : TreeEdit → Except TreeError (TreeReply × NodeTree)
  | .create tag =>
    let (id, after) := t.create tag
    .ok (.created id, after)
  | .createChild parent tag => (t.createChild parent tag).map fun (id, after) => (.created id, after)
  | .destroy id => (t.destroy id).map fun after => (.done, after)
  | .setParent id parent => (t.setParent id parent).map fun after => (.done, after)
  | .pushTag id tag => (t.pushTag id tag).map fun (_, after) => (.done, after)
  | .setAuthorId id value => (t.setAuthorId id value).map fun (_, after) => (.done, after)
  | .addClass id name => (t.addClass id name).map fun (yes, after) => (.changed yes, after)
  | .removeClass id name => (t.removeClass id name).map fun (yes, after) => (.changed yes, after)
  | .toggleClass id name => (t.toggleClass id name).map fun (yes, after) => (.changed yes, after)
  | .setState id flags on => (t.setState id flags on).map fun (yes, after) => (.changed yes, after)
  | .markDirty id => (t.markDirty id).map fun after => (.done, after)
  | .clearDirty id => (t.clearDirty id).map fun after => (.done, after)

/-- The tree after an edit; a refused edit leaves it as it was. -/
def NodeTree.after (t : NodeTree) (e : TreeEdit) : NodeTree :=
  match t.edit e with
  | .ok (_, after) => after
  | .error _ => t

/-- The tree after a run of edits. -/
def NodeTree.run (t : NodeTree) (edits : List TreeEdit) : NodeTree := edits.foldl after t

/-- The trees that some run of edits leads to. -/
def NodeTree.Reachable (t : NodeTree) : Prop := ∃ edits, t = NodeTree.empty.run edits

end StyledScene
