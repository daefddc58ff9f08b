import StyledScene.Tree.Edit

/-!
# Linked trees

A tree kept as a table of records. The record of a node links up to its parent and down to its children,
so that every edge of the tree is stored twice, and an edit of the shape writes the two links one after
the other. The edits and questions below follow the links, one record at a time: nothing about the table
rules out links that dangle, disagree or run in circles, and a walk along such links is refused half way
or never ends.

`LinkedTree.edit` makes the same edits as `NodeTree.edit`; that the answers and the trees agree, and so
that no walk ever fails, is shown in the modules that build on this one.
-/

namespace StyledScene

/-- What is stored for a living node. -/
structure Record where
  data : Node
  parent : Option NodeId
  /-- The children in sibling order. -/
  children : List NodeId

namespace Record

/-- The record, with the node in need of a new style. -/
def mark (r : Record) : Record := { r with data := r.data.mark }

/-- The record without a child. -/
def unlist (r : Record) (child : NodeId) : Record :=
  { r with children := r.children.filter (· != child) }

/-- The record with one more child, after the others. -/
def enlist (r : Record) (child : NodeId) : Record :=
  { r with children := r.children ++ [child] }

end Record

/-- The records of the living nodes and what the tree needs to name the next one. -/
structure LinkedTree where
  record? : NodeId → Option Record
  pool : IdPool
  nextSerial : Nat

namespace LinkedTree

/-! ## §1 Records -/

/-- The tree before any node exists. -/
def empty : LinkedTree := ⟨fun _ => none, .initial, 0⟩

/-- The tree with another record, or none, for one id. -/
def put (l : LinkedTree) (id : NodeId) (r : Option Record) : LinkedTree :=
  { l with record? := fun k => if k = id then r else l.record? k }

/-- The tree with the record of one node changed; a dead node has no record to change. -/
def modified (l : LinkedTree) (id : NodeId) (f : Record → Record) : LinkedTree :=
  l.put id ((l.record? id).map f)

/-- The tree without the record of one node, whose slot becomes free. -/
def removed (l : LinkedTree) (id : NodeId) : LinkedTree :=
  if (l.record? id).isSome then { l.put id none with pool := l.pool.release id } else l

/-- The ids are those of the living nodes, in slot order. -/
def Enumerates (l : LinkedTree) (ids : List NodeId) : Prop :=
  ids.Pairwise (fun a b => a.index < b.index) ∧ ∀ id, id ∈ ids ↔ (l.record? id).isSome = true

/-- The nodes without a parent, among the given ones. -/
def rootsAmong (l : LinkedTree) (ids : List NodeId) : List NodeId :=
  ids.filter fun id => (l.record? id).any fun r => r.parent.isNone

/-! ## §2 Work on a linked tree -/

/-- Work on a linked tree. Without a result it never ends; if it is refused, what was done up to then
stays done. -/
abbrev Work (α : Type) := ExceptT TreeError (StateT LinkedTree Option) α

/-- The record of a node; a dead one is refused. -/
def read (id : NodeId) : Work Record := do
  match (← get).record? id with
  | some r => return r
  | none => throw (.invalidNode id)

/-- Changes the record of a node; a dead one is refused. -/
def update (id : NodeId) (f : Record → Record) : Work Unit := do
  let _ ← read id
  modify fun l => l.modified id f

/-! ## §3 Walks

A walk goes on by `apply`, so that its term does not record where in the text the call stands. -/

/-- Marks every node on the stack and everything below. -/
def markAll (stack : List NodeId) : Work Unit := do
  match stack with
  | [] => return ()
  | id :: rest =>
    let r ← read id
    update id Record.mark
    -- the last child is on top of the stack
    by apply markAll; exact r.children.reverse ++ rest
partial_fixpoint

/-- Marks a node and everything below it. -/
def markDirty (id : NodeId) : Work Unit := markAll [id]

/-- The nodes found so far, then every node on the stack, each with everything below it. -/
def collect (found stack : List NodeId) : Work (List NodeId) := do
  match stack with
  | [] => return found
  | id :: rest =>
    let r ← read id
    -- the first child is on top of the stack
    by apply collect; exact found ++ [id]; exact r.children ++ rest
partial_fixpoint

/-- Everything below a node, parents before children. -/
def descendants (id : NodeId) : Work (List NodeId) := do
  let r ← read id
  collect [] r.children

/-- The node, then everything below it, parents before children. -/
def preorder (id : NodeId) : Work (List NodeId) := do
  let below ← descendants id
  return id :: below

/-- Counts the nodes from the given one up to a root, on top of those counted so far. -/
def countUp (count : Nat) (current : Option NodeId) : Work Nat := do
  match current with
  | none => return count
  | some id =>
    let r ← read id
    by apply countUp; exact count + 1; exact r.parent
partial_fixpoint

/-- The number of ancestors. -/
def depth (id : NodeId) : Work Nat := do
  let r ← read id
  countUp 0 r.parent

/-- Whether a climb from the given node to a root meets `ancestor`. A dead node ends the climb. -/
def meets (ancestor : NodeId) (current : Option NodeId) : Work Bool := do
  match current with
  | none => return false
  | some id =>
    if id = ancestor then return true
    else
      let l ← get
      by apply meets; exact ancestor; exact (l.record? id).bind Record.parent
partial_fixpoint

/-- Whether `id` is `ancestor` or lies below it. -/
def isUnder (ancestor id : NodeId) : Work Bool := meets ancestor (some id)

/-- Whether every node from the given one up to a root is visible. -/
def allVisible (current : Option NodeId) : Work Bool := do
  match current with
  | none => return true
  | some id =>
    let r ← read id
    if r.data.isVisible then by apply allVisible; exact r.parent
    else return false
partial_fixpoint

/-- Whether the node and all its ancestors are visible. -/
def isEffectivelyVisible (id : NodeId) : Work Bool := allVisible (some id)

/-! ## §4 Edits of the shape -/

/-- Makes a new root. -/
def create (tag : String) : Work NodeId := do
  let l ← get
  let (id, pool) := l.pool.take
  let node := Node.new id tag l.nextSerial
  set { l.put id (some ⟨node, none, []⟩) with pool := pool, nextSerial := l.nextSerial + 1 }
  return id

/-- Takes a node out of the list of its parent and marks what is left below the parent. The link from
the node to its parent stays. -/
def unlist (id : NodeId) : Work Unit := do
  let r ← read id
  match r.parent with
  | none => return ()
  | some parent =>
    modify fun l => l.modified parent fun r => r.unlist id
    markDirty parent

/-- Puts a node at the end of the list of a parent and marks everything below the parent; a node
without a parent is itself marked. The link from the node to its parent is there already. -/
def enlist (id : NodeId) : Option NodeId → Work Unit
  | none => markDirty id
  | some parent => do
    update parent fun r => r.enlist id
    markDirty parent

/-- Refuses a parent that is dead, or that is the node itself or lies below it. -/
def checkParent (id : NodeId) : Option NodeId → Work Unit
  | none => return ()
  | some parent => do
    let _ ← read parent
    if ← isUnder id parent then throw (.circularParentage id parent)

/-- Moves a node under a new parent, or makes it a root. -/
def setParent (id : NodeId) (parent : Option NodeId) : Work Unit := do
  let _ ← read id
  checkParent id parent
  unlist id
  update id fun r => { r with parent := parent }
  enlist id parent

/-- Creates a node as the last child of a parent. -/
def createChild (parent : NodeId) (tag : String) : Work NodeId := do
  let _ ← read parent
  let id ← create tag
  setParent id (some parent)
  return id

/-- Destroys a node and everything below it. -/
def destroy (id : NodeId) : Work Unit := do
  let doomed ← descendants id
  unlist id
  modify fun l => (doomed ++ [id]).foldl removed l

/-! ## §5 Edits of the data -/

/-- Makes an edit of one node, and marks it and everything below it if there is something to change;
the answer says whether there was. -/
def revise (id : NodeId) (edit : Node → Option Node) : Work Bool := do
  let r ← read id
  match edit r.data with
  | none => return false
  | some node =>
    update id fun r => { r with data := node }
    markDirty id
    return true

/-- Adds a class or takes it away; the answer says whether it was added. -/
def toggleClass (id : NodeId) (name : String) : Work Bool := do
  let r ← read id
  if r.data.hasClass name then (fun _ => false) <$> revise id fun n => n.removeClass? name
  else revise id fun n => n.addClass? name

/-- Takes the mark of a single node away. -/
def clearDirty (id : NodeId) : Work Unit := update id fun r => { r with data := r.data.clean }

/-! ## §6 Runs of edits -/

/-- Makes an edit. -/
def edit : TreeEdit → Work TreeReply
  | .create tag => TreeReply.created <$> create tag
  | .createChild parent tag => TreeReply.created <$> createChild parent tag
  | .destroy id => (fun _ => TreeReply.done) <$> destroy id
  | .setParent id parent => (fun _ => TreeReply.done) <$> setParent id parent
  | .pushTag id tag => (fun _ => TreeReply.done) <$> revise id fun n => n.pushTag? tag
  | .setAuthorId id value => (fun _ => TreeReply.done) <$> revise id fun n => n.setAuthorId? value
  | .addClass id name => TreeReply.changed <$> revise id fun n => n.addClass? name
  | .removeClass id name => TreeReply.changed <$> revise id fun n => n.removeClass? name
  | .toggleClass id name => TreeReply.changed <$> toggleClass id name
  | .setState id flags on => TreeReply.changed <$> revise id fun n => n.setState? flags on
  | .markDirty id => (fun _ => TreeReply.done) <$> markDirty id
  | .clearDirty id => (fun _ => TreeReply.done) <$> clearDirty id

/-- The tree after an edit, refused or not; none if the edit never ends. -/
def after (l : LinkedTree) (e : TreeEdit) : Option LinkedTree := ((edit e).run.run l).map Prod.snd

/-- The tree after a run of edits; none if one of them never ends. -/
def run (l : LinkedTree) (edits : List TreeEdit) : Option LinkedTree := edits.foldlM after l

end LinkedTree

end StyledScene
