import StyledScene.Proofs.Tree.Linked
import StyledScene.Scene.Action

/-!
# Linked scenes

A scene over a linked tree, whose operations are written out statement by statement. A statement can be
refused after earlier ones have changed the scene, and what they have changed then stays changed: a mark
that was set, styles that were computed, a call to the canvas. Nothing here takes a change back, so that a
refused operation leaves no trace only if it is refused before it changes anything.

`LinkedScene.work` does what `Scene.perform` does, for every action.
-/

namespace StyledScene

/-! ## §1 What selectors see -/

namespace LinkedTree

/-- The index of a recorded node among its siblings and their number; none for roots. -/
def siblingPlace? (l : LinkedTree) (id : NodeId) (r : Record) : Option (Nat × Nat) :=
  r.parent.bind fun parent => (l.record? parent).bind fun above =>
    if id ∈ above.children then some (above.children.idxOf id, above.children.length) else none

/-- What a selector sees of a recorded node that has `depth` ancestors. -/
def view (l : LinkedTree) (id : NodeId) (r : Record) (depth : Nat) : NodeView where
  tags := r.data.tags
  id := r.data.authorId
  autoId := r.data.autoId
  classes := r.data.classes
  hovered := r.data.state.contains .hovered
  focused := r.data.state.contains .focused
  active := r.data.state.contains .active
  disabled := r.data.state.contains .disabled
  childCount := r.children.length
  sibling := l.siblingPlace? id r
  depth := depth

/-- What a selector sees of the nodes found so far, then of the given one, which has `depth` ancestors,
and of those. A dead node ends the climb. -/
def viewUp (found : Lineage) (depth : Nat) (current : Option NodeId) : Work Lineage := do
  match current with
  | none => return found
  | some id =>
    let l ← get
    match l.record? id with
    | none => return found
    | some r =>
      by apply viewUp; exact found ++ [l.view id r depth]; exact depth - 1; exact r.parent
partial_fixpoint

/-- What a selector sees of a node and its ancestors. -/
def lineage (id : NodeId) : Work Lineage := do
  let _ ← read id
  let count ← depth id
  viewUp [] count (some id)

/-- The parent of a node; roots have none. -/
def parent (id : NodeId) : Work (Option NodeId) := Record.parent <$> read id

/-- Whether a node needs a new style. -/
def isDirty (id : NodeId) : Work Bool := (fun r => r.data.dirty) <$> read id

end LinkedTree

/-- A linked tree with the styles of its nodes, the numbers of the managers that are attached to them, and
the managers. -/
structure LinkedScene where
  tree : LinkedTree
  style? : NodeId → Option NodeStyles
  attached? : NodeId → Option Nat
  managers : List StyleManager
  /-- The calls that were made to paint boxes, in order. -/
  canvas : List PaintCall

namespace LinkedScene

/-! ## §2 Tables -/

/-- The table with an entry for a node; whatever the slot held before is dropped. -/
def entered {α : Type} (table : NodeId → Option α) (id : NodeId) (value : α) : NodeId → Option α :=
  fun k => if k = id then some value else if k.index = id.index then none else table k

/-- The table without an entry for a node. -/
def erased {α : Type} (table : NodeId → Option α) (id : NodeId) : NodeId → Option α :=
  fun k => if k = id then none else table k

/-- Whether a node has a record. -/
def alive (l : LinkedScene) (id : NodeId) : Bool := (l.tree.record? id).isSome

/-- The scene with styles for a node. -/
def styled (l : LinkedScene) (id : NodeId) (styles : NodeStyles) : LinkedScene :=
  { l with style? := entered l.style? id styles }

/-- The scene that has forgotten the styles and attachments of dead nodes. -/
def forgetful (l : LinkedScene) : LinkedScene :=
  { l with
    style? := fun id => if l.alive id then l.style? id else none
    attached? := fun id => if l.alive id then l.attached? id else none }

/-- The scene with styles for every living node: one that had none becomes an empty container. -/
def adopting (l : LinkedScene) : LinkedScene :=
  { l with
    style? := fun id =>
      if l.alive id then some ((l.style? id).getD (NodeStyles.new Kind.container)) else l.style? id }

/-! ## §3 Work on a linked scene -/

/-- Work on a linked scene. Without a result it never ends; if it is refused, what was done up to then
stays done. -/
abbrev Work (α : Type) := ExceptT SceneError (StateT LinkedScene Option) α

/-- Work on the tree of the scene. -/
def onTree {α : Type} (x : LinkedTree.Work α) : Work α := fun l =>
  (x.run.run l.tree).map fun (answer, tree) => (Scene.liftTree answer, { l with tree := tree })

/-- The styles of a node; those of an empty container where there are none yet. A dead node is refused. -/
def read (id : NodeId) : Work NodeStyles := do
  let l ← get
  if l.alive id then return (l.style? id).getD (NodeStyles.new Kind.container)
  else throw (.tree (.invalidNode id))

/-- Changes the styles of a node, which is adopted first if it has none yet. A dead node is refused. -/
def update (id : NodeId) (f : NodeStyles → NodeStyles) : Work Unit := do
  let l ← get
  if l.alive id then
    if (l.style? id).isNone then set (l.styled id (NodeStyles.new Kind.container))
    match (← get).style? id with
    | some styles => modify fun l => l.styled id (f styles)
    | none => throw (.tree (.invalidNode id))
  else throw (.tree (.invalidNode id))

/-- Forgets dead nodes and adopts the living ones that have no styles yet. -/
def sync : Work Unit := do
  modify forgetful
  modify adopting

/-- The number of the manager that is attached to the given node or to the nearest one above it. A dead
node ends the climb. -/
def climbNumber (current : Option NodeId) : Work (Option Nat) := do
  match current with
  | none => return none
  | some id =>
    let l ← get
    match l.attached? id with
    | some number => return some number
    | none => by apply climbNumber; exact (l.tree.record? id).bind Record.parent
partial_fixpoint

/-- The manager that a node uses. -/
def styleManager (id : NodeId) : Work (Option StyleManager) := do
  let number ← climbNumber (some id)
  let l ← get
  return number.bind fun number => l.managers[number]?

/-! ## §4 Styles on demand -/

/-- Computes the style of a node anew and takes its mark away. -/
def recompute (m : StyleManager) (id : NodeId) : Work Unit := do
  let own ← read id
  let lineage ← onTree (LinkedTree.lineage id)
  let parent ← onTree (LinkedTree.parent id)
  let l ← get
  let computed := m.computeStyle lineage
    { parent := (parent.bind l.style?).map NodeStyles.computed
      ownValues := some own.ownValues
      defaults := some own.defaults
      inherits := own.kind.inherits }
  update id fun styles =>
    { styles with computed := computed, flags := own.kind.summarize computed }
  onTree (LinkedTree.clearDirty id)

/-- The stale nodes found so far, then those from the given one up to a root, each with the manager that
it uses. -/
def climbStale (found : List (NodeId × Option StyleManager)) (current : Option NodeId) :
    Work (List (NodeId × Option StyleManager)) := do
  match current with
  | none => return found
  | some id =>
    let m ← styleManager id
    let dirty ← onTree (LinkedTree.isDirty id)
    let parent ← onTree (LinkedTree.parent id)
    by
      apply climbStale
      · exact if dirty || !m.any StyleManager.valid then found ++ [(id, m)] else found
      · exact parent
partial_fixpoint

/-- Computes nodes anew, one after the other; the first that has no manager is refused. -/
def recomputeEach : List (NodeId × Option StyleManager) → Work Unit
  | [] => return ()
  | (id, none) :: _ => throw (.noStyleManager id)
  | (id, some m) :: rest => do
    recompute m id
    recomputeEach rest

/-- Brings a node and its ancestors up to date, and answers the style of the node. -/
def ensureStyle (id : NodeId) : Work Style := do
  sync
  let stale ← climbStale [] (some id)
  -- the root was found last
  recomputeEach stale.reverse
  let styles ← read id
  return styles.computed

/-- Brings a node up to date and paints its box. -/
def paint (id : NodeId) (rect : Rect) : Work (List PaintCall) := do
  let _ ← ensureStyle id
  match ← styleManager id with
  | none => throw (.noStyleManager id)
  | some m =>
    let styles ← read id
    let calls := (m.skinFor? styles.computed).getD boxSkin rect styles.computed
    modify fun l => { l with canvas := l.canvas ++ calls }
    return calls

/-! ## §5 The frame pass -/

/-- The scene with a manager changed. -/
def managing (l : LinkedScene) (number : Nat) (f : StyleManager → StyleManager) : LinkedScene :=
  { l with managers := l.managers.modify number f }

end LinkedScene

/-- A frame pass under way over a linked scene. -/
structure LinkedPass where
  scene : LinkedScene
  /-- The managers that take part, each with whether it was valid before. -/
  claimed : List (Nat × Bool)

namespace LinkedPass

/-- Work of a pass. If it is refused, the claims made up to then are known. -/
abbrev Work (α : Type) := ExceptT SceneError (StateT LinkedPass Option) α

/-- Work on the scene of a pass. -/
def onScene {α : Type} (x : LinkedScene.Work α) : Work α := fun p =>
  (x.run.run p.scene).map fun (answer, scene) => (answer, { p with scene := scene })

/-- Lets a manager take part; the answer is whether it was valid before the pass. -/
def claim (number : Nat) (m : StyleManager) : Work Bool := do
  let p ← get
  match p.claimed.find? fun entry => entry.1 == number with
  | some entry => return entry.2
  | none =>
    let (wasValid, _) := m.swapValid
    set { p with
      scene := p.scene.managing number fun m => m.swapValid.2
      claimed := p.claimed ++ [(number, wasValid)] : LinkedPass }
    return wasValid

/-- Serves a visible node that uses a manager, or none, and counts on if the node was computed anew. -/
def serve (computed : Nat) (id : NodeId) (dirty : Bool) (manager : Option Nat) : Work Nat := do
  let p ← get
  match manager.bind fun number => (p.scene.managers[number]?).map fun m => (number, m) with
  | none => return computed
  | some (number, m) =>
    let wasValid ← claim number m
    if dirty || !wasValid then
      onScene (LinkedScene.recompute m id)
      return computed + 1
    else return computed

/-- Serves every visible node on the stack, each with the manager that its parent uses, and the visible
nodes below; the answer goes on from the count of those computed already. -/
def serveAll (computed : Nat) (stack : List (NodeId × Option Nat)) : Work Nat := do
  match stack with
  | [] => return computed
  | (id, inherited) :: rest =>
    let r ← onScene (LinkedScene.onTree (LinkedTree.read id))
    if r.data.isVisible then
      let p ← get
      let manager := (p.scene.attached? id).or inherited
      let count ← serve computed id r.data.dirty manager
      -- the first child is on top of the stack
      by
        apply serveAll
        · exact count
        · exact r.children.map (fun child => (child, manager)) ++ rest
    else
      -- a hidden node hides everything below it
      by apply serveAll; exact computed; exact rest
partial_fixpoint

/-- Serves the visible nodes of all trees, where `ids` are the living nodes, tree by tree; the answer counts
those that were computed anew. -/
def recomputeStale (ids : List NodeId) : Work Nat := do
  let p ← get
  (p.scene.tree.rootsAmong ids).foldlM (fun computed root => serveAll computed [(root, none)]) 0

/-- The scene that a refused pass leaves: a manager that was not valid before has to be served again. -/
def abandoned (p : LinkedPass) : LinkedScene :=
  p.claimed.foldl (fun l entry =>
    if entry.2 then l else l.managing entry.1 StyleManager.invalidate) p.scene

end LinkedPass

namespace LinkedScene

/-- Carries out a pass, from its first claim to its end or its refusal. -/
def carryOut {α : Type} (x : LinkedPass.Work α) : Work α := fun l =>
  (x.run.run ⟨l, []⟩).map fun
    | (.ok a, p) => (.ok a, p.scene)
    | (.error e, p) => (.error e, p.abandoned)

/-- Brings every visible node up to date, where `ids` are the living nodes, and answers how many were
computed anew. -/
def updateStyles (ids : List NodeId) : Work Nat := do
  sync
  carryOut (LinkedPass.recomputeStale ids)

/-! ## §6 Nodes, managers, values -/

/-- Creates a root of a kind. -/
def createNode (kind : Kind) : Work NodeId := do
  let id ← onTree (LinkedTree.create kind.name)
  modify fun l => l.styled id (NodeStyles.new kind)
  return id

/-- Creates a node of a kind as the last child of a parent. -/
def createChild (parent : NodeId) (kind : Kind) : Work NodeId := do
  let id ← onTree (LinkedTree.createChild parent kind.name)
  modify fun l => l.styled id (NodeStyles.new kind)
  return id

/-- Destroys a node and everything below it. -/
def destroy (id : NodeId) : Work Unit := do
  onTree (LinkedTree.destroy id)
  modify forgetful

/-- Adds a manager, and answers its number. -/
def addManager (config : ManagerConfig) : Work Nat := do
  let l ← get
  set { l with managers := l.managers ++ [StyleManager.new config] }
  return l.managers.length

/-- Attaches a manager to a node. -/
def attach (id : NodeId) (number : Nat) : Work Unit := do
  onTree (LinkedTree.markDirty id)
  modify fun l => { l with attached? := entered l.attached? id number }

/-- Detaches the manager that is attached to the node itself, and names it. -/
def detach (id : NodeId) : Work (Option Nat) := do
  onTree (LinkedTree.markDirty id)
  let l ← get
  set { l with attached? := erased l.attached? id }
  return l.attached? id

/-- Changes what the host has given to a node, and marks everything below the node. -/
def revise (id : NodeId) (f : NodeStyles → NodeStyles) : Work Unit := do
  -- the mark is set before the styles are looked for
  onTree (LinkedTree.markDirty id)
  update id f

/-- The work of an action, statement by statement, where `ids` are the living nodes in slot order: the frame
pass goes through the slots to find the roots. -/
def work (ids : List NodeId) : SceneAction → Work SceneReply
  | .editTree e => Scene.replyOf <$> onTree (LinkedTree.edit e)
  | .createNode kind => SceneReply.created <$> createNode kind
  | .createChild parent kind => SceneReply.created <$> createChild parent kind
  | .destroy id => (fun _ => SceneReply.done) <$> destroy id
  | .addManager config => (fun number => SceneReply.manager (some number)) <$> addManager config
  | .editManager number e => do
    modify fun l => l.managing number fun m => m.after e
    return .done
  | .attach id number => (fun _ => SceneReply.done) <$> attach id number
  | .detach id => SceneReply.manager <$> detach id
  | .editOwn id edits => (fun _ => SceneReply.done) <$> revise id fun styles =>
    { styles with ownValues := edits.foldl Edit.apply styles.ownValues }
  | .editDefaults id edits => (fun _ => SceneReply.done) <$> revise id fun styles =>
    { styles with defaults := edits.foldl Edit.apply styles.defaults }
  | .ensureStyle id => SceneReply.style <$> ensureStyle id
  | .updateStyles => SceneReply.count <$> updateStyles ids
  | .paint id rect => SceneReply.calls <$> paint id rect

end LinkedScene

end StyledScene
