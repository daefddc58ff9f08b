import StyledScene.Cascade.Manager
import StyledScene.Scene.Kind
import StyledScene.Scene.NodeMap
import StyledScene.Tree.Edit
import StyledScene.Tree.Lineage

/-!
# Scenes

A scene is a node tree whose nodes carry styles, together with the style managers of its host. A node
uses the manager attached to it or to its nearest ancestor that has one. A node that was created on
the tree itself has no styles of its own yet and reads as an empty container.
-/

namespace StyledScene

/-! ## Parts -/

/-- The styles of one node. -/
structure NodeStyles where
  kind : Kind
  /-- The values given to the node itself. -/
  ownValues : Style
  /-- The values that fill what the cascade leaves absent. -/
  defaults : Style
  /-- The style as it was last computed. -/
  computed : Style
  /-- The summary of the style as it was last computed. -/
  flags : BoxFlags

/-- The styles of a new node. -/
def NodeStyles.new (kind : Kind) : NodeStyles :=
  ⟨kind, Style.empty, kind.defaults, Style.empty, FlagSet.empty⟩

/-- Why an operation on a scene was refused. -/
inductive SceneError where
  | tree (e : TreeError)
  /-- The node needs a style, but neither it nor an ancestor has a manager. -/
  | noStyleManager (id : NodeId)
deriving DecidableEq, Repr

/-- The wording shown to a host. -/
def SceneError.message : SceneError → String
  | .tree e => e.message
  | .noStyleManager id => "No style manager reachable from node " ++ id.text

/-- A tree with styles, and the managers that compute them, known by their numbers. -/
structure Scene where
  tree : NodeTree
  styles : NodeMap NodeStyles
  /-- The number of the manager that is attached to a node. -/
  attachments : NodeMap Nat
  managers : List StyleManager

namespace Scene

/-- The scene without nodes and managers. -/
def empty : Scene := ⟨NodeTree.empty, NodeMap.empty, NodeMap.empty, []⟩

/-! ## Reading -/

/-- The styles of a node; those of an empty container where there are none yet. -/
def stylesOf (s : Scene) (id : NodeId) : NodeStyles :=
  (s.styles.get? id).getD (NodeStyles.new Kind.container)

/-- Reads from the styles of a living node. -/
def read (s : Scene) (id : NodeId) {α : Type} (answer : NodeStyles → α) : Except SceneError α :=
  if s.tree.contains id then .ok (answer (s.stylesOf id)) else .error (.tree (.invalidNode id))

/-- The kind of a node. -/
def kind (s : Scene) (id : NodeId) : Except SceneError Kind := s.read id NodeStyles.kind

/-- The values given to the node itself. -/
def ownValues (s : Scene) (id : NodeId) : Except SceneError Style := s.read id NodeStyles.ownValues

/-- The default values of a node. -/
def defaults (s : Scene) (id : NodeId) : Except SceneError Style := s.read id NodeStyles.defaults

/-- The style of a node as it was last computed; it may be out of date. -/
def computedStyle (s : Scene) (id : NodeId) : Except SceneError Style :=
  s.read id NodeStyles.computed

/-- The summary of the style of a node as it was last computed. -/
def boxFlags (s : Scene) (id : NodeId) : Except SceneError BoxFlags := s.read id NodeStyles.flags

/-- The number of the manager attached to a node or to its nearest ancestor that has one. -/
def managerNumber? (s : Scene) (id : NodeId) : Option Nat :=
  (s.attachments.get? id).or
    (((s.tree.path? id).getD []).findSome? fun n => s.attachments.get? n.id)

/-- The manager that a node uses. -/
def manager? (s : Scene) (id : NodeId) : Option StyleManager :=
  (s.managerNumber? id).bind fun number => s.managers[number]?

/-! ## Nodes -/

/-- The scene with another tree. -/
def withTree (s : Scene) (tree : NodeTree) : Scene := { s with tree := tree }

/-- Turns a result of the tree into one of the scene. -/
def liftTree {α : Type} : Except TreeError α → Except SceneError α
  | .ok value => .ok value
  | .error e => .error (.tree e)

/-- Creates a root of a kind. -/
def createNode (s : Scene) (kind : Kind) : NodeId × Scene :=
  let (id, tree) := s.tree.create kind.name
  (id, { s with tree := tree, styles := s.styles.insert id (NodeStyles.new kind) })

/-- Creates a node of a kind as the last child of a parent. -/
def createChild (s : Scene) (parent : NodeId) (kind : Kind) : Except SceneError (NodeId × Scene) :=
  liftTree <| (s.tree.createChild parent kind.name).map fun (id, tree) =>
    (id, { s with tree := tree, styles := s.styles.insert id (NodeStyles.new kind) })

/-- Forgets the styles and attachments of dead nodes. -/
def forgetDead (s : Scene) : Scene :=
  { s with
    styles := s.styles.retain s.tree.contains
    attachments := s.attachments.retain s.tree.contains }

/-- Destroys a node and everything below it. -/
def destroy (s : Scene) (id : NodeId) : Except SceneError Scene :=
  liftTree <| (s.tree.destroy id).map fun tree => (s.withTree tree).forgetDead

/-! ## Managers -/

/-- Adds a manager; its number is the number of managers before. -/
def addManager (s : Scene) (config : ManagerConfig) : Scene :=
  { s with managers := s.managers ++ [StyleManager.new config] }

/-- Changes a manager. -/
def modifyManager (s : Scene) (number : Nat) (f : StyleManager → StyleManager) : Scene :=
  { s with managers := s.managers.modify number f }

/-- Attaches a manager to a node; everything below the node is marked. -/
def attach (s : Scene) (id : NodeId) (number : Nat) : Except SceneError Scene :=
  liftTree <| (s.tree.markDirty id).map fun tree =>
    { s with tree := tree, attachments := s.attachments.insert id number }

/-- Detaches the manager that is attached to the node itself, and names it. -/
def detach (s : Scene) (id : NodeId) : Except SceneError (Option Nat × Scene) :=
  liftTree <| (s.tree.markDirty id).map fun tree =>
    (s.attachments.get? id, { s with tree := tree, attachments := s.attachments.erase id })

/-! ## Values of single nodes -/

/-- Changes the styles of a living node; everything below the node is marked. -/
def revise (s : Scene) (id : NodeId) (f : NodeStyles → NodeStyles) : Except SceneError Scene :=
  liftTree <| (s.tree.markDirty id).map fun tree =>
    { s with tree := tree, styles := s.styles.insert id (f (s.stylesOf id)) }

/-- Changes the values given to the node itself. -/
def modifyOwn (s : Scene) (id : NodeId) (f : Style → Style) : Except SceneError Scene :=
  s.revise id fun styles => { styles with ownValues := f styles.ownValues }

/-- Changes the default values of a node. -/
def modifyDefaults (s : Scene) (id : NodeId) (f : Style → Style) : Except SceneError Scene :=
  s.revise id fun styles => { styles with defaults := f styles.defaults }

end Scene

end StyledScene
