import StyledScene.FlagSet
import StyledScene.Text.Lowercase
import StyledScene.Tree.NodeId

/-!
# Nodes

What a tree stores for one node: the tags, ids, classes and state that selectors look at, and whether
its style is out of date. All names are kept in lower case. An edit of a node either changes it or
says that there is nothing to change.
-/

namespace StyledScene

/-! ## State -/

/-- The states of a node that are not its rest state: at rest it is enabled, visible and untouched. -/
inductive NodeFlag where
  | hovered
  | focused
  | active
  | disabled
  | hidden
deriving DecidableEq, Repr

namespace NodeFlag

instance : FlagType NodeFlag where
  all := [.hovered, .focused, .active, .disabled, .hidden]
  nodup := by decide
  mem_all f := by cases f <;> decide

/-- The name of the state in diagnostics. -/
def label : NodeFlag → String
  | .hovered => "HOVERED"
  | .focused => "FOCUSED"
  | .active => "ACTIVE"
  | .disabled => "DISABLED"
  | .hidden => "HIDDEN"

end NodeFlag

/-- The state of a node. -/
abbrev NodeState := FlagSet NodeFlag

/-- The diagnostic text of a state. -/
def NodeState.text (s : NodeState) : String := FlagSet.diagnostic "NodeState" NodeFlag.label s

/-! ## Nodes -/

/-- The data of one node, apart from its place in the tree. -/
structure Node where
  id : NodeId
  /-- The tags, most general first; every node has at least the one it was created with. -/
  tags : List String
  /-- The id that an author gave. -/
  authorId : Option String
  /-- The id that the tree gave when the node was created. -/
  autoId : String
  /-- The classes without repetition, in the order in which they were added. -/
  classes : List String
  state : NodeState
  /-- Whether the computed style may be out of date. -/
  dirty : Bool
deriving DecidableEq

namespace Node

/-- A new node: the `serial`-th of its tree, with one tag, at rest, and in need of a style. -/
def new (id : NodeId) (tag : String) (serial : Nat) : Node where
  id := id
  tags := [Text.lowercase tag]
  authorId := none
  autoId := "node-" ++ toString serial
  classes := []
  state := FlagSet.empty
  dirty := true

/-- The innermost tag. -/
def tag (n : Node) : String := (n.tags.getLast?).getD ""

/-- Whether the node itself is shown, whatever its ancestors are. -/
def isVisible (n : Node) : Bool := !n.state.contains .hidden

/-- Whether the node itself takes part in interaction. -/
def isEnabled (n : Node) : Bool := !n.state.contains .disabled

/-- Whether the node has a class, in any case. -/
def hasClass (n : Node) (name : String) : Bool := n.classes.contains (Text.lowercase name)

/-- The node, in need of a new style. -/
def mark (n : Node) : Node := { n with dirty := true }

/-- The node, with its style up to date. -/
def clean (n : Node) : Node := { n with dirty := false }

/-! ## Edits -/

/-- Adds a more special tag; none if the node has it. -/
def pushTag? (n : Node) (tag : String) : Option Node :=
  let tag := Text.lowercase tag
  if n.tags.contains tag then none else some { n with tags := n.tags ++ [tag] }

/-- Replaces the author's id; none if that is what it was. -/
def setAuthorId? (n : Node) (value : Option String) : Option Node :=
  let value := value.map Text.lowercase
  if n.authorId = value then none else some { n with authorId := value }

/-- Adds a class at the end; none if the node has it. -/
def addClass? (n : Node) (name : String) : Option Node :=
  if n.hasClass name then none else some { n with classes := n.classes ++ [Text.lowercase name] }

/-- Takes a class away; none if the node lacks it. -/
def removeClass? (n : Node) (name : String) : Option Node :=
  if n.hasClass name then some { n with classes := n.classes.erase (Text.lowercase name) } else none

/-- Turns states on or off; none if they all were. -/
def setState? (n : Node) (flags : NodeState) (on : Bool) : Option Node :=
  let state := n.state.turn flags on
  if state = n.state then none else some { n with state := state }

end Node

end StyledScene
