import StyledScene.Box.Paint
import StyledScene.Tree.Node

/-!
# Events

What the library reports of its work. An event has a level of severity, the name of the part that
reports it, a title, and fields with their texts. A few events open a span of work, the others are
single remarks.
-/

namespace StyledScene

/-- How severe an event is. -/
inductive Level where
  | trace
  | debug
  | info
  | warn
deriving DecidableEq, Repr

namespace Level

/-- The rank of a level; more severe ones rank higher. -/
def rank : Level → Nat
  | .trace => 0
  | .debug => 1
  | .info => 2
  | .warn => 3

/-- The name of a level. -/
def name : Level → String
  | .trace => "TRACE"
  | .debug => "DEBUG"
  | .info => "INFO"
  | .warn => "WARN"

end Level

/-- One report. -/
inductive Event where
  | nodeCreated (id : NodeId) (tag : String)
  | nodeMoved (id : NodeId) (before after : Option NodeId)
  | stateChanged (id : NodeId) (before after : NodeState)
  | subtreeMarked (id : NodeId) (count : Nat)
  /-- Opens the destruction of a node, even if it will be refused. -/
  | destruction (id : NodeId)
  | unknownPseudo (name selector : String)
  | noCompound (text : String)
  | declarationCreated (key : String) (weight order : Nat)
  | declarationRemoved (key : String)
  | declarationsCleared
  | fontRegistered (name : String)
  | skinRegistered (name : String)
  | selectorRefused (text : String)
  | styleComputed (matched values : Nat)
  | nodeAdopted (id : NodeId)
  | managerAttached (id : NodeId)
  | nodeRecomputed (id : NodeId) (flags : BoxFlags)
  | unmanagedSkipped (count : Nat)
  | passCompleted (count : Nat)
  /-- Opens a frame pass. -/
  | pass
  /-- Opens the stretch of work that is timed. -/
  | timing (operation : String)

namespace Event

/-- The parts that report. -/
inductive Source where
  | tree
  | selector
  | cascade
  | scene
  | performance
deriving DecidableEq, Repr

/-- The name under which a part reports. -/
def Source.name : Source → String
  | .tree => "trellis_core::tree"
  | .selector => "trellis_style::selector"
  | .cascade => "trellis_style::cascade"
  | .scene => "trellis::scene"
  | .performance => "trellis::perf"

/-- Whether the event opens a span of work. -/
def opensSpan : Event → Bool
  | destruction _ => true
  | pass => true
  | timing _ => true
  | _ => false

/-- The part that reports the event. -/
def source : Event → Source
  | nodeCreated _ _ | nodeMoved _ _ _ | stateChanged _ _ _ | subtreeMarked _ _ | destruction _ => .tree
  | unknownPseudo _ _ | noCompound _ => .selector
  | declarationCreated _ _ _ | declarationRemoved _ | declarationsCleared | fontRegistered _
  | skinRegistered _ | selectorRefused _ | styleComputed _ _ => .cascade
  | nodeAdopted _ | managerAttached _ | nodeRecomputed _ _ | unmanagedSkipped _ | passCompleted _
  | pass => .scene
  | timing _ => .performance

/-- The severity of the event. -/
def level : Event → Level
  | nodeCreated _ _ | nodeMoved _ _ _ | stateChanged _ _ _ | subtreeMarked _ _ | destruction _ => .trace
  | noCompound _ | styleComputed _ _ | nodeRecomputed _ _ => .trace
  | unknownPseudo _ _ | declarationCreated _ _ _ | declarationRemoved _ | declarationsCleared
  | fontRegistered _ | skinRegistered _ => .debug
  | nodeAdopted _ | managerAttached _ | unmanagedSkipped _ | passCompleted _ | pass => .debug
  | timing _ => .info
  | selectorRefused _ => .warn

/-- The title of the event. -/
def title : Event → String
  | nodeCreated _ _ => "created node"
  | nodeMoved _ _ _ => "reparented node"
  | stateChanged _ _ _ => "node state changed"
  | subtreeMarked _ _ => "marked subtree style-dirty"
  | destruction _ => "destroy"
  | unknownPseudo _ _ => "ignoring unknown pseudo-state"
  | noCompound _ => "selector text produced no links"
  | declarationCreated _ _ _ => "created declaration"
  | declarationRemoved _ => "removed declaration"
  | declarationsCleared => "cleared declarations"
  | fontRegistered _ => "registered font"
  | skinRegistered _ => "registered skin"
  | selectorRefused _ => "invalid selector, writes will be ignored"
  | styleComputed _ _ => "computed style"
  | nodeAdopted _ => "adopted node"
  | managerAttached _ => "attached style manager"
  | nodeRecomputed _ _ => "recomputed style"
  | unmanagedSkipped _ => "skipped dirty nodes without a style manager"
  | passCompleted _ => "style pass complete"
  | pass => "update_styles"
  | timing _ => "perf"

/-- The fields of the event with their texts. -/
def fields : Event → List (String × String)
  | nodeCreated id tag => [("id", id.text), ("tag", tag)]
  | nodeMoved id before after => [("id", id.text), ("old_parent", NodeId.optionText before),
      ("new_parent", NodeId.optionText after)]
  | stateChanged id before after =>
    [("id", id.text), ("before", NodeState.text before), ("after", NodeState.text after)]
  | subtreeMarked id count => [("id", id.text), ("count", toString count)]
  | destruction id => [("id", id.text)]
  | unknownPseudo name selector => [("pseudo", name), ("selector", selector)]
  | noCompound text => [("selector", text)]
  | declarationCreated key weight order =>
    [("selector", key), ("weight", toString weight), ("order", toString order)]
  | declarationRemoved key => [("selector", key)]
  | declarationsCleared => []
  | fontRegistered name => [("font", name)]
  | skinRegistered name => [("skin", name)]
  | selectorRefused text => [("selector", text)]
  | styleComputed matched values =>
    [("matched", toString matched), ("values", toString values)]
  | nodeAdopted id => [("node", id.text)]
  | managerAttached id => [("node", id.text)]
  | nodeRecomputed id flags => [("node", id.text), ("flags", BoxFlags.text flags)]
  | unmanagedSkipped count => [("unmanaged", toString count)]
  | passCompleted count => [("recomputed", toString count)]
  | pass => []
  | timing operation => [("operation", operation)]

/-- The events that are at least as severe as a level. -/
def atLeast (least : Level) (events : List Event) : List Event :=
  events.filter fun e => decide (least.rank ≤ e.level.rank)

end Event

end StyledScene
