import StyledScene.Scene.FramePass

/-!
# Actions

Everything that a host can do to a scene, as data: an action is performed on a scene and gives an
answer, or a reason for its refusal, together with the scene that follows.
-/

namespace StyledScene

/-- One thing that a host does. -/
inductive SceneAction where
  /-- Edits the tree without the knowledge of the scene. -/
  | editTree (e : TreeEdit)
  | createNode (kind : Kind)
  | createChild (parent : NodeId) (kind : Kind)
  | destroy (id : NodeId)
  | addManager (config : ManagerConfig)
  | editManager (number : Nat) (e : ManagerEdit)
  | attach (id : NodeId) (number : Nat)
  | detach (id : NodeId)
  /-- Edits the values given to the node itself. -/
  | editOwn (id : NodeId) (edits : List Edit)
  /-- Edits the default values of a node. -/
  | editDefaults (id : NodeId) (edits : List Edit)
  | ensureStyle (id : NodeId)
  | updateStyles
  | paint (id : NodeId) (rect : Rect)

/-- What an action answers. -/
inductive SceneReply where
  | done
  | created (id : NodeId)
  | changed (yes : Bool)
  | manager (number : Option Nat)
  | style (s : Style)
  | count (n : Nat)
  | calls (calls : List PaintCall)

namespace Scene

/-- The answer of the scene to an answer of its tree. -/
def replyOf : TreeReply → SceneReply
  | .done => .done
  | .created id => .created id
  | .changed yes => .changed yes

/-- Takes the outcome of an operation that leaves the scene alone when it is refused. -/
def outcome (s : Scene) : Except SceneError (SceneReply × Scene) → Except SceneError SceneReply × Scene
  | .ok (reply, after) => (.ok reply, after)
  | .error e => (.error e, s)

/-- Performs an action. -/
def perform (s : Scene) : SceneAction → Except SceneError SceneReply × Scene
  | .editTree e => s.outcome <|
    (liftTree (s.tree.edit e)).map fun (reply, tree) => (replyOf reply, s.withTree tree)
  | .createNode kind =>
    let (id, after) := s.createNode kind
    (.ok (.created id), after)
  | .createChild parent kind => s.outcome <|
    (s.createChild parent kind).map fun (id, after) => (.created id, after)
  | .destroy id => s.outcome <| (s.destroy id).map fun after => (.done, after)
  | .addManager config => (.ok (.manager (some s.managers.length)), s.addManager config)
  | .editManager number e => (.ok .done, s.modifyManager number fun m => m.after e)
  | .attach id number => s.outcome <| (s.attach id number).map fun after => (.done, after)
  | .detach id => s.outcome <| (s.detach id).map fun (number, after) => (.manager number, after)
  | .editOwn id edits => s.outcome <|
    (s.modifyOwn id fun style => edits.foldl Edit.apply style).map fun after => (.done, after)
  | .editDefaults id edits => s.outcome <|
    (s.modifyDefaults id fun style => edits.foldl Edit.apply style).map fun after => (.done, after)
  | .ensureStyle id =>
    let (result, after) := s.ensureStyle id
    (result.map .style, after)
  | .updateStyles =>
    let (result, after) := s.updateStyles
    (result.map .count, after)
  | .paint id rect =>
    let (result, after) := s.paint id rect
    (result.map .calls, after)

/-- The scene after an action. -/
def after (s : Scene) (a : SceneAction) : Scene := (s.perform a).2

/-- The scene after a run of actions. -/
def run (s : Scene) (actions : List SceneAction) : Scene := actions.foldl after s

/-- The scenes that some run of actions leads to. -/
def Reachable (s : Scene) : Prop := ∃ actions, s = Scene.empty.run actions

end Scene

end StyledScene
