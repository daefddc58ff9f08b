import StyledScene.Journal.Cascade
import StyledScene.Journal.Tree
import StyledScene.Scene.Action

/-!
# Events of a scene

What an action on a scene reports. The computations of a pass are told from the scene that the pass
leaves: no node is computed twice, so each computed style is still there.
-/

namespace StyledScene

namespace Scene

/-- The reports of giving styles to the nodes that have none. -/
def adoptionEvents (s : Scene) : List Event := s.forgetDead.orphans.map .nodeAdopted

/-- The reports of computing a style by a manager, told from the scene afterwards. -/
def recomputeEvents (after : Scene) (m : StyleManager) (id : NodeId) : List Event :=
  let styles := after.stylesOf id
  [m.computeEvent (after.tree.lineage id) styles.computed, .nodeRecomputed id styles.flags]

/-- The reports of bringing one node up to date. -/
def ensureEvents (s : Scene) (id : NodeId) : List Event :=
  let synced := s.sync
  let (result, after) := s.ensureStyle id
  s.adoptionEvents ++
    match result with
    | .error _ => []
    | .ok _ => (synced.stalePath id).flatMap fun n =>
        match synced.manager? n.id with
        | some m => after.recomputeEvents m n.id
        | none => []

/-- The reports of a frame pass. -/
def updateEvents (s : Scene) : List Event :=
  let synced := s.sync
  let due := synced.agenda synced.visible
  let (result, after) := s.updateStyles
  let unmanaged := (synced.visible.filter fun v => v.dirty && v.manager.isNone).length
  [.pass, .timing "update_styles"] ++ s.adoptionEvents ++
    due.flatMap (fun entry => after.recomputeEvents entry.2 entry.1) ++
    match result with
    | .error _ => []
    | .ok count =>
      (if unmanaged = 0 then [] else [.unmanagedSkipped unmanaged]) ++ [.passCompleted count]

/-- The reports of marking a node, if it is alive. -/
def markEvents (s : Scene) (id : NodeId) : List Event := s.tree.editEvents (.markDirty id)

/-- The reports of an action. -/
def events (s : Scene) : SceneAction → List Event
  | .editTree e => s.tree.editEvents e
  | .createNode kind => s.tree.editEvents (.create kind.name)
  | .createChild parent kind => s.tree.editEvents (.createChild parent kind.name)
  | .destroy id => s.tree.editEvents (.destroy id)
  | .addManager _ => []
  | .editManager number e => (s.managers[number]?.map fun m => m.editEvents e).getD []
  | .attach id _ =>
    s.markEvents id ++ if s.tree.contains id then [.managerAttached id] else []
  | .detach id => s.markEvents id
  | .editOwn id _ => s.markEvents id
  | .editDefaults id _ => s.markEvents id
  | .ensureStyle id => s.ensureEvents id
  | .updateStyles => s.updateEvents
  | .paint id _ => s.ensureEvents id

end Scene

end StyledScene
