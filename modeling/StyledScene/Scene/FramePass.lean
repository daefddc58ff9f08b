import StyledScene.Scene.Basic

/-!
# The frame pass

Once per frame the styles of the visible nodes are brought up to date. A node is computed anew when it
is marked or when its manager is not valid, parents before children; each manager that is met is
valid afterwards. Nodes without a manager are left as they are. A single node can be brought up to
date at any time, together with its ancestors.
-/

namespace StyledScene

namespace Scene

/-! ## Adoption -/

/-- The living nodes without styles, in slot order. -/
def orphans (s : Scene) : List NodeId := s.tree.ids.filter fun id => !s.styles.contains id

/-- Forgets dead nodes and gives every living node styles; a node from the tree itself becomes an
empty container. -/
def sync (s : Scene) : Scene :=
  let kept := s.forgetDead
  { kept with
    styles := kept.orphans.foldl (fun m id => m.insert id (NodeStyles.new Kind.container))
      kept.styles }

/-! ## One node -/

/-- What the style of a node depends on besides the node and the declarations. -/
def contextOf (s : Scene) (id : NodeId) : StyleContext :=
  let own := s.stylesOf id
  { parent := (s.tree.parentId? id).bind fun p => (s.styles.get? p).map NodeStyles.computed
    ownValues := some own.ownValues
    defaults := some own.defaults
    inherits := own.kind.inherits }

/-- The styles of a node after its style is computed anew by a manager. -/
def freshStyles (s : Scene) (m : StyleManager) (id : NodeId) : NodeStyles :=
  let own := s.stylesOf id
  let computed := m.computeStyle (s.tree.lineage id) (s.contextOf id)
  { own with computed := computed, flags := own.kind.summarize computed }

/-- Computes the style of a node anew and takes its mark away. -/
def recompute (s : Scene) (m : StyleManager) (id : NodeId) : Scene :=
  { s with
    tree := s.tree.cleaned id
    styles := s.styles.insert id (s.freshStyles m id) }

/-! ## One path -/

/-- Whether the style of a node may be out of date; without a manager it always may. -/
def isStale (s : Scene) (n : Node) : Bool := n.dirty || !(s.manager? n.id).any StyleManager.valid

/-- Brings nodes up to date one after the other, up to the first that has no manager. -/
def refresh (s : Scene) : List Node → Except SceneError Unit × Scene
  | [] => (.ok (), s)
  | n :: rest =>
    match s.manager? n.id with
    -- the nodes before this one stay computed
    | none => (.error (.noStyleManager n.id), s)
    | some m => (s.recompute m n.id).refresh rest

/-- The stale nodes from the root down to a node. -/
def stalePath (s : Scene) (id : NodeId) : List Node :=
  ((s.tree.path? id).getD []).reverse.filter s.isStale

/-- Brings a node and its ancestors up to date, and answers the style of the node. -/
def ensureStyle (s : Scene) (id : NodeId) : Except SceneError Style × Scene :=
  let synced := s.sync
  if synced.tree.contains id then
    -- the path is settled beforehand: computing a node makes no other node stale
    match synced.refresh (synced.stalePath id) with
    | (.ok (), after) => (.ok (after.stylesOf id).computed, after)
    | (.error e, after) => (.error e, after)
  else (.error (.tree (.invalidNode id)), synced)

/-! ## All visible nodes -/

/-- A visible node as the pass meets it. -/
structure Visit where
  id : NodeId
  dirty : Bool
  /-- The number of the manager that the node uses. -/
  manager : Option Nat
deriving DecidableEq, Repr

/-- The visible nodes, parents before children, with the managers that they use. -/
def visits (attachments : NodeMap Nat) (inherited : Option Nat) : Forest → List Visit
  | .nil => []
  | .tree n children rest =>
    let manager := (attachments.get? n.id).or inherited
    -- a hidden node hides everything below it
    (if n.isVisible then ⟨n.id, n.dirty, manager⟩ :: visits attachments manager children else []) ++
      visits attachments inherited rest

/-- The manager by which a visited node is to be computed anew, if it is to be at all. -/
def due? (s : Scene) (v : Visit) : Option StyleManager :=
  (v.manager.bind fun number => s.managers[number]?).filter fun m => v.dirty || !m.valid

/-- The visited nodes that are to be computed anew, each with its manager. -/
def agenda (s : Scene) (found : List Visit) : List (NodeId × StyleManager) :=
  found.filterMap fun v => (s.due? v).map fun m => (v.id, m)

/-- The visible nodes of a scene. -/
def visible (s : Scene) : List Visit := visits s.attachments none s.tree.forest

/-- Computes the style of a living node anew. -/
def tryRecompute (s : Scene) (m : StyleManager) (id : NodeId) : Except SceneError Scene :=
  if s.tree.contains id then .ok (s.recompute m id) else .error (.tree (.invalidNode id))

/-- A frame pass under way. -/
structure Pass where
  scene : Scene
  /-- The managers that take part, each with whether it was valid before. -/
  claimed : List (Nat × Bool)
  /-- The nodes that were computed anew, in this order. -/
  done : List NodeId

namespace Pass

/-- A pass that has not met any node yet. -/
def start (s : Scene) : Pass := ⟨s, [], []⟩

/-- Lets a manager take part. Its first claim makes it valid; the answer is whether it was valid
before that. -/
def claim (p : Pass) (number : Nat) (m : StyleManager) : Bool × Pass :=
  match p.claimed.find? fun entry => entry.1 == number with
  | some entry => (entry.2, p)
  | none =>
    -- it becomes valid before any of its nodes is computed
    (m.swapValid.1,
      { p with
        scene := p.scene.modifyManager number fun m => m.swapValid.2
        claimed := p.claimed ++ [(number, m.swapValid.1)] })

/-- Meets a node: claims its manager, and computes the node anew if it is marked or if the manager was
not valid when the pass began. -/
def visit (p : Pass) (v : Visit) : Except SceneError Unit × Pass :=
  match v.manager.bind fun number => (p.scene.managers[number]?).map fun m => (number, m) with
  | none => (.ok (), p)
  | some (number, m) =>
    let (wasValid, claimed) := p.claim number m
    if v.dirty || !wasValid then
      match claimed.scene.tryRecompute m v.id with
      | .ok scene => (.ok (), { claimed with scene := scene, done := claimed.done ++ [v.id] })
      | .error e => (.error e, claimed)
    else (.ok (), claimed)

/-- Meets one node after the other, up to the first failure. -/
def visitAll (p : Pass) : List Visit → Except SceneError Unit × Pass
  | [] => (.ok (), p)
  | v :: rest =>
    match p.visit v with
    | (.ok (), next) => next.visitAll rest
    | (.error e, next) => (.error e, next)

/-- The scene that a failed pass leaves: a manager that was not valid before has to be served again. -/
def abandon (p : Pass) : Scene :=
  p.claimed.foldl (fun s entry =>
    if entry.2 then s else s.modifyManager entry.1 StyleManager.invalidate) p.scene

end Pass

/-- The pass over all visible nodes. -/
def framePass (s : Scene) : Except SceneError Unit × Pass :=
  (Pass.start s.sync).visitAll s.sync.visible

/-- Brings every visible node up to date, and answers how many were computed anew. -/
def updateStyles (s : Scene) : Except SceneError Nat × Scene :=
  match s.framePass with
  | (.ok (), p) => (.ok p.done.length, p.scene)
  | (.error e, p) => (.error e, p.abandon)

/-! ## Painting -/

/-- Brings a node up to date and paints its box with the skin that its style names. -/
def paint (s : Scene) (id : NodeId) (rect : Rect) : Except SceneError (List PaintCall) × Scene :=
  match s.ensureStyle id with
  | (.error e, after) => (.error e, after)
  | (.ok style, after) =>
    match after.manager? id with
    | none => (.error (.noStyleManager id), after)
    | some m => (.ok ((m.skinFor? style).getD boxSkin rect style), after)

end Scene

end StyledScene
