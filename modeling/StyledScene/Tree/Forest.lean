import StyledScene.Tree.Node

/-!
# Forests

An ordered forest: either nothing, or a first node with the forest of its children and the forest of
the trees beside it. The shape itself rules out cycles and shared nodes, and every walk over the
forest is a structural recursion.
-/

namespace StyledScene

/-- An ordered forest of nodes. -/
inductive Forest where
  | nil
  | tree (node : Node) (children : Forest) (rest : Forest)
deriving DecidableEq

namespace Forest

/-! ## Views -/

/-- All nodes, parents before children and in sibling order. -/
def nodes : Forest → List Node
  | nil => []
  | tree n children rest => n :: (children.nodes ++ rest.nodes)

/-- The roots of the trees. -/
def roots : Forest → List Node
  | nil => []
  | tree n _ rest => n :: rest.roots

/-- The ids of all nodes, parents before children. -/
def ids (f : Forest) : List NodeId := f.nodes.map Node.id

/-- The ids of the roots. -/
def rootIds (f : Forest) : List NodeId := f.roots.map Node.id

/-- The node with an id, together with the forest below it. -/
def subtree? (id : NodeId) : Forest → Option (Node × Forest)
  | nil => none
  | tree n children rest =>
    -- what is found below hides what stands beside
    if n.id = id then some (n, children)
    else (children.subtree? id).or (rest.subtree? id)

/-- The node with an id and its ancestors, from the node up to its root. -/
def path? (id : NodeId) : Forest → Option (List Node)
  | nil => none
  | tree n children rest =>
    if n.id = id then some [n]
    else ((children.path? id).map (· ++ [n])).or (rest.path? id)

/-! ## Changes -/

/-- Changes every node. -/
def map (f : Node → Node) : Forest → Forest
  | nil => nil
  | tree n children rest => tree (f n) (children.map f) (rest.map f)

/-- Changes the node with an id. -/
def modify (id : NodeId) (f : Node → Node) : Forest → Forest :=
  map fun n => if n.id = id then f n else n

/-- Marks the node with an id and everything below it. -/
def markUnder (id : NodeId) : Forest → Forest
  | nil => nil
  | tree n children rest =>
    -- an id occurs once, so the trees beside are left as they are
    if n.id = id then tree n.mark (children.map Node.mark) rest
    else tree n (children.markUnder id) (rest.markUnder id)

/-- Takes the node with an id out, together with everything below it. -/
def prune (id : NodeId) : Forest → Forest
  | nil => nil
  | tree n children rest =>
    if n.id = id then rest else tree n (children.prune id) (rest.prune id)

/-- Adds a tree, given by its root and what is below it, after the others. -/
def push (t : Node × Forest) : Forest → Forest
  | nil => tree t.1 t.2 nil
  | tree n children rest => tree n children (rest.push t)

/-- Adds a tree as the last child of the node with an id. -/
def graft (parent : NodeId) (t : Node × Forest) : Forest → Forest
  | nil => nil
  | tree n children rest =>
    if n.id = parent then tree n (children.push t) rest
    else tree n (children.graft parent t) (rest.graft parent t)

/-- Adds a tree before the first root with a higher slot, which keeps the roots in slot order. -/
def insertRoot (t : Node × Forest) : Forest → Forest
  | nil => tree t.1 t.2 nil
  | tree n children rest =>
    if t.1.id.index < n.id.index then tree t.1 t.2 (tree n children rest)
    else tree n children (rest.insertRoot t)

/-! ## First facts -/

@[simp] theorem nodes_map (g : Node → Node) (f : Forest) : (f.map g).nodes = f.nodes.map g := by
  induction f with
  | nil => rfl
  | tree n children rest ihc ihr => simp [map, nodes, ihc, ihr]

@[simp] theorem nodes_push (t : Node × Forest) (f : Forest) :
    (f.push t).nodes = f.nodes ++ t.1 :: t.2.nodes := by
  induction f with
  | nil => simp [push, nodes]
  | tree n children rest _ ihr => simp [push, nodes, ihr]

/-- A change that keeps every id keeps the list of ids. -/
theorem ids_map {g : Node → Node} (keeps : ∀ n, (g n).id = n.id) (f : Forest) :
    (f.map g).ids = f.ids := by
  simp [ids, Function.comp_def, keeps]

@[simp] theorem ids_markUnder (id : NodeId) (f : Forest) : (f.markUnder id).ids = f.ids := by
  have marked (g : Forest) : (g.map Node.mark).nodes.map Node.id = g.nodes.map Node.id :=
    @ids_map Node.mark (fun _ => rfl) g
  induction f with
  | nil => rfl
  | tree n children rest ihc ihr =>
    simp only [ids] at ihc ihr ⊢
    unfold markUnder
    split
    · simp only [nodes, List.map_cons, List.map_append, marked]
      rfl
    · simp only [nodes, List.map_cons, List.map_append, ihc, ihr]

/-- A root that is put in its place adds its tree and nothing else. -/
theorem nodes_insertRoot (t : Node × Forest) (f : Forest) :
    (f.insertRoot t).nodes.Perm (t.1 :: t.2.nodes ++ f.nodes) := by
  induction f with
  | nil => simp [insertRoot, nodes]
  | tree n children rest _ ihr =>
    unfold insertRoot
    split
    · exact .refl _
    · -- the new tree moves past the first one
      have step : (children.nodes ++ (rest.insertRoot t).nodes).Perm
          (t.1 :: t.2.nodes ++ (children.nodes ++ rest.nodes)) :=
        (ihr.append_left children.nodes).trans (by
          simpa using (List.perm_append_comm_assoc children.nodes (t.1 :: t.2.nodes) rest.nodes))
      exact (step.cons n).trans List.perm_middle.symm

/-- Taking a tree out adds nothing and keeps the order of what stays. -/
theorem nodes_prune (id : NodeId) (f : Forest) : (f.prune id).nodes.Sublist f.nodes := by
  induction f with
  | nil => exact .refl _
  | tree n children rest ihc ihr =>
    unfold prune
    split
    · exact (List.sublist_append_right children.nodes rest.nodes).cons n
    · exact (ihc.append ihr).cons_cons n

/-- The look-up of a subtree finds exactly the ids of the forest. -/
theorem subtree?_isSome (id : NodeId) (f : Forest) : (f.subtree? id).isSome ↔ id ∈ f.ids := by
  induction f with
  | nil => simp [subtree?, ids, nodes]
  | tree n children rest ihc ihr =>
    unfold subtree?
    by_cases h : n.id = id
    · simp [h, ids, nodes]
    · have h' : ¬ id = n.id := fun e => h e.symm
      simp only [ids, List.mem_map] at ihc ihr
      simp [h, h', ids, nodes, ihc, ihr]

/-- The look-up of a path finds exactly the ids of the forest. -/
theorem path?_isSome (id : NodeId) (f : Forest) : (f.path? id).isSome ↔ id ∈ f.ids := by
  induction f with
  | nil => simp [path?, ids, nodes]
  | tree n children rest ihc ihr =>
    unfold path?
    by_cases h : n.id = id
    · simp [h, ids, nodes]
    · have h' : ¬ id = n.id := fun e => h e.symm
      simp only [ids, List.mem_map] at ihc ihr
      simp [h, h', ids, nodes, ihc, ihr]

end Forest

end StyledScene
