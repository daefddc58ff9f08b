/-!
# Node ids

A node id names a slot and the version of the slot that the node occupies. Slots are numbered from
one. A slot that becomes free is handed out again before any new one, the latest first, under a
version greater by two; so no id is ever handed out twice.
-/

namespace StyledScene

/-- The identity of a node: a slot and its version. -/
structure NodeId where
  index : Nat
  version : Nat
deriving DecidableEq, Repr

namespace NodeId

/-- The slot number that no node ever has. -/
def nullIndex : Nat := 0xFFFFFFFF

/-- The id of no node. -/
def null : NodeId := ⟨nullIndex, 1⟩

/-- Both halves of the id as one number. -/
def raw (id : NodeId) : Nat := id.version <<< 32 + id.index

/-- The diagnostic text of an id. -/
def text (id : NodeId) : String :=
  if id.index = nullIndex then "NodeId(null)"
  else "NodeId(" ++ toString id.index ++ "v" ++ toString id.version ++ ")"

/-- The diagnostic text of an id that may be missing. -/
def optionText : Option NodeId → String
  | some id => "Some(" ++ id.text ++ ")"
  | none => "None"

end NodeId

/-- The supply of ids. -/
structure IdPool where
  /-- The lowest slot that was never used. -/
  fresh : Nat
  /-- The ids that the free slots give next, the latest freed slot first. -/
  free : List NodeId
deriving DecidableEq, Repr

namespace IdPool

/-- The supply before any node exists. -/
def initial : IdPool := ⟨1, []⟩

/-- The next id, and the supply without it. -/
def take (pool : IdPool) : NodeId × IdPool :=
  match pool.free with
  | id :: rest => (id, { pool with free := rest })
  | [] => (⟨pool.fresh, 1⟩, { pool with fresh := pool.fresh + 1 })

/-- The supply after the node with the id is gone. -/
def release (pool : IdPool) (id : NodeId) : IdPool :=
  -- odd versions belong to nodes, the even ones between them to free slots
  { pool with free := ⟨id.index, id.version + 2⟩ :: pool.free }

end IdPool

end StyledScene
