import StyledScene.Tree.NodeId

/-!
# Tables keyed by nodes

A table holds at most one entry per slot. An entry is found only under the very id that it was made
for; when a later node of the slot gets an entry, the earlier one is gone.
-/

namespace StyledScene

/-- A table with a value for some nodes. -/
structure NodeMap (α : Type) where
  entries : List (NodeId × α)

namespace NodeMap

variable {α : Type}

/-- The table without entries. -/
def empty : NodeMap α := ⟨[]⟩

/-- The value of a node. -/
def get? (m : NodeMap α) (id : NodeId) : Option α :=
  (m.entries.find? fun entry => entry.1 == id).map Prod.snd

/-- Whether the node has a value. -/
def contains (m : NodeMap α) (id : NodeId) : Bool := (m.get? id).isSome

/-- Gives a node a value; whatever its slot held before is dropped. -/
def insert (m : NodeMap α) (id : NodeId) (value : α) : NodeMap α :=
  ⟨(id, value) :: m.entries.filter fun entry => entry.1.index != id.index⟩

/-- Takes the value of a node away. -/
def erase (m : NodeMap α) (id : NodeId) : NodeMap α :=
  ⟨m.entries.filter fun entry => entry.1 != id⟩

/-- Keeps the values of the nodes that pass a test. -/
def retain (m : NodeMap α) (keep : NodeId → Bool) : NodeMap α :=
  ⟨m.entries.filter fun entry => keep entry.1⟩

/-! ## Look-ups after changes -/

@[simp] theorem get?_empty (id : NodeId) : (empty : NodeMap α).get? id = none := rfl

@[simp] theorem get?_insert_self (m : NodeMap α) (id : NodeId) (value : α) :
    (m.insert id value).get? id = some value := by
  simp [get?, insert]

private theorem find?_filter_of_imp {p q : NodeId × α → Bool} (entries : List (NodeId × α))
    (h : ∀ e, p e = true → q e = true) : (entries.filter q).find? p = entries.find? p := by
  induction entries with
  | nil => rfl
  | cons e rest ih =>
    by_cases hq : q e = true
    · simp [hq, List.find?_cons, ih]
    · have hp : p e = false := by
        cases hp : p e with
        | false => rfl
        | true => exact absurd (h e hp) hq
      simp [hq, hp, ih]

/-- A new entry leaves the entries of other slots alone. -/
theorem get?_insert_of_index_ne (m : NodeMap α) {id other : NodeId} (value : α)
    (h : other.index ≠ id.index) : (m.insert id value).get? other = m.get? other := by
  have apart : ¬ id = other := fun e => h (e ▸ rfl)
  unfold get? insert
  rw [List.find?_cons, show (id == other) = false by simpa using apart]
  simp only
  rw [find?_filter_of_imp]
  intro e he
  have := beq_iff_eq.1 he
  simp [this, h]

/-- Taking one entry away leaves every other look-up alone. -/
theorem get?_erase (m : NodeMap α) (id other : NodeId) :
    (m.erase id).get? other = if other = id then none else m.get? other := by
  unfold get? erase
  split
  · rename_i same
    rw [List.find?_eq_none.2]
    · rfl
    · intro e he found
      rw [List.mem_filter, bne_iff_ne] at he
      exact he.2 ((beq_iff_eq.1 found).trans same)
  · rename_i apart
    rw [find?_filter_of_imp]
    intro e he
    rw [beq_iff_eq.1 he]
    exact bne_iff_ne.2 apart

/-- A table that keeps some nodes answers for those as before. -/
theorem get?_retain (m : NodeMap α) (keep : NodeId → Bool) (id : NodeId) :
    (m.retain keep).get? id = if keep id then m.get? id else none := by
  unfold get? retain
  split
  · rename_i kept
    rw [find?_filter_of_imp]
    intro e he
    rw [beq_iff_eq.1 he]; exact kept
  · rename_i dropped
    rw [List.find?_eq_none.2]
    · rfl
    · intro e he same
      rw [List.mem_filter] at he
      rw [← beq_iff_eq.1 same] at dropped
      exact dropped he.2

end NodeMap

end StyledScene
