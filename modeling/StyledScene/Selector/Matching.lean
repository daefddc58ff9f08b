import StyledScene.Selector.Basic

/-!
# Matching

A selector is matched against a node and its ancestors. Matching starts at the subject and the node
and climbs: each further compound is tried on the next ancestor and, unless it is a direct-child
condition, on those above it until one fits. The search takes the first ancestor that fits and never
returns to try a later one.
-/

namespace StyledScene

/-- What a selector can see of a node. -/
structure NodeView where
  /-- The tags of the node, innermost last. -/
  tags : List String
  /-- The id that an author gave, if any. -/
  id : Option String
  /-- The id that every node has. -/
  autoId : String
  classes : List String
  hovered : Bool
  focused : Bool
  active : Bool
  disabled : Bool
  childCount : Nat
  /-- Index among the siblings and their number; roots have none. -/
  sibling : Option (Nat × Nat)
  /-- How many ancestors the node claims to have. -/
  depth : Nat
deriving DecidableEq, Repr

/-- A node and its ancestors, from the node upward. -/
abbrev Lineage := List NodeView

/-- Whether the condition holds of the node. -/
def PseudoState.holds (v : NodeView) : PseudoState → Bool
  | .hover => v.hovered
  | .focus => v.focused
  | .active => v.active
  | .disabled => v.disabled
  | .empty => v.childCount == 0
  -- a root has no place among siblings, so it is neither first nor last
  | .firstChild => v.sibling.any fun place => place.1 == 0
  | .lastChild => v.sibling.any fun place => place.1 + 1 == place.2

/-- Whether a node meets every condition of the compound by itself. An id may be the author's or the
one that every node has. -/
def Compound.accepts (c : Compound) (v : NodeView) : Bool :=
  c.id.all (fun id => v.id == some id || v.autoId == id) &&
    c.tag.all (fun tag => v.tags.contains tag) &&
    c.classes.all (fun name => v.classes.contains name) &&
    c.pseudo.toList.all fun p => p.holds v

/-- How chains are matched. -/
structure Matcher where
  /-- Whether a node that claims fewer ancestors than there are compounds to the left is rejected
  without a look at it. -/
  depthFastPath : Bool
deriving DecidableEq, Repr

namespace Matcher

instance : Inhabited Matcher := ⟨⟨true⟩⟩

/-- Matches the compound `c`, with `left` still to come, at the first node of the lineage or, when
`climbing` allows it, at the nearest one above that fits. -/
def climb (m : Matcher) (c : Compound) (left : List Compound) (climbing : Bool) : Lineage → Bool
  | [] => false
  | v :: above =>
    -- too few ancestors for the compounds that are left
    if m.depthFastPath && decide (v.depth < left.length) then false
    else if c.accepts v then
      match left with
      | [] => true
      -- this ancestor is taken for good: if the rest fails above it, no other is tried
      | next :: rest => climb m next rest true above
    else if climbing && !c.directChild then climb m c left true above
    else false

/-- Whether the selector matches the first node of the lineage. -/
def accepts (m : Matcher) (s : Selector) (lineage : Lineage) : Bool :=
  m.climb s.subject s.left false lineage

end Matcher

/-- Whether the selector matches the first node of the lineage, with the depth fast path. -/
def Selector.accepts (s : Selector) (lineage : Lineage) : Bool :=
  (Matcher.mk true).accepts s lineage

/-! ## First facts -/

@[simp] theorem Matcher.climb_nil (m : Matcher) (c : Compound) (left : List Compound)
    (climbing : Bool) : m.climb c left climbing [] = false := rfl

/-- What the search does at one node. -/
theorem Matcher.climb_cons (m : Matcher) (c : Compound) (left : List Compound) (climbing : Bool)
    (v : NodeView) (above : Lineage) :
    m.climb c left climbing (v :: above) =
      if m.depthFastPath && decide (v.depth < left.length) then false
      else if c.accepts v then
        match left with
        | [] => true
        | next :: rest => m.climb next rest true above
      else if climbing && !c.directChild then m.climb c left true above
      else false := by
  cases left <;> rfl

end StyledScene
