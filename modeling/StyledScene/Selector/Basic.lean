import StyledScene.FlagSet

/-!
# Selectors

A selector is a chain of compounds. The rightmost compound, the subject, describes the node itself;
the others describe ancestors, from the nearest outward. The weight of a selector is the sum of the
weights of its compounds, and its text puts them back in reading order.
-/

namespace StyledScene

/-! ## Pseudo-states -/

/-- The conditions on a node's state or place that a selector can name. -/
inductive PseudoState where
  | hover
  | focus
  | active
  | disabled
  | empty
  | firstChild
  | lastChild
deriving DecidableEq, Repr

namespace PseudoState

instance : FlagType PseudoState where
  all := [.hover, .focus, .active, .disabled, .empty, .firstChild, .lastChild]
  nodup := by decide
  mem_all f := by cases f <;> decide

/-- The name that follows the colon. -/
def name : PseudoState → String
  | .hover => "hover"
  | .focus => "focus"
  | .active => "active"
  | .disabled => "disabled"
  | .empty => "empty"
  | .firstChild => "first-child"
  | .lastChild => "last-child"

/-- The pseudo-state with a lower-case name; the two child conditions may drop their hyphen. -/
def ofName? : String → Option PseudoState
  | "hover" => some .hover
  | "focus" => some .focus
  | "active" => some .active
  | "disabled" => some .disabled
  | "empty" => some .empty
  | "first-child" => some .firstChild
  | "firstchild" => some .firstChild
  | "last-child" => some .lastChild
  | "lastchild" => some .lastChild
  | _ => none

/-- How much the condition adds to a weight. -/
def weight : PseudoState → Nat
  | .hover => 1
  | .focus => 2
  | .active => 3
  | .disabled => 4
  | .empty => 1
  | .firstChild => 1
  | .lastChild => 1

end PseudoState

/-- A set of conditions, all of which have to hold. -/
abbrev PseudoSet := FlagSet PseudoState

/-- The summed weight of the conditions. -/
def PseudoSet.weight (s : PseudoSet) : Nat := (s.toList.map PseudoState.weight).foldr (· + ·) 0

/-! ## Sets of names -/

/-- Puts a name into an ascending list of distinct names. -/
def insertName (name : String) : List String → List String
  | [] => [name]
  | n :: rest =>
    if name < n then name :: n :: rest
    else if n < name then n :: insertName name rest
    else n :: rest

theorem mem_insertName {name m : String} {names : List String} :
    m ∈ insertName name names ↔ m = name ∨ m ∈ names := by
  induction names with
  | nil => simp [insertName]
  | cons n rest ih =>
    unfold insertName
    split
    · simp
    · split
      · simp only [List.mem_cons, ih]
        constructor <;> rintro (h | h | h) <;> simp [h]
      · rename_i notBelow notAbove
        have same : name = n := String.le_antisymm (String.not_lt.1 notAbove) (String.not_lt.1 notBelow)
        subst same
        simp

/-- An ascending list stays ascending. -/
theorem pairwise_insertName {name : String} {names : List String} (h : names.Pairwise (· < ·)) :
    (insertName name names).Pairwise (· < ·) := by
  induction names with
  | nil => simp [insertName]
  | cons n rest ih =>
    obtain ⟨hn, hrest⟩ := List.pairwise_cons.mp h
    unfold insertName
    split
    · rename_i below
      refine List.pairwise_cons.mpr ⟨fun m hm => ?_, h⟩
      rcases List.mem_cons.mp hm with rfl | hm
      · exact below
      · exact String.lt_trans below (hn m hm)
    · split
      · rename_i above
        refine List.pairwise_cons.mpr ⟨fun m hm => ?_, ih hrest⟩
        rcases mem_insertName.mp hm with rfl | hm
        · exact above
        · exact hn m hm
      · exact h

/-! ## Compounds -/

/-- The conditions that one node of the chain has to meet. -/
structure Compound where
  /-- The required tag; a compound without one accepts every tag. -/
  tag : Option String
  /-- The required id. -/
  id : Option String
  /-- The required classes, ascending and distinct. -/
  classes : List String
  /-- The required pseudo-states. -/
  pseudo : PseudoSet
  /-- Whether the node must be the parent of the node that the compound to the right describes. -/
  directChild : Bool
deriving DecidableEq

namespace Compound

/-- The compound without conditions. -/
def universal : Compound := ⟨none, none, [], FlagSet.empty, false⟩

/-- Whether the compound accepts every node. -/
def isUniversal (c : Compound) : Bool :=
  c.tag.isNone && c.id.isNone && c.classes.isEmpty && c.pseudo.isEmpty

/-- What an id adds to a weight. -/
def idWeight : Nat := 15

/-- What a tag adds to a weight. -/
def tagWeight : Nat := 10

/-- What each class adds to a weight. -/
def classWeight : Nat := 10

/-- The weight of the compound by itself. -/
def weight (c : Compound) : Nat :=
  PseudoSet.weight c.pseudo + (if c.id.isSome then idWeight else 0) +
    (if c.tag.isSome then tagWeight else 0) + classWeight * c.classes.length

/-- The text of the compound: tag or star, id, classes, pseudo-states. -/
def toChars (c : Compound) : List Char :=
  let tag := match c.tag with
    | some tag => tag.toList
    | none => if c.isUniversal then ['*'] else []
  let id := match c.id with
    | some id => '#' :: id.toList
    | none => []
  tag ++ id ++ c.classes.flatMap (fun name => '.' :: name.toList) ++
    c.pseudo.toList.flatMap fun p => ':' :: p.name.toList

end Compound

/-! ## Chains -/

/-- A chain of compounds: the subject, and those to its left from right to left. -/
structure Selector where
  subject : Compound
  left : List Compound
deriving DecidableEq

namespace Selector

/-- The selector that accepts every node. -/
def universal : Selector := ⟨Compound.universal, []⟩

/-- All compounds from right to left. -/
def compounds (s : Selector) : List Compound := s.subject :: s.left

/-- The number of compounds to the left of the subject, hence the number of ancestors that a matching
node has at least. -/
def depth (s : Selector) : Nat := s.left.length

/-- The number of compounds. -/
def length (s : Selector) : Nat := s.depth + 1

/-- The weight of the whole chain. -/
def weight (s : Selector) : Nat := (s.compounds.map Compound.weight).foldr (· + ·) 0

/-- The chains that start at each compound of a chain. -/
def suffixesOf (c : Compound) : List Compound → List Selector
  | [] => [⟨c, []⟩]
  | next :: rest => ⟨c, next :: rest⟩ :: suffixesOf next rest

/-- The chain itself, the chain without its subject, and so on to the leftmost compound. -/
def suffixes (s : Selector) : List Selector := suffixesOf s.subject s.left

/-- The text of a chain, leftmost compound first. -/
def charsOf (c : Compound) : List Compound → List Char
  | [] => c.toChars
  | next :: rest =>
    charsOf next rest ++ (if next.directChild then [' ', '>', ' '] else [' ']) ++ c.toChars

/-- The text of the selector. -/
def toText (s : Selector) : String := String.ofList (charsOf s.subject s.left)

end Selector

end StyledScene
