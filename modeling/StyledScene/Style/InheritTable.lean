import StyledScene.Style.Basic

/-!
# Inheritance tables

A table lists the properties that a node takes over from its parent. Inheritance is never implicit:
what no table lists does not pass from parent to child.
-/

namespace StyledScene

/-- The inherited properties of each category, in the order in which they were added. -/
structure InheritTable where
  colors : List (Key .color)
  strings : List (Key .string)
  floats : List (Key .float)
  integers : List (Key .integer)
  booleans : List (Key .boolean)
deriving DecidableEq, Repr

namespace InheritTable

/-! ## The built-in tables -/

/-- Inherits nothing. -/
def empty : InheritTable := ⟨[], [], [], [], []⟩

/-- Typography, for nodes that bear text. -/
def text : InheritTable where
  colors := [.color]
  strings := [.fontName, .textAlign]
  floats := [.fontSize, .lineHeight, .letterSpacing]
  integers := [.fontWeight]
  booleans := [.textAntialias]

/-- Typography together with the colors and the cursor of editing. -/
def input : InheritTable where
  colors := [.color, .placeholderColor, .selectionColor, .caretColor]
  strings := [.fontName, .textAlign, .cursor]
  floats := [.fontSize, .lineHeight, .letterSpacing]
  integers := [.fontWeight]
  booleans := [.textAntialias, .antialias]

/-! ## Reading and growing -/

/-- The inherited properties of one category. -/
def keys (t : InheritTable) : (c : Category) → List (Key c)
  | .color => t.colors
  | .string => t.strings
  | .float => t.floats
  | .integer => t.integers
  | .boolean => t.booleans

/-- Whether a property is inherited. -/
def contains (t : InheritTable) {c : Category} (k : Key c) : Bool := (t.keys c).contains k

/-- Whether nothing is inherited. -/
def isEmpty (t : InheritTable) : Bool := Category.all.all fun c => (t.keys c).isEmpty

/-- Adds a property at the end of its category, unless it is listed already. -/
def insert (t : InheritTable) : {c : Category} → Key c → InheritTable
  | .color, k => if t.contains k then t else { t with colors := t.colors ++ [k] }
  | .string, k => if t.contains k then t else { t with strings := t.strings ++ [k] }
  | .float, k => if t.contains k then t else { t with floats := t.floats ++ [k] }
  | .integer, k => if t.contains k then t else { t with integers := t.integers ++ [k] }
  | .boolean, k => if t.contains k then t else { t with booleans := t.booleans ++ [k] }

end InheritTable

namespace Style

/-- The values of a style whose properties the table lists. -/
def restrict (s : Style) (t : InheritTable) : Style :=
  tabulate fun _ k => if t.contains k then s.get? k else none

/-- Lays the inherited values of `other` over a style; everything else of `other` stays out. -/
def overlayInherited (s other : Style) (t : InheritTable) : Style :=
  tabulate fun _ k => if t.contains k then (other.get? k).or (s.get? k) else s.get? k

@[simp] theorem get?_restrict (s : Style) (t : InheritTable) {c : Category} (k : Key c) :
    (s.restrict t).get? k = if t.contains k then s.get? k else none := by simp [restrict]

@[simp] theorem get?_overlayInherited (s other : Style) (t : InheritTable) {c : Category}
    (k : Key c) : (s.overlayInherited other t).get? k =
      if t.contains k then (other.get? k).or (s.get? k) else s.get? k := by
  simp [overlayInherited]

end Style

end StyledScene
