/-!
# Geometry of boxes

Rectangles, lengths along their sides, and radii at their corners, in 32-bit floats. A size that
would be negative or undefined becomes zero.
-/

namespace StyledScene

/-- The number itself if it is positive, and zero in place of any other: a negative zero loses its
sign, and an undefined number becomes zero as well. -/
def atLeastZero (x : Float32) : Float32 := if 0.0 < x then x else 0.0

/-- One length for each side of a rectangle. -/
structure Edges where
  top : Float32
  right : Float32
  bottom : Float32
  left : Float32
deriving DecidableEq

namespace Edges

/-- The lengths on the left and on the right together. -/
def horizontal (e : Edges) : Float32 := e.left + e.right

/-- The lengths at the top and at the bottom together. -/
def vertical (e : Edges) : Float32 := e.top + e.bottom

/-- Adds lengths side by side. -/
def add (e f : Edges) : Edges :=
  ⟨e.top + f.top, e.right + f.right, e.bottom + f.bottom, e.left + f.left⟩

/-- Whether some side has a positive length. -/
def anyPositive (e : Edges) : Bool :=
  decide (0.0 < e.top) || decide (0.0 < e.right) || decide (0.0 < e.bottom) || decide (0.0 < e.left)

/-- Whether all sides have the length of the top. -/
def isUniform (e : Edges) : Bool := e.top == e.right && e.top == e.bottom && e.top == e.left

end Edges

/-- One radius for each corner of a rectangle. -/
structure CornerRadii where
  topLeft : Float32
  topRight : Float32
  bottomRight : Float32
  bottomLeft : Float32
deriving DecidableEq

namespace CornerRadii

/-- Whether no corner is round. -/
def isZero (r : CornerRadii) : Bool :=
  decide (r.topLeft ≤ 0.0) && decide (r.topRight ≤ 0.0) && decide (r.bottomRight ≤ 0.0) &&
    decide (r.bottomLeft ≤ 0.0)

/-- Takes a length from every radius. -/
def shrink (r : CornerRadii) (amount : Float32) : CornerRadii where
  topLeft := atLeastZero (r.topLeft - amount)
  topRight := atLeastZero (r.topRight - amount)
  bottomRight := atLeastZero (r.bottomRight - amount)
  bottomLeft := atLeastZero (r.bottomLeft - amount)

end CornerRadii

/-- A rectangle with upright sides. -/
structure Rect where
  x : Float32
  y : Float32
  width : Float32
  height : Float32
deriving DecidableEq

namespace Rect

/-- Moves every side inward; the size does not fall below zero. -/
def inset (r : Rect) (e : Edges) : Rect where
  x := r.x + e.left
  y := r.y + e.top
  width := atLeastZero (r.width - e.left - e.right)
  height := atLeastZero (r.height - e.top - e.bottom)

/-- Moves every side outward. -/
def outset (r : Rect) (e : Edges) : Rect where
  x := r.x - e.left
  y := r.y - e.top
  width := r.width + e.left + e.right
  height := r.height + e.top + e.bottom

/-- Whether the rectangle covers any area. -/
def hasArea (r : Rect) : Bool := decide (0.0 < r.width) && decide (0.0 < r.height)

end Rect

end StyledScene
