import StyledScene.Box.Geometry
import StyledScene.Style.Basic

/-!
# Measures of a styled box

What a style says about the box of a node: padding, border, margin, corners, opacity, and the colors
as they appear through the opacity. A length that is absent or undefined counts as not given; the
property of a single side goes before the one for all sides.
-/

namespace StyledScene

namespace Style

/-! ## Lengths -/

/-- A length that is given and defined. -/
def length? (s : Style) (k : Key .float) : Option Float32 := (s.get? k).filter fun v => !v.isNaN

/-- The length of one side, by its own property, then by the one for all sides, else zero. -/
def sideLength (s : Style) (all side : Key .float) : Float32 :=
  ((s.length? side).or (s.length? all)).getD 0.0

/-- The room between border and content. -/
def padding (s : Style) : Edges where
  top := s.sideLength .padding .paddingTop
  right := s.sideLength .padding .paddingRight
  bottom := s.sideLength .padding .paddingBottom
  left := s.sideLength .padding .paddingLeft

/-- The room around the border. -/
def margin (s : Style) : Edges where
  top := s.sideLength .margin .marginTop
  right := s.sideLength .margin .marginRight
  bottom := s.sideLength .margin .marginBottom
  left := s.sideLength .margin .marginLeft

/-- The widths of the border. -/
def borderWidths (s : Style) : Edges where
  top := s.sideLength .borderWidth .borderTopWidth
  right := s.sideLength .borderWidth .borderRightWidth
  bottom := s.sideLength .borderWidth .borderBottomWidth
  left := s.sideLength .borderWidth .borderLeftWidth

/-- The radii of the corners. -/
def cornerRadii (s : Style) : CornerRadii where
  topLeft := s.sideLength .borderRadius .borderTopLeftRadius
  topRight := s.sideLength .borderRadius .borderTopRightRadius
  bottomRight := s.sideLength .borderRadius .borderBottomRightRadius
  bottomLeft := s.sideLength .borderRadius .borderBottomLeftRadius

/-! ## Boxes -/

/-- The rectangle inside border and padding. -/
def contentRect (s : Style) (r : Rect) : Rect := r.inset (s.padding.add s.borderWidths)

/-- Width and height of the border box around a content of the given size. -/
def borderBoxSize (s : Style) (width height : Float32) : Float32 × Float32 :=
  (width + s.padding.horizontal + s.borderWidths.horizontal,
    height + s.padding.vertical + s.borderWidths.vertical)

/-- The rectangle that a border box takes up together with its margin. -/
def marginRect (s : Style) (r : Rect) : Rect := r.outset s.margin

/-! ## Colors -/

/-- The opacity, between zero and one; a box is opaque unless its style gives another one. -/
def opacityOf (s : Style) : Float32 :=
  match s.length? .opacity with
  | none => 1.0
  -- `length?` has left out undefined values, so the comparisons decide
  | some v => if v < 0.0 then 0.0 else if 1.0 < v then 1.0 else v

end Style

/-- The whole number nearest to a number from 0 to 255; a half goes up. -/
def roundToByte (x : Float32) : UInt8 :=
  let whole := x.toUInt8
  -- the difference to the whole part is exact
  if 0.5 ≤ x - whole.toFloat32 then whole + 1 else whole

/-- A color seen at an opacity below one has its alpha scaled down. -/
def Color.faded (c : Color) (opacity : Float32) : Color :=
  if 1.0 ≤ opacity then c else c.withAlpha (roundToByte (c.alpha.toFloat32 * opacity))

namespace Style

/-- The background color as it appears, unless nothing of it would show. -/
def visibleBackground? (s : Style) : Option Color :=
  let color := (s.get .backgroundColor).faded s.opacityOf
  if color.isTransparent then none else some color

/-- The border widths and color as they appear, unless nothing of them would show. -/
def visibleBorder? (s : Style) : Option (Edges × Color) :=
  let widths := s.borderWidths
  let color := (s.get .borderColor).faded s.opacityOf
  if widths.anyPositive && !color.isTransparent then some (widths, color) else none

end Style

end StyledScene
