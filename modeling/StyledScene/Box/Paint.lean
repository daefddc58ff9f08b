import StyledScene.Box.Measures
import StyledScene.FlagSet

/-!
# Painting boxes

Painting a box issues a list of calls to a canvas: first the background, then the border. A border of
one width is stroked along the box and follows its corners; a border of several widths is one filled
band per side. A summary of a style tells beforehand which calls there will be.
-/

namespace StyledScene

/-! ## Calls -/

/-- A call to the canvas. -/
inductive PaintCall where
  | fill (rect : Rect) (color : Color)
  | fillRounded (rect : Rect) (radii : CornerRadii) (color : Color)
  /-- A stroke lies centered on the sides of its rectangle. -/
  | stroke (rect : Rect) (color : Color) (width : Float32)
  | strokeRounded (rect : Rect) (radii : CornerRadii) (color : Color) (width : Float32)
  /-- Whether the shapes that follow are smoothed. -/
  | antialias (enabled : Bool)
deriving DecidableEq

namespace PaintCall

/-- Whether the call draws something. -/
def isShape : PaintCall → Bool
  | antialias _ => false
  | _ => true

/-- The color that the call draws with. -/
def color? : PaintCall → Option Color
  | fill _ c => some c
  | fillRounded _ _ c => some c
  | stroke _ c _ => some c
  | strokeRounded _ _ c _ => some c
  | antialias _ => none

/-- Whether the call draws round corners. -/
def isRounded : PaintCall → Bool
  | fillRounded _ _ _ => true
  | strokeRounded _ _ _ _ => true
  | _ => false

end PaintCall

/-! ## Background and border -/

/-- Paints the background over the whole box. -/
def paintBackground (s : Style) (rect : Rect) : List PaintCall :=
  match s.visibleBackground? with
  | none => []
  | some color =>
    if s.cornerRadii.isZero then [.fill rect color] else [.fillRounded rect s.cornerRadii color]

/-- The bands of a border: top and bottom over the full width, left and right between them. -/
def borderBands (rect : Rect) (widths : Edges) : List Rect :=
  let middle := atLeastZero (rect.height - widths.vertical)
  [⟨rect.x, rect.y, rect.width, widths.top⟩,
    ⟨rect.x, rect.y + rect.height - widths.bottom, rect.width, widths.bottom⟩,
    ⟨rect.x, rect.y + widths.top, widths.left, middle⟩,
    ⟨rect.x + rect.width - widths.right, rect.y + widths.top, widths.right, middle⟩]

/-- The rectangle along which a border of one width is stroked, so that the stroke stays inside. -/
def strokeRect (rect : Rect) (width : Float32) : Rect where
  x := rect.x + width / 2.0
  y := rect.y + width / 2.0
  width := atLeastZero (rect.width - width)
  height := atLeastZero (rect.height - width)

/-- Paints the border inside the box. -/
def paintBorder (s : Style) (rect : Rect) : List PaintCall :=
  match s.visibleBorder? with
  | none => []
  | some (widths, color) =>
    if widths.isUniform then
      -- one stroke, half a width inside the box
      let path := strokeRect rect widths.top
      if s.cornerRadii.isZero then [.stroke path color widths.top]
      else [.strokeRounded path (s.cornerRadii.shrink (widths.top / 2.0)) color widths.top]
    else
      -- bands without area are left out
      ((borderBands rect widths).filter Rect.hasArea).map fun band => .fill band color

/-! ## Skins -/

/-- A way of painting the box of a node. -/
abbrev Skin := Rect → Style → List PaintCall

/-- The usual way: smoothing as the style asks for, the background, then the border. -/
def boxSkin : Skin := fun rect s =>
  .antialias (s.get .antialias) :: (paintBackground s rect ++ paintBorder s rect)

/-! ## Summaries -/

/-- What painting a box will amount to. -/
inductive BoxFlag where
  | drawBackground
  | drawBorder
  | roundedCorners
  | translucent
  | antialias
deriving DecidableEq, Repr

namespace BoxFlag

instance : FlagType BoxFlag where
  all := [.drawBackground, .drawBorder, .roundedCorners, .translucent, .antialias]
  nodup := by decide
  mem_all f := by cases f <;> decide

/-- The name of the flag in diagnostics. -/
def label : BoxFlag → String
  | .drawBackground => "DRAW_BACKGROUND"
  | .drawBorder => "DRAW_BORDER"
  | .roundedCorners => "ROUNDED_CORNERS"
  | .translucent => "TRANSLUCENT"
  | .antialias => "ANTIALIAS"

/-- Whether the flag holds of a style. -/
def holds (s : Style) : BoxFlag → Bool
  | .drawBackground => s.visibleBackground?.isSome
  | .drawBorder => s.visibleBorder?.isSome
  | .roundedCorners => !s.cornerRadii.isZero
  | .translucent => decide (s.opacityOf < 1.0)
  | .antialias => s.get .antialias

end BoxFlag

/-- A summary of a style. -/
abbrev BoxFlags := FlagSet BoxFlag

namespace BoxFlags

/-- The summary of a style. -/
def ofStyle (s : Style) : BoxFlags := FlagSet.ofTest (BoxFlag.holds s)

/-- The diagnostic text of a summary. -/
def text (flags : BoxFlags) : String := FlagSet.diagnostic "BoxFlags" BoxFlag.label flags

/-- A summary holds exactly the flags that hold of its style. -/
theorem contains_ofStyle (s : Style) (f : BoxFlag) :
    (ofStyle s).contains f = f.holds s := FlagSet.contains_ofTest _ f

end BoxFlags

end StyledScene
