import StyledScene.Color
import StyledScene.Property.Spelling

/-!
# Property keys

Every property belongs to one of five categories, and the category fixes the type of its values. The
keys form one family indexed by the category, so a key cannot be used with a value of another one.
-/

namespace StyledScene

/-! ## Categories -/

/-- The five categories of properties. -/
inductive Category where
  | color
  | string
  | float
  | integer
  | boolean
deriving DecidableEq, Repr

namespace Category

/-- All categories, in the order in which styles list them. -/
def all : List Category := [.color, .string, .float, .integer, .boolean]

theorem mem_all (c : Category) : c ∈ all := by cases c <;> decide

/-- The name of the category. -/
def name : Category → String
  | .color => "color"
  | .string => "string"
  | .float => "float"
  | .integer => "integer"
  | .boolean => "boolean"

/-- The type of the values that properties of the category take. -/
abbrev Value : Category → Type
  | .color => Color
  | .string => String
  | .float => Float32
  | .integer => Int32
  | .boolean => Bool

/-- What an absent property of the category reads as; an absent length is undefined, not zero. -/
def fallback : (c : Category) → c.Value
  | .color => Color.transparent
  | .string => ""
  | .float => 0.0 / 0.0
  | .integer => 0
  | .boolean => false

/-- Whether writing the second value over the first changes nothing. Floats compare as numbers, so
the two zeros are the same value; an undefined float is the same as another. -/
def sameValue : (c : Category) → c.Value → c.Value → Bool
  | .color, a, b => a == b
  | .string, a, b => a == b
  | .float, a, b => a == b || (a.isNaN && b.isNaN)
  | .integer, a, b => a == b
  | .boolean, a, b => a == b

end Category

/-! ## Keys -/

/-- The properties, each indexed by its category. -/
inductive Key : Category → Type where
  | color : Key .color
  | backgroundColor : Key .color
  | borderColor : Key .color
  | placeholderColor : Key .color
  | selectionColor : Key .color
  | caretColor : Key .color
  | scrollbarColor : Key .color
  | scrollbarTrackColor : Key .color
  | shadowColor : Key .color
  | fontName : Key .string
  | cursor : Key .string
  | textAlign : Key .string
  | verticalAlign : Key .string
  | flexDirection : Key .string
  | justifyContent : Key .string
  | alignItems : Key .string
  | alignSelf : Key .string
  | alignContent : Key .string
  | flexWrap : Key .string
  | position : Key .string
  | overflow : Key .string
  | display : Key .string
  | orientation : Key .string
  | scrollDirection : Key .string
  | backgroundImage : Key .string
  | skin : Key .string
  | opacity : Key .float
  | fontSize : Key .float
  | lineHeight : Key .float
  | letterSpacing : Key .float
  | borderWidth : Key .float
  | borderTopWidth : Key .float
  | borderRightWidth : Key .float
  | borderBottomWidth : Key .float
  | borderLeftWidth : Key .float
  | borderRadius : Key .float
  | borderTopLeftRadius : Key .float
  | borderTopRightRadius : Key .float
  | borderBottomRightRadius : Key .float
  | borderBottomLeftRadius : Key .float
  | padding : Key .float
  | paddingTop : Key .float
  | paddingRight : Key .float
  | paddingBottom : Key .float
  | paddingLeft : Key .float
  | margin : Key .float
  | marginTop : Key .float
  | marginRight : Key .float
  | marginBottom : Key .float
  | marginLeft : Key .float
  | width : Key .float
  | height : Key .float
  | minWidth : Key .float
  | minHeight : Key .float
  | maxWidth : Key .float
  | maxHeight : Key .float
  | flexGrow : Key .float
  | flexShrink : Key .float
  | flexBasis : Key .float
  | aspectRatio : Key .float
  | left : Key .float
  | top : Key .float
  | right : Key .float
  | bottom : Key .float
  | shadowBlur : Key .float
  | shadowOffsetX : Key .float
  | shadowOffsetY : Key .float
  | scrollbarWidth : Key .float
  | fontWeight : Key .integer
  | zIndex : Key .integer
  | tabIndex : Key .integer
  | maxLines : Key .integer
  | antialias : Key .boolean
  | textAntialias : Key .boolean
  | clipChildren : Key .boolean
  | wordWrap : Key .boolean
  | textEllipsis : Key .boolean
  | scrollbarVisible : Key .boolean
deriving DecidableEq, Repr

namespace Key

/-- The hyphenated name of a property. -/
def name {c : Category} : Key c → String
  | .color => "color"
  | .backgroundColor => "background-color"
  | .borderColor => "border-color"
  | .placeholderColor => "placeholder-color"
  | .selectionColor => "selection-color"
  | .caretColor => "caret-color"
  | .scrollbarColor => "scrollbar-color"
  | .scrollbarTrackColor => "scrollbar-track-color"
  | .shadowColor => "shadow-color"
  | .fontName => "font-name"
  | .cursor => "cursor"
  | .textAlign => "text-align"
  | .verticalAlign => "vertical-align"
  | .flexDirection => "flex-direction"
  | .justifyContent => "justify-content"
  | .alignItems => "align-items"
  | .alignSelf => "align-self"
  | .alignContent => "align-content"
  | .flexWrap => "flex-wrap"
  | .position => "position"
  | .overflow => "overflow"
  | .display => "display"
  | .orientation => "orientation"
  | .scrollDirection => "scroll-direction"
  | .backgroundImage => "background-image"
  | .skin => "skin"
  | .opacity => "opacity"
  | .fontSize => "font-size"
  | .lineHeight => "line-height"
  | .letterSpacing => "letter-spacing"
  | .borderWidth => "border-width"
  | .borderTopWidth => "border-top-width"
  | .borderRightWidth => "border-right-width"
  | .borderBottomWidth => "border-bottom-width"
  | .borderLeftWidth => "border-left-width"
  | .borderRadius => "border-radius"
  | .borderTopLeftRadius => "border-top-left-radius"
  | .borderTopRightRadius => "border-top-right-radius"
  | .borderBottomRightRadius => "border-bottom-right-radius"
  | .borderBottomLeftRadius => "border-bottom-left-radius"
  | .padding => "padding"
  | .paddingTop => "padding-top"
  | .paddingRight => "padding-right"
  | .paddingBottom => "padding-bottom"
  | .paddingLeft => "padding-left"
  | .margin => "margin"
  | .marginTop => "margin-top"
  | .marginRight => "margin-right"
  | .marginBottom => "margin-bottom"
  | .marginLeft => "margin-left"
  | .width => "width"
  | .height => "height"
  | .minWidth => "min-width"
  | .minHeight => "min-height"
  | .maxWidth => "max-width"
  | .maxHeight => "max-height"
  | .flexGrow => "flex-grow"
  | .flexShrink => "flex-shrink"
  | .flexBasis => "flex-basis"
  | .aspectRatio => "aspect-ratio"
  | .left => "left"
  | .top => "top"
  | .right => "right"
  | .bottom => "bottom"
  | .shadowBlur => "shadow-blur"
  | .shadowOffsetX => "shadow-offset-x"
  | .shadowOffsetY => "shadow-offset-y"
  | .scrollbarWidth => "scrollbar-width"
  | .fontWeight => "font-weight"
  | .zIndex => "z-index"
  | .tabIndex => "tab-index"
  | .maxLines => "max-lines"
  | .antialias => "antialias"
  | .textAntialias => "text-antialias"
  | .clipChildren => "clip-children"
  | .wordWrap => "word-wrap"
  | .textEllipsis => "text-ellipsis"
  | .scrollbarVisible => "scrollbar-visible"

/-- The properties of a category, in their fixed order. -/
def all : (c : Category) → List (Key c)
  | .color => [.color, .backgroundColor, .borderColor, .placeholderColor, .selectionColor,
      .caretColor, .scrollbarColor, .scrollbarTrackColor, .shadowColor]
  | .string => [.fontName, .cursor, .textAlign, .verticalAlign, .flexDirection, .justifyContent,
      .alignItems, .alignSelf, .alignContent, .flexWrap, .position, .overflow, .display,
      .orientation, .scrollDirection, .backgroundImage, .skin]
  | .float => [.opacity, .fontSize, .lineHeight, .letterSpacing, .borderWidth, .borderTopWidth,
      .borderRightWidth, .borderBottomWidth, .borderLeftWidth, .borderRadius,
      .borderTopLeftRadius, .borderTopRightRadius, .borderBottomRightRadius,
      .borderBottomLeftRadius, .padding, .paddingTop, .paddingRight, .paddingBottom, .paddingLeft,
      .margin, .marginTop, .marginRight, .marginBottom, .marginLeft, .width, .height, .minWidth,
      .minHeight, .maxWidth, .maxHeight, .flexGrow, .flexShrink, .flexBasis, .aspectRatio, .left,
      .top, .right, .bottom, .shadowBlur, .shadowOffsetX, .shadowOffsetY, .scrollbarWidth]
  | .integer => [.fontWeight, .zIndex, .tabIndex, .maxLines]
  | .boolean => [.antialias, .textAntialias, .clipChildren, .wordWrap, .textEllipsis,
      .scrollbarVisible]

/-- Every property is listed under its category. -/
theorem mem_all {c : Category} (k : Key c) : k ∈ all c := by cases k <;> decide

/-- The place of a property in the list of its category. -/
def index {c : Category} (k : Key c) : Fin (all c).length :=
  ⟨(all c).idxOf k, List.idxOf_lt_length_iff.2 k.mem_all⟩

@[simp] theorem all_index {c : Category} (k : Key c) : (all c)[k.index] = k := by
  simp [index]

/-- The name of a property as one capitalized word, for diagnostics. -/
def label {c : Category} (k : Key c) : String :=
  String.ofList (Property.capitalizeWords true k.name.toList)

/-- The property of a category that a spelling names. -/
def find? (c : Category) (text : String) : Option (Key c) :=
  let wanted := Property.normalize text
  (all c).find? fun k => k.name == wanted

/-- The property that a spelling names, or a report of the spelling as it was given. -/
def parse (c : Category) (text : String) : Except StyleError (Key c) :=
  match find? c text with
  | some k => .ok k
  | none => .error (.unknownProperty c.name text)

end Key

end StyledScene
