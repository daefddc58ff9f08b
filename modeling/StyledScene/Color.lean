import StyledScene.StyleError
import StyledScene.Text.Blank

/-!
# Colors

A color is four channels of eight bits packed into one word, alpha highest. It is read from six or
eight hexadecimal digits and written with eight.
-/

namespace StyledScene

/-- A packed color: alpha, red, green, blue, from the highest byte to the lowest. -/
structure Color where
  argb : UInt32
deriving DecidableEq, Repr

namespace Color

/-! ## Channels -/

/-- Packs four channels. -/
def ofArgb (a r g b : UInt8) : Color :=
  ⟨(a.toUInt32 <<< (24 : UInt32)) ||| (r.toUInt32 <<< (16 : UInt32)) |||
    (g.toUInt32 <<< (8 : UInt32)) ||| b.toUInt32⟩

/-- An opaque color. -/
def ofRgb (r g b : UInt8) : Color := ofArgb 0xFF r g b

/-- The alpha channel: zero is invisible, 255 is opaque. -/
def alpha (c : Color) : UInt8 := (c.argb >>> 24).toUInt8

/-- The red channel. -/
def red (c : Color) : UInt8 := (c.argb >>> 16).toUInt8

/-- The green channel. -/
def green (c : Color) : UInt8 := (c.argb >>> 8).toUInt8

/-- The blue channel. -/
def blue (c : Color) : UInt8 := c.argb.toUInt8

/-- The same color with another alpha. -/
def withAlpha (c : Color) (a : UInt8) : Color :=
  ⟨(c.argb &&& (0x00FFFFFF : UInt32)) ||| (a.toUInt32 <<< (24 : UInt32))⟩

/-- Whether painting with the color leaves no trace. -/
def isTransparent (c : Color) : Bool := c.alpha == 0

/-- Red, green, blue and alpha as fractions of one. -/
def fractions (c : Color) : List Float32 :=
  [c.red, c.green, c.blue, c.alpha].map fun channel => channel.toFloat32 / 255.0

/-! ## Named colors -/

/-- Fully transparent black. -/
def transparent : Color := ⟨0x00000000⟩
def black : Color := ⟨0xFF000000⟩
def white : Color := ⟨0xFFFFFFFF⟩
def pureRed : Color := ⟨0xFFFF0000⟩
def pureGreen : Color := ⟨0xFF00FF00⟩
def pureBlue : Color := ⟨0xFF0000FF⟩
def gray : Color := ⟨0xFF808080⟩

instance : Inhabited Color := ⟨transparent⟩

/-! ## Text -/

/-- The value of a hexadecimal digit in either case. -/
def hexDigit? (c : Char) : Option Nat :=
  if '0' ≤ c ∧ c ≤ '9' then some (c.toNat - '0'.toNat)
  else if 'a' ≤ c ∧ c ≤ 'f' then some (c.toNat - 'a'.toNat + 10)
  else if 'A' ≤ c ∧ c ≤ 'F' then some (c.toNat - 'A'.toNat + 10)
  else none

/-- The number that hexadecimal digits spell, the highest first. -/
def ofDigits (digits : List Nat) : Nat := digits.foldl (fun value d => 16 * value + d) 0

/-- The color that a run of digits spells: six are opaque, eight carry their alpha, and no other
count is a color. -/
def ofHexDigits? (digits : List Nat) : Option Color :=
  if digits.length = 6 then some ⟨(0xFF000000 : UInt32) ||| (ofDigits digits).toUInt32⟩
  else if digits.length = 8 then some ⟨(ofDigits digits).toUInt32⟩
  else none

/-- Reads a color from the characters of a text; blanks around it and hash marks in front of it
carry no meaning. -/
def ofChars? (cs : List Char) : Option Color :=
  (((Text.trimBlanks cs).dropWhile (· == '#')).mapM hexDigit?).bind ofHexDigits?

/-- Reads a color, or reports the text as it was given. -/
def parse (text : String) : Except StyleError Color :=
  match ofChars? text.toList with
  | some color => .ok color
  | none => .error (.invalidColor text)

/-- The upper-case hexadecimal digit of a number below sixteen. -/
def hexDigit (n : Nat) : Char :=
  if n < 10 then Char.ofNat ('0'.toNat + n) else Char.ofNat ('A'.toNat + (n - 10))

/-- The eight upper-case digits of the packed word, after a hash mark. -/
def toText (c : Color) : String :=
  String.ofList
    ('#' :: [28, 24, 20, 16, 12, 8, 4, 0].map fun place => hexDigit (c.argb.toNat >>> place % 16))

end Color

end StyledScene
