import StyledScene.Text.CodeRange

/-!
# Blank characters

A character is blank when Unicode gives it the property `White_Space`. Names, colors and selector
texts are read without the blanks around them, and blanks separate the parts of a selector.
-/

namespace StyledScene.Text

/-- Code points with the property `White_Space`. -/
def blankRanges : List CodeRange := [
    (0x0009, 0x000D), (0x0020, 0x0020), (0x0085, 0x0085), (0x00A0, 0x00A0), (0x1680, 0x1680),
    (0x2000, 0x200A), (0x2028, 0x2029), (0x202F, 0x202F), (0x205F, 0x205F), (0x3000, 0x3000)]

/-- Whether the character is white space. -/
def isBlank (c : Char) : Bool := inRanges c.toNat blankRanges

/-- The characters without the blanks at either end. -/
def trimBlanks (cs : List Char) : List Char :=
  ((cs.dropWhile isBlank).reverse.dropWhile isBlank).reverse

/-- The text without the blanks at either end. -/
def trim (s : String) : String := String.ofList (trimBlanks s.toList)

/-- A text whose ends are not blank is left as it is. -/
theorem trimBlanks_eq_self {cs : List Char} (head : ∀ c ∈ cs.head?, isBlank c = false)
    (last : ∀ c ∈ cs.getLast?, isBlank c = false) : trimBlanks cs = cs := by
  have front : cs.dropWhile isBlank = cs := by
    cases cs with
    | nil => rfl
    | cons c rest => simp [head c rfl]
  have back : cs.reverse.dropWhile isBlank = cs.reverse := by
    cases h : cs.reverse with
    | nil => rfl
    | cons c rest =>
      have isLast : cs.getLast? = some c := by rw [List.getLast?_eq_head?_reverse, h]; rfl
      simp [last c isLast]
  rw [trimBlanks, front, back, List.reverse_reverse]

end StyledScene.Text
