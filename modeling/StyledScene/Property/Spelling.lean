import StyledScene.Text.Blank

/-!
# Spellings of property names

A property has one name, its words joined by hyphens. The same words joined by underscores, or glued
together with a capital at the head of each word, are spellings of that name.
-/

namespace StyledScene.Property

/-- Joins words by hyphens. `afterSmall` says that a small letter or digit comes just before: there a
capital starts a new word. -/
def hyphenate (afterSmall : Bool) : List Char → List Char
  | [] => []
  | c :: rest =>
    if c = '_' ∨ c = '-' then '-' :: hyphenate false rest
    else if c.isUpper then
      if afterSmall then '-' :: c.toLower :: hyphenate false rest
      else c.toLower :: hyphenate false rest
    else c :: hyphenate (c.isLower || c.isDigit) rest

/-- The hyphenated form of a name given by its characters, without the blanks around it. -/
def normalizeChars (cs : List Char) : List Char := hyphenate false (Text.trimBlanks cs)

/-- The hyphenated form of a name, which the look-up of properties goes by. -/
def normalize (name : String) : String := String.ofList (normalizeChars name.toList)

/-- Writes a hyphenated name as one word: a capital at the head of each of its words, no hyphens. -/
def capitalizeWords (startsWord : Bool) : List Char → List Char
  | [] => []
  | c :: rest =>
    if c = '-' then capitalizeWords true rest
    else (if startsWord then c.toUpper else c) :: capitalizeWords false rest

end StyledScene.Property
