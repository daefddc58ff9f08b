import StyledScene.Text.GlyphData

/-!
# Quoted texts

A text in a diagnostic stands between double quotes. Inside, the quote, the backslash and four
controls have short escapes; every other character that has no glyph of its own, or that would join
the character before it, is written as `\u` with its code point in braces.
-/

namespace StyledScene.Text

/-- Whether the character is a letter that only fills a place and shows nothing: the Hangul fillers. -/
def isFiller (c : Char) : Bool := ['\u115F', '\u1160', '\u3164', '\uFFA0'].contains c

/-- Whether the character extends the one before it but stands beside it with a glyph of its own: the
halfwidth sound marks of Katakana. -/
def isSoundMark (c : Char) : Bool := ['\uFF9E', '\uFF9F'].contains c

/-- Whether the character shows as a glyph of its own. -/
def hasGlyph (c : Char) : Bool :=
  !inRanges c.toNat unprintableRanges && !isFiller c &&
    (isSoundMark c || !inRanges c.toNat graphemeExtendRanges)

/-- A number in lower-case hexadecimal, without leading zeros. -/
def hexDigits (n : Nat) : List Char := Nat.toDigits 16 n

/-- A number in lower-case hexadecimal, filled up with zeros to a width. -/
def paddedHex (width n : Nat) : List Char :=
  List.replicate (width - (hexDigits n).length) '0' ++ hexDigits n

/-- One character as it stands between the quotes. -/
def quoteChar (c : Char) : List Char :=
  if c = '\x00' then ['\\', '0']
  else if c = '\t' then ['\\', 't']
  else if c = '\r' then ['\\', 'r']
  else if c = '\n' then ['\\', 'n']
  else if c = '"' then ['\\', '"']
  else if c = '\\' then ['\\', '\\']
  else if hasGlyph c then [c]
  else ['\\', 'u', '\x7b'] ++ hexDigits c.toNat ++ ['\x7d']

/-- The text between double quotes, escaped. -/
def quoted (s : String) : String :=
  String.ofList (['"'] ++ s.toList.flatMap quoteChar ++ ['"'])

end StyledScene.Text
