import Mathlib.Data.List.Forall2
import StyledScene.Proofs.Color.Channels
import StyledScene.Proofs.Text.Trimming

/-!
# Hexadecimal texts of a color

Bytes are spelled with two digits each, the high half first, in letters of either size. The reader takes
a digit for its entry in the table of digits (`hexDigit?_eq_some_iff`), and eight digits for the number
with the four bytes as digits in base 256. So every spelling of the channels is read as their color, and a
color is read back from its own text (`parse_toText`).
-/

namespace StyledScene.Color

/-! ## §1 Digits -/

/-- The hexadecimal digits with their values, the letters in either size. -/
def digitValues : List (Char × Nat) :=
  "0123456789abcdef".toList.zipIdx ++ "ABCDEF".toList.zipIdx 10

/-- A hexadecimal digit, its letter in either size. -/
def IsHexDigit (c : Char) : Prop := c ∈ digitValues.map Prod.fst

instance : DecidablePred IsHexDigit := fun c => inferInstanceAs (Decidable (c ∈ digitValues.map Prod.fst))

theorem hexDigit?_of_mem : ∀ entry ∈ digitValues, hexDigit? entry.1 = some entry.2 := by
  decide +kernel

/-- A character with a value is one of ASCII. -/
theorem toNat_lt_of_hexDigit? {c : Char} {d : Nat} (h : hexDigit? c = some d) : c.toNat < 128 := by
  have hnat : c.toNat = c.val.toNat := rfl
  have hends : '9'.val.toNat = 0x39 ∧ 'f'.val.toNat = 0x66 ∧ 'F'.val.toNat = 0x46 := ⟨rfl, rfl, rfl⟩
  simp only [hexDigit?, Char.le_def, UInt32.le_iff_toNat_le] at h
  split at h
  · omega
  · split at h
    · omega
    · split at h
      · omega
      · cases h

/-- The reader knows the digits of the table and no others. -/
theorem hexDigit?_eq_some_iff {c : Char} {d : Nat} : hexDigit? c = some d ↔ (c, d) ∈ digitValues := by
  constructor
  · intro h
    have hascii : ∀ code < 128, ∀ value ∈ hexDigit? (Char.ofNat code),
        (Char.ofNat code, value) ∈ digitValues := by
      decide +kernel
    have hentry := hascii c.toNat (toNat_lt_of_hexDigit? h) d
    rw [Char.ofNat_toNat] at hentry
    exact hentry h
  · exact hexDigit?_of_mem (c, d)

/-- A run of digits is read entry by entry. -/
theorem mapM_hexDigit?_eq_some_iff {cs : List Char} {ds : List Nat} :
    cs.mapM hexDigit? = some ds ↔ List.Forall₂ (fun c d => (c, d) ∈ digitValues) cs ds := by
  induction cs generalizing ds with
  | nil => cases ds <;> simp
  | cons c rest ih => cases ds <;> simp [Option.bind_eq_some_iff, hexDigit?_eq_some_iff, ih, and_comm]

/-- What has a value for each character consists of digits. -/
theorem isHexDigit_of_forall₂ {cs : List Char} {ds : List Nat}
    (h : List.Forall₂ (fun c d => (c, d) ∈ digitValues) cs ds) : ∀ c ∈ cs, IsHexDigit c := by
  induction h with
  | nil => simp
  | cons hentry _ ih => exact List.forall_mem_cons.mpr ⟨List.mem_map_of_mem hentry, ih⟩

theorem exists_forall₂_of_isHexDigit {cs : List Char} (h : ∀ c ∈ cs, IsHexDigit c) :
    ∃ ds, List.Forall₂ (fun c d => (c, d) ∈ digitValues) cs ds := by
  induction cs with
  | nil => exact ⟨[], .nil⟩
  | cons c rest ih =>
    obtain ⟨hc, hrest⟩ := List.forall_mem_cons.mp h
    obtain ⟨⟨c, d⟩, hentry, rfl⟩ := List.mem_map.mp hc
    obtain ⟨ds, hds⟩ := ih hrest
    exact ⟨d :: ds, .cons hentry hds⟩

/-! ## §2 Texts of digits -/

/-- The text is a run of hash marks and then the digits, with blanks around them. -/
def Written (marks : Nat) (digits : List Char) (text : String) : Prop :=
  ∃ before after : List Char, (∀ c ∈ before ++ after, Text.isBlank c = true) ∧
    text = String.ofList (before ++ (List.replicate marks '#' ++ digits) ++ after)

section Reading

variable {marks : Nat} {digits : List Char} {text : String}

theorem isBlank_of_isHexDigit {c : Char} (h : IsHexDigit c) : Text.isBlank c = false := by
  have htable : ∀ entry ∈ digitValues, Text.isBlank entry.1 = false := by decide +kernel
  obtain ⟨entry, hentry, rfl⟩ := List.mem_map.mp h
  exact htable entry hentry

theorem not_isHexDigit_mark : ¬ IsHexDigit '#' := by decide +kernel

/-- Neither a hash mark nor a digit is blank. -/
theorem isBlank_of_mem_body (hdigits : ∀ c ∈ digits, IsHexDigit c) :
    ∀ c ∈ List.replicate marks '#' ++ digits, Text.isBlank c = false := by
  intro c hc
  rcases List.mem_append.mp hc with hmark | hdigit
  · rw [List.eq_of_mem_replicate hmark]
    decide
  · exact isBlank_of_isHexDigit (hdigits c hdigit)

theorem trimBlanks_written (h : Written marks digits text) (hdigits : ∀ c ∈ digits, IsHexDigit c) :
    Text.trimBlanks text.toList = List.replicate marks '#' ++ digits := by
  obtain ⟨before, after, hblank, rfl⟩ := h
  obtain ⟨hbefore, hafter⟩ := List.forall_mem_append.mp hblank
  have hbody : ∀ c ∈ List.replicate marks '#' ++ digits, Text.isBlank c = false :=
    isBlank_of_mem_body hdigits
  rw [String.toList_ofList, Text.trimBlanks_surround hbefore hafter]
  exact Text.trimBlanks_eq_self (fun c hc => hbody c (List.mem_of_mem_head? hc))
    fun c hc => hbody c (List.mem_of_mem_getLast? hc)

theorem dropWhile_marks (hdigits : ∀ c ∈ digits, IsHexDigit c) :
    (List.replicate marks '#' ++ digits).dropWhile (· == '#') = digits := by
  have hmarks : ∀ c ∈ List.replicate marks '#', (c == '#') = true := fun c hc => by
    simp [List.eq_of_mem_replicate hc]
  rw [List.dropWhile_append_of_pos hmarks]
  cases digits with
  | nil => rfl
  | cons c rest =>
    have hc : c ≠ '#' := by
      rintro rfl
      exact not_isHexDigit_mark (hdigits _ List.mem_cons_self)
    simp [hc]

/-- Of a text with digits, the digits decide. -/
theorem ofChars?_written (h : Written marks digits text) (hdigits : ∀ c ∈ digits, IsHexDigit c) :
    ofChars? text.toList = (digits.mapM hexDigit?).bind ofHexDigits? := by
  rw [ofChars?, trimBlanks_written h hdigits, dropWhile_marks hdigits]

theorem parse_eq_ok_iff {c : Color} : parse text = .ok c ↔ ofChars? text.toList = some c := by
  unfold parse
  split
  · rename_i color hcolor
    rw [hcolor, Except.ok.injEq, Option.some.injEq]
  · rename_i hnone
    rw [hnone]
    exact ⟨nofun, nofun⟩

theorem parse_eq_error_iff {e : StyleError} :
    parse text = .error e ↔ ofChars? text.toList = none ∧ e = .invalidColor text := by
  unfold parse
  split
  · rename_i color hcolor
    rw [hcolor]
    exact ⟨nofun, nofun⟩
  · rename_i hnone
    rw [hnone, Except.error.injEq, eq_comm (a := e)]
    simp

end Reading

/-! ## §3 Spelled bytes -/

/-- The two digits of a byte as numbers, the high half first. -/
def halves (b : UInt8) : List Nat := [b.toNat / 16, b.toNat % 16]

/-- The digits spell the bytes. -/
def Spell (digits : List Char) (bytes : List UInt8) : Prop :=
  List.Forall₂ (fun c d => (c, d) ∈ digitValues) digits (bytes.flatMap halves)

/-- Four bytes in digits are the packed word. -/
theorem ofHexDigits?_four (a r g b : UInt8) :
    ofHexDigits? ([a, r, g, b].flatMap halves) = some (ofArgb a r g b) := by
  have hvalue : ofDigits ([a, r, g, b].flatMap halves) =
      a.toNat * 0x1000000 + r.toNat * 0x10000 + g.toNat * 0x100 + b.toNat := by
    simp only [ofDigits, halves, List.flatMap_cons, List.flatMap_nil, List.cons_append, List.nil_append,
      List.foldl_cons, List.foldl_nil]
    omega
  have hword : (ofArgb a r g b).argb = (ofDigits ([a, r, g, b].flatMap halves)).toUInt32 := by
    apply UInt32.toNat_inj.mp
    have hlt := (ofArgb a r g b).argb.toNat_lt
    rw [toNat_ofArgb] at hlt ⊢
    rw [hvalue, Nat.toUInt32_eq, UInt32.toNat_ofNat_of_lt' hlt]
  rw [ofHexDigits?, ← hword]
  rfl

/-- Three bytes in digits are the packed word of an opaque color. -/
theorem ofHexDigits?_three (r g b : UInt8) :
    ofHexDigits? ([r, g, b].flatMap halves) = some (ofRgb r g b) := by
  have hr := r.toNat_lt
  have hg := g.toNat_lt
  have hb := b.toNat_lt
  have hvalue : ofDigits ([r, g, b].flatMap halves) =
      r.toNat * 0x10000 + g.toNat * 0x100 + b.toNat := by
    simp only [ofDigits, halves, List.flatMap_cons, List.flatMap_nil, List.cons_append, List.nil_append,
      List.foldl_cons, List.foldl_nil]
    omega
  have hword : (0xFF000000 : UInt32) ||| (ofDigits ([r, g, b].flatMap halves)).toUInt32 =
      (ofRgb r g b).argb := by
    apply UInt32.toNat_inj.mp
    rw [ofRgb, toNat_ofArgb, hvalue, UInt32.toNat_or, Nat.toUInt32_eq,
      UInt32.toNat_ofNat_of_lt' (by rw [UInt32.size]; omega)]
    have hfullAlpha : (0xFF000000 : UInt32).toNat = (0xFF : UInt8).toNat <<< 24 := rfl
    rw [hfullAlpha, or_eq_add (by omega)]
    omega
  rw [ofHexDigits?, hword]
  rfl

section Spelled

variable {marks : Nat} {digits : List Char} {text : String}

theorem ofChars?_spell {bytes : List UInt8} (h : Written marks digits text) (hspell : Spell digits bytes) :
    ofChars? text.toList = ofHexDigits? (bytes.flatMap halves) := by
  rw [ofChars?_written h (isHexDigit_of_forall₂ hspell), mapM_hexDigit?_eq_some_iff.mpr hspell]
  rfl

theorem parse_spell_four {a r g b : UInt8} (h : Written marks digits text)
    (hspell : Spell digits [a, r, g, b]) : parse text = .ok (ofArgb a r g b) := by
  rw [parse_eq_ok_iff, ofChars?_spell h hspell, ofHexDigits?_four]

theorem parse_spell_three {r g b : UInt8} (h : Written marks digits text)
    (hspell : Spell digits [r, g, b]) : parse text = .ok (ofRgb r g b) := by
  rw [parse_eq_ok_iff, ofChars?_spell h hspell, ofHexDigits?_three]

end Spelled

/-! ## §4 The text of a color -/

theorem hexDigit_mem_digitValues : ∀ d < 16, (hexDigit d, d) ∈ digitValues := by decide +kernel

/-- Bytes are spelled by the digits that are written for their halves. -/
theorem spell_map_hexDigit (bytes : List UInt8) : Spell ((bytes.flatMap halves).map hexDigit) bytes := by
  rw [Spell, List.forall₂_map_left_iff, List.forall₂_same]
  intro d hd
  obtain ⟨b, -, hb⟩ := List.mem_flatMap.mp hd
  have hbyte := b.toNat_lt
  simp only [halves, List.mem_cons, List.not_mem_nil, or_false] at hb
  exact hexDigit_mem_digitValues d (by omega)

/-- The text of a color: a hash mark and the digits of its channels. -/
theorem toText_eq (c : Color) :
    c.toText =
      String.ofList ('#' :: ([c.alpha, c.red, c.green, c.blue].flatMap halves).map hexDigit) := by
  have hplaces : ([28, 24, 20, 16, 12, 8, 4, 0].map fun place => c.argb.toNat >>> place % 16) =
      [c.alpha, c.red, c.green, c.blue].flatMap halves := by
    have hword := c.argb.toNat_lt
    simp only [halves, List.flatMap_cons, List.flatMap_nil, List.cons_append, List.nil_append,
      List.map_cons, List.map_nil, toNat_alpha, toNat_red, toNat_green, toNat_blue,
      Nat.shiftRight_eq_div_pow, List.cons.injEq, and_true, true_and]
    omega
  rw [toText, ← hplaces, List.map_map]
  rfl

theorem written_toText (c : Color) :
    Written 1 (([c.alpha, c.red, c.green, c.blue].flatMap halves).map hexDigit) c.toText :=
  ⟨[], [], by simp, by rw [toText_eq]; simp⟩

/-- **A color is read back from its text.** -/
theorem parse_toText (c : Color) : parse c.toText = .ok c := by
  rw [parse_spell_four (written_toText c) (spell_map_hexDigit _), ofArgb_channels]

/-- **The texts of the channels.** Eight digits are read as the color of the bytes they spell and six as
the opaque one, with or without a hash mark, in letters of either size and with any blanks around them.
The channels of that color are the bytes, another alpha leaves the others alone, every color is packed
from its channels, and is read back from its text. -/
theorem parse_channels :
    (∀ (a r g b : UInt8) (marks : Nat) (digits : List Char) (text : String), marks ≤ 1 →
        Written marks digits text →
          (Spell digits [a, r, g, b] → parse text = .ok (ofArgb a r g b)) ∧
          (Spell digits [r, g, b] → parse text = .ok (ofRgb r g b))) ∧
      (∀ a r g b : UInt8, (ofArgb a r g b).alpha = a ∧ (ofArgb a r g b).red = r ∧
        (ofArgb a r g b).green = g ∧ (ofArgb a r g b).blue = b) ∧
      (∀ r g b : UInt8, (ofRgb r g b).alpha = 0xFF ∧ (ofRgb r g b).red = r ∧
        (ofRgb r g b).green = g ∧ (ofRgb r g b).blue = b) ∧
      (∀ (c : Color) (x : UInt8), (c.withAlpha x).alpha = x ∧ (c.withAlpha x).red = c.red ∧
        (c.withAlpha x).green = c.green ∧ (c.withAlpha x).blue = c.blue) ∧
      (∀ c : Color, ofArgb c.alpha c.red c.green c.blue = c) ∧
      ∀ c : Color, parse c.toText = .ok c := by
  refine ⟨?_, channels_ofArgb, channels_ofArgb 0xFF, ?_, ofArgb_channels, parse_toText⟩
  · intro a r g b marks digits text _ hwritten
    exact ⟨parse_spell_four hwritten, parse_spell_three hwritten⟩
  · intro c x
    have hpacked : c.withAlpha x = ofArgb x c.red c.green c.blue := by
      rw [← withAlpha_ofArgb c.alpha, ofArgb_channels]
    rw [hpacked]
    exact channels_ofArgb x c.red c.green c.blue

/-- Letters of both sizes behind a hash mark, with a space in front and a wide one behind. -/
theorem parse_mixedLetters :
    parse " #80fFaB00\u3000" = .ok (ofArgb 0x80 0xFF 0xAB 0x00) ∧
      parse "fFaB00" = .ok (ofRgb 0xFF 0xAB 0x00) := by
  have hmarked : Written 1 "80fFaB00".toList " #80fFaB00\u3000" :=
    ⟨[' '], ['\u3000'], by simp [Text.isBlank, Text.blankRanges, Text.inRanges], by decide⟩
  have hplain : Written 0 "fFaB00".toList "fFaB00" := ⟨[], [], by simp, by decide⟩
  have hfour : Spell "80fFaB00".toList [0x80, 0xFF, 0xAB, 0x00] :=
    mapM_hexDigit?_eq_some_iff.mp (by decide +kernel)
  have hthree : Spell "fFaB00".toList [0xFF, 0xAB, 0x00] :=
    mapM_hexDigit?_eq_some_iff.mp (by decide +kernel)
  exact ⟨(parse_channels.1 0x80 0xFF 0xAB 0x00 1 _ _ (by decide) hmarked).1 hfour,
    (parse_channels.1 0x80 0xFF 0xAB 0x00 0 _ _ (by decide) hplain).2 hthree⟩

end StyledScene.Color
