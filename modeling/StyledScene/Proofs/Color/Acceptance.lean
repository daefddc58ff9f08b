import StyledScene.Proofs.Color.HexText

/-!
# Which texts are colors

Hash marks and then six or eight digits, with blanks around them, are a color, and nothing else is
(`exists_parse_iff`). One mark at most is the form that authors are told of, and a text that does not begin
with two is a color iff it has that form. Reading the digits into a word one by one, with a check against
overflow at each, gives the same answers (`ofStages?_eq`): six or eight digits always fit.
-/

namespace StyledScene.Color

/-! ## §1 The form of a color -/

/-- Hash marks and then six or eight hexadecimal digits, with blanks around them. -/
def HexForm (marks : Nat) (text : String) : Prop :=
  ∃ digits, Written marks digits text ∧ (∀ c ∈ digits, IsHexDigit c) ∧
    (digits.length = 6 ∨ digits.length = 8)

section Form

variable {marks : Nat} {cs : List Char} {ds : List Nat} {text : String}

/-- The count of the digits decides whether they are a color. -/
theorem exists_ofHexDigits?_iff : (∃ c, ofHexDigits? ds = some c) ↔ ds.length = 6 ∨ ds.length = 8 := by
  unfold ofHexDigits?
  split
  · simp_all
  · split <;> simp_all

theorem exists_replicate_append_dropWhile (mark : Char) (cs : List Char) :
    ∃ marks, cs = List.replicate marks mark ++ cs.dropWhile (· == mark) := by
  refine ⟨(cs.takeWhile (· == mark)).length, ?_⟩
  have hmarks : ∀ c ∈ cs.takeWhile (· == mark), c = mark := fun c hc =>
    beq_iff_eq.mp (List.all_eq_true.mp List.all_takeWhile c hc)
  rw [← List.eq_replicate_of_mem hmarks, List.takeWhile_append_dropWhile]

/-- Every text is written with some marks and the rest of what trimming leaves. -/
theorem exists_written (text : String) :
    ∃ marks, Written marks ((Text.trimBlanks text.toList).dropWhile (· == '#')) text := by
  obtain ⟨before, after, hblank, htext⟩ := Text.exists_surround_trimBlanks text.toList
  obtain ⟨marks, hmarks⟩ := exists_replicate_append_dropWhile '#' (Text.trimBlanks text.toList)
  refine ⟨marks, before, after, hblank, ?_⟩
  rw [← hmarks, ← htext, String.ofList_toList]

/-- **A text is a color iff it has the form of one**, with any number of marks. -/
theorem exists_parse_iff : (∃ c, parse text = .ok c) ↔ ∃ marks, HexForm marks text := by
  constructor
  · rintro ⟨c, hc⟩
    rw [parse_eq_ok_iff, ofChars?, Option.bind_eq_some_iff] at hc
    obtain ⟨ds, hds, hcolor⟩ := hc
    obtain ⟨marks, hwritten⟩ := exists_written text
    rw [mapM_hexDigit?_eq_some_iff] at hds
    have hcount := exists_ofHexDigits?_iff.mp ⟨c, hcolor⟩
    rw [← hds.length_eq] at hcount
    exact ⟨marks, _, hwritten, isHexDigit_of_forall₂ hds, hcount⟩
  · rintro ⟨marks, digits, hwritten, hdigits, hcount⟩
    obtain ⟨ds, hds⟩ := exists_forall₂_of_isHexDigit hdigits
    rw [hds.length_eq] at hcount
    obtain ⟨c, hc⟩ := exists_ofHexDigits?_iff.mpr hcount
    refine ⟨c, ?_⟩
    rw [parse_eq_ok_iff, ofChars?_written hwritten hdigits, mapM_hexDigit?_eq_some_iff.mpr hds]
    exact hc

/-- The other texts are refused as they were given. -/
theorem parse_eq_error_of_not_hexForm (h : ¬ ∃ marks, HexForm marks text) :
    parse text = .error (.invalidColor text) := by
  rw [parse_eq_error_iff]
  refine ⟨Option.eq_none_iff_forall_ne_some.mpr fun c hc => h ?_, rfl⟩
  exact exists_parse_iff.mp ⟨c, parse_eq_ok_iff.mpr hc⟩

/-- The marks are at the front of what trimming leaves. -/
theorem HexForm.marks_le_one (h : HexForm marks text)
    (htwo : ¬ ['#', '#'] <+: Text.trimBlanks text.toList) : marks ≤ 1 := by
  obtain ⟨digits, hwritten, hdigits, -⟩ := h
  rw [trimBlanks_written hwritten hdigits] at htwo
  by_contra hmany
  obtain ⟨more, rfl⟩ : ∃ more, marks = more + 2 := ⟨marks - 2, by omega⟩
  exact htwo ⟨List.replicate more '#' ++ digits, by simp [List.replicate_succ]⟩

end Form

/-! ## §2 Digits into a word -/

/-- The number, if a word has room for it. -/
def inWord? (n : Nat) : Option Nat := if n < 0x100000000 then some n else none

/-- Puts digits behind a word one by one, up to a character that is none or a number without room. -/
def intoWord? (word : Nat) : List Char → Option Nat
  | [] => some word
  | c :: rest =>
    (hexDigit? c).bind fun d =>
      (inWord? (16 * word)).bind fun shifted => (inWord? (shifted + d)).bind fun next => intoWord? next rest

/-- A number in base sixteen: digits, at least one, and a plus sign in front if need be. -/
def ofBase16? : List Char → Option Nat
  | [] => none
  | ['+'] => none
  | '+' :: rest => intoWord? 0 rest
  | cs => intoWord? 0 cs

/-- The number of bytes of a text in UTF-8. -/
def utf8Length (cs : List Char) : Nat := cs.foldr (fun c length => c.utf8Size + length) 0

/-- Reads a color in stages: blanks and marks go, what is left has to be digits and a number with room in
a word, and its bytes in UTF-8 are counted. -/
def ofStages? (cs : List Char) : Option Color :=
  let body := (Text.trimBlanks cs).dropWhile (· == '#')
  let bytes := utf8Length body
  if body.all fun c => decide (IsHexDigit c) then
    (ofBase16? body).bind fun word =>
      if bytes = 6 then some ⟨(0xFF000000 : UInt32) ||| word.toUInt32⟩
      else if bytes = 8 then some ⟨word.toUInt32⟩
      else none
  else none

section Stages

variable {cs : List Char} {ds : List Nat}

theorem le_foldl_digits (ds : List Nat) (word : Nat) :
    word ≤ ds.foldl (fun value d => 16 * value + d) word := by
  induction ds generalizing word with
  | nil => exact Nat.le_refl word
  | cons d rest ih =>
    have hnext := ih (16 * word + d)
    rw [List.foldl_cons]
    omega

theorem foldl_digits_lt (h : ∀ d ∈ ds, d < 16) (word : Nat) :
    ds.foldl (fun value d => 16 * value + d) word < (word + 1) * Nat.pow 16 ds.length := by
  induction ds generalizing word with
  | nil => simp
  | cons d rest ih =>
    obtain ⟨hd, hrest⟩ := List.forall_mem_cons.mp h
    calc rest.foldl (fun value d => 16 * value + d) (16 * word + d)
        < (16 * word + d + 1) * Nat.pow 16 rest.length := ih hrest _
      _ ≤ ((word + 1) * 16) * Nat.pow 16 rest.length := Nat.mul_le_mul_right _ (by omega)
      _ = (word + 1) * Nat.pow 16 (d :: rest).length := by
        rw [List.length_cons, Nat.mul_assoc, Nat.mul_comm 16]
        rfl

/-- The checks on the way come to one check of the number. -/
theorem intoWord?_eq (h : List.Forall₂ (fun c d => (c, d) ∈ digitValues) cs ds) {word : Nat}
    (hword : word < 0x100000000) :
    intoWord? word cs = inWord? (ds.foldl (fun value d => 16 * value + d) word) := by
  induction h generalizing word with
  | nil => simp [intoWord?, inWord?, hword]
  | @cons c d rest ds hentry _ ih =>
    rw [intoWord?, hexDigit?_eq_some_iff.mpr hentry, List.foldl_cons, Option.bind_some]
    have hlast := le_foldl_digits ds (16 * word + d)
    by_cases hroom : 16 * word + d < 0x100000000
    · have hshift : 16 * word < 0x100000000 := by omega
      have hnext : inWord? (16 * word + d) = some (16 * word + d) := if_pos hroom
      rw [inWord?, if_pos hshift, Option.bind_some, hnext, Option.bind_some, ih hroom]
    · -- a number without room has none with more digits
      have hfull : inWord? (ds.foldl (fun value d => 16 * value + d) (16 * word + d)) = none :=
        if_neg (by omega)
      rw [hfull]
      unfold inWord?
      split
      · simp [hroom]
      · rfl

theorem utf8Size_of_isHexDigit {c : Char} (h : IsHexDigit c) : c.utf8Size = 1 := by
  have htable : ∀ entry ∈ digitValues, entry.1.utf8Size = 1 := by decide +kernel
  obtain ⟨entry, hentry, rfl⟩ := List.mem_map.mp h
  exact htable entry hentry

theorem utf8Length_of_isHexDigit (h : ∀ c ∈ cs, IsHexDigit c) : utf8Length cs = cs.length := by
  induction cs with
  | nil => rfl
  | cons c rest ih =>
    obtain ⟨hc, hrest⟩ := List.forall_mem_cons.mp h
    have hlength := ih hrest
    rw [utf8Length] at hlength ⊢
    rw [List.foldr_cons, utf8Size_of_isHexDigit hc, hlength, List.length_cons, Nat.add_comm]

/-- Digits have no sign in front. -/
theorem ofBase16?_eq (h : ∀ c ∈ cs, IsHexDigit c) (hne : cs ≠ []) : ofBase16? cs = intoWord? 0 cs := by
  have hplus : ¬ IsHexDigit '+' := by decide +kernel
  unfold ofBase16?
  split
  · exact absurd rfl hne
  · exact absurd (h '+' List.mem_cons_self) hplus
  · exact absurd (h '+' List.mem_cons_self) hplus
  · rfl

theorem value_lt_of_forall₂ (h : List.Forall₂ (fun c d => (c, d) ∈ digitValues) cs ds) :
    ∀ d ∈ ds, d < 16 := by
  have htable : ∀ entry ∈ digitValues, entry.2 < 16 := by decide +kernel
  induction h with
  | nil => simp
  | cons hentry _ ih => exact List.forall_mem_cons.mpr ⟨htable _ hentry, ih⟩

/-- Six or eight digits have room in a word. -/
theorem inWord?_ofDigits (h : ∀ d ∈ ds, d < 16) (hcount : ds.length ≤ 8) :
    inWord? (ofDigits ds) = some (ofDigits ds) := by
  have hbound := foldl_digits_lt h 0
  have hpow : Nat.pow 16 ds.length ≤ Nat.pow 16 8 := Nat.pow_le_pow_right (by decide) hcount
  have height : Nat.pow 16 8 = 0x100000000 := by decide
  exact if_pos (by rw [ofDigits]; omega)

/-- **Reading in stages finds the same colors.** -/
theorem ofStages?_eq (cs : List Char) : ofStages? cs = ofChars? cs := by
  rw [ofStages?, ofChars?]
  generalize (Text.trimBlanks cs).dropWhile (· == '#') = body
  have hcheck : (body.all fun c => decide (IsHexDigit c)) = true ↔ ∀ c ∈ body, IsHexDigit c := by simp
  by_cases hdigits : ∀ c ∈ body, IsHexDigit c
  · obtain ⟨ds, hds⟩ := exists_forall₂_of_isHexDigit hdigits
    rw [if_pos (hcheck.mpr hdigits), mapM_hexDigit?_eq_some_iff.mpr hds, utf8Length_of_isHexDigit hdigits,
      hds.length_eq, Option.bind_some]
    by_cases hempty : body = []
    · subst hempty
      cases hds
      rfl
    · have hroom : 0 < 0x100000000 := by decide
      have hvalue := intoWord?_eq hds hroom
      rw [ofBase16?_eq hdigits hempty, hvalue, ← ofDigits, ofHexDigits?]
      by_cases hcount : ds.length ≤ 8
      · rw [inWord?_ofDigits (value_lt_of_forall₂ hds) hcount, Option.bind_some]
      · -- too many digits are refused, whether or not they have room
        have hsix : ds.length ≠ 6 := by omega
        have height : ds.length ≠ 8 := by omega
        simp only [hsix, height, if_false, Option.bind_fun_none]
  · have hnone : body.mapM hexDigit? = none :=
      Option.eq_none_iff_forall_ne_some.mpr fun ds hds =>
        hdigits (isHexDigit_of_forall₂ (mapM_hexDigit?_eq_some_iff.mp hds))
    rw [if_neg fun hall => hdigits (hcheck.mp hall), hnone]
    rfl

end Stages

/-! ## §3 Colors and refusals -/

/-- **Which texts are colors.** A text that does not begin with two hash marks is a color iff it is six or
eight hexadecimal digits behind one mark or none, with any blanks around them. All in all the colors are
the texts with any number of marks, so marks behind the first go unnoticed. Every other text is refused
as it was given, and reading in stages comes to the same. -/
theorem parse_accepts (text : String) :
    (¬ ['#', '#'] <+: Text.trimBlanks text.toList →
        ((∃ c, parse text = .ok c) ↔ ∃ marks ≤ 1, HexForm marks text)) ∧
      ((∃ c, parse text = .ok c) ↔ ∃ marks, HexForm marks text) ∧
      ((¬ ∃ marks, HexForm marks text) → parse text = .error (.invalidColor text)) ∧
      ofStages? text.toList = ofChars? text.toList := by
  refine ⟨?_, exists_parse_iff, parse_eq_error_of_not_hexForm, ofStages?_eq text.toList⟩
  intro htwo
  rw [exists_parse_iff]
  constructor
  · rintro ⟨marks, hform⟩
    exact ⟨marks, hform.marks_le_one htwo, hform⟩
  · rintro ⟨marks, -, hform⟩
    exact ⟨marks, hform⟩

/-- Digits with a sign between them are refused, digits behind one mark are a color. -/
theorem parse_accepts_marked :
    (∃ c, parse "\t#80204060 " = .ok c) ∧
      parse "#80+04060" = .error (.invalidColor "#80+04060") := by
  have hspell : Spell "80204060".toList [0x80, 0x20, 0x40, 0x60] :=
    mapM_hexDigit?_eq_some_iff.mp (by decide +kernel)
  have hwritten : Written 1 "80204060".toList "\t#80204060 " :=
    ⟨['\t'], [' '], by simp [Text.isBlank, Text.blankRanges, Text.inRanges], by decide⟩
  have hmarked : ∃ marks ≤ 1, HexForm marks "\t#80204060 " :=
    ⟨1, Nat.le_refl 1, _, hwritten, isHexDigit_of_forall₂ hspell, .inr (by decide)⟩
  have hone : ¬ ['#', '#'] <+: Text.trimBlanks "\t#80204060 ".toList := by decide +kernel
  have hsign : ¬ ∃ marks, HexForm marks "#80+04060" := by
    rintro ⟨marks, hform⟩
    obtain ⟨c, hc⟩ := exists_parse_iff.mpr ⟨marks, hform⟩
    have hnone : ofChars? "#80+04060".toList = none := by decide +kernel
    rw [parse_eq_ok_iff, hnone] at hc
    cases hc
  exact ⟨((parse_accepts "\t#80204060 ").1 hone).mpr hmarked, (parse_accepts "#80+04060").2.2.1 hsign⟩

/-- **Two marks are one too many, and are read.** -/
theorem parse_two_marks :
    ¬ ∀ text : String, (∃ c, parse text = .ok c) ↔ ∃ marks ≤ 1, HexForm marks text := by
  intro hclaim
  have hread : parse "##80204060" = .ok ⟨0x80204060⟩ := by decide +kernel
  obtain ⟨marks, hone, digits, hwritten, hdigits, -⟩ := (hclaim "##80204060").mp ⟨_, hread⟩
  have hbody : Text.trimBlanks "##80204060".toList = '#' :: '#' :: "80204060".toList := by
    decide +kernel
  rw [trimBlanks_written hwritten hdigits] at hbody
  -- the second mark is the first digit or behind it
  have hmark : '#' ∈ digits := by
    rcases Nat.le_one_iff_eq_zero_or_eq_one.mp hone with rfl | rfl
    · rw [List.replicate_zero, List.nil_append] at hbody
      rw [hbody]
      exact List.mem_cons_self
    · have hrest : digits = '#' :: "80204060".toList := (List.cons.inj hbody).2
      rw [hrest]
      exact List.mem_cons_self
  exact not_isHexDigit_mark (hdigits _ hmark)

end StyledScene.Color
