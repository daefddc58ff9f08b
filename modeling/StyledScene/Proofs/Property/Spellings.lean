import Mathlib.Data.List.Nodup
import StyledScene.Proofs.Text.Trimming
import StyledScene.Property.Key

/-!
# Spellings of a name

Hyphenating replaces each character by its plain form and puts a hyphen in front of some capitals. So a
second time changes nothing (`normalize_normalize`), and words come out as they went in, whatever sign
joins them and whichever of their letters are capitals (`hyphenate_joined`). Words glued together come
out apart iff no word between the first and the last is a single letter (`hyphenate_camelCase_iff`): a
capital that follows such a word does not follow a small letter.
-/

/-! ## §1 Single characters -/

namespace StyledScene.Text

/-- From `!` to `~` there is no blank. -/
theorem isBlank_eq_false_of_visible {c : Char} (hfirst : 0x21 ≤ c.toNat) (hlast : c.toNat ≤ 0x7E) :
    isBlank c = false := by
  have hbeyond : c.toNat < 0x85 := by omega
  simp only [isBlank, blankRanges, inRanges]
  simp [hbeyond]
  omega

theorem isUpper_iff {c : Char} : c.isUpper = true ↔ 0x41 ≤ c.toNat ∧ c.toNat ≤ 0x5A :=
  decide_eq_true_iff.trans (and_congr UInt32.le_iff_toNat_le UInt32.le_iff_toNat_le)

theorem isLower_iff {c : Char} : c.isLower = true ↔ 0x61 ≤ c.toNat ∧ c.toNat ≤ 0x7A := by
  have hval : c.isLower = true ↔ 'a'.val ≤ c.val ∧ c.val ≤ 'z'.val :=
    (Bool.and_eq_true_iff).trans (and_congr decide_eq_true_iff decide_eq_true_iff)
  exact hval.trans (and_congr UInt32.le_iff_toNat_le UInt32.le_iff_toNat_le)

theorem isDigit_iff {c : Char} : c.isDigit = true ↔ 0x30 ≤ c.toNat ∧ c.toNat ≤ 0x39 := by
  simp [Char.isDigit, UInt32.le_iff_toNat_le]

/-- A capital becomes the small letter 32 places further on. -/
theorem toNat_toLower (c : Char) :
    c.toLower.toNat = if c.isUpper then c.toNat + 32 else c.toNat := by
  by_cases hupper : c.isUpper = true
  · have hrange := isUpper_iff.mp hupper
    have hval : c.val ≥ 'A'.val ∧ c.val ≤ 'Z'.val := of_decide_eq_true hupper
    have hsmall : c.toLower.val = c.val + 32 := congrArg Char.val (dif_pos hval)
    rw [if_pos hupper]
    show c.toLower.val.toNat = c.toNat + 32
    have hnat : c.val.toNat = c.toNat := rfl
    have hstep : (32 : UInt32).toNat = 32 := rfl
    rw [hsmall, UInt32.toNat_add, hnat, hstep]
    omega
  · have hval : ¬ (c.val ≥ 'A'.val ∧ c.val ≤ 'Z'.val) := fun h => hupper (decide_eq_true h)
    have hsame : c.toLower = c := dif_neg hval
    rw [if_neg hupper, hsame]

theorem toNat_toUpper {c : Char} (h : c.isLower = true) : c.toUpper.toNat = c.toNat - 32 := by
  have hrange := isLower_iff.mp h
  have hval : 'a'.val ≤ c.val ∧ c.val ≤ 'z'.val := by
    rw [UInt32.le_iff_toNat_le, UInt32.le_iff_toNat_le]
    exact hrange
  have hcapital : c.toUpper = ⟨c.val + ('A'.val - 'a'.val), _⟩ := dif_pos hval
  rw [hcapital]
  show (c.val + ('A'.val - 'a'.val)).toNat = c.toNat - 32
  have hnat : c.val.toNat = c.toNat := rfl
  have hback : ('A'.val - 'a'.val).toNat = 2 ^ 32 - 32 := rfl
  -- adding this wraps around, which takes 32 away
  rw [UInt32.toNat_add, hnat, hback]
  omega

theorem isBlank_eq_false_of_isAlphanum {c : Char} (h : c.isAlphanum = true) : isBlank c = false := by
  have hcases : ((c.isUpper || c.isLower) || c.isDigit) = true := h
  simp only [Bool.or_eq_true, isUpper_iff, isLower_iff, isDigit_iff] at hcases
  apply isBlank_eq_false_of_visible <;> omega

end StyledScene.Text

namespace StyledScene.Property

/-- What a character becomes, apart from the hyphen in front of a capital. -/
def plainForm (c : Char) : Char := if c = '_' then '-' else c.toLower

/-- Neither an underscore nor a capital, so the same in its plain form. -/
def IsPlain (c : Char) : Prop := c ≠ '_' ∧ c.isUpper = false

theorem isPlain_iff {c : Char} :
    IsPlain c ↔ c.toNat ≠ 0x5F ∧ ¬ (0x41 ≤ c.toNat ∧ c.toNat ≤ 0x5A) := by
  have hunder : c = '_' ↔ c.toNat = 0x5F := Char.toNat_inj.symm
  rw [IsPlain, ne_eq, hunder, ← Text.isUpper_iff, Bool.not_eq_true]

theorem toNat_plainForm {c : Char} (h : c ≠ '_') :
    (plainForm c).toNat = if c.isUpper then c.toNat + 32 else c.toNat := by
  rw [plainForm, if_neg h, Text.toNat_toLower]

theorem isPlain_plainForm (c : Char) : IsPlain (plainForm c) := by
  by_cases hunder : c = '_'
  · subst hunder
    exact ⟨by decide, by decide⟩
  · have hplace := toNat_plainForm hunder
    have hcode : c.toNat ≠ 0x5F := fun h => hunder (Char.toNat_inj.mp h)
    rw [isPlain_iff]
    split at hplace
    · -- a capital becomes a small letter
      rename_i hupper
      have hrange := Text.isUpper_iff.mp hupper
      omega
    · rename_i hupper
      rw [Text.isUpper_iff] at hupper
      omega

theorem IsPlain.plainForm_eq {c : Char} (h : IsPlain c) : plainForm c = c := by
  apply Char.toNat_inj.mp
  rw [toNat_plainForm h.1, h.2]
  rfl

/-- A plain form is blank only if the character is. -/
theorem isBlank_plainForm {c : Char} (h : Text.isBlank c = false) :
    Text.isBlank (plainForm c) = false := by
  by_cases hunder : c = '_'
  · subst hunder
    decide
  · cases hupper : c.isUpper with
    | false => rwa [IsPlain.plainForm_eq ⟨hunder, hupper⟩]
    | true =>
      have hrange := Text.isUpper_iff.mp hupper
      have hplace := toNat_plainForm hunder
      rw [if_pos hupper] at hplace
      apply Text.isBlank_eq_false_of_visible <;> omega

theorem isDigit_eq_false_of_isUpper {c : Char} (h : c.isUpper = true) : c.isDigit = false := by
  rw [Text.isUpper_iff] at h
  rw [Bool.eq_false_iff, ne_eq, Text.isDigit_iff]
  omega

theorem isLower_eq_false_of_isUpper {c : Char} (h : c.isUpper = true) : c.isLower = false := by
  rw [Text.isUpper_iff] at h
  rw [Bool.eq_false_iff, ne_eq, Text.isLower_iff]
  omega

/-- One step: the plain form, behind a hyphen if a capital follows a small letter or a digit. -/
theorem hyphenate_cons (afterSmall : Bool) (c : Char) (rest : List Char) :
    hyphenate afterSmall (c :: rest) =
      (if afterSmall && c.isUpper then ['-'] else []) ++
        plainForm c :: hyphenate (c.isLower || c.isDigit) rest := by
  rw [hyphenate]
  split
  · rename_i hsign
    rcases hsign with rfl | rfl <;> cases afterSmall <;> rfl
  · rename_i hsign
    have hunder : c ≠ '_' := fun heq => hsign (.inl heq)
    split
    · rename_i hupper
      have hlower := isLower_eq_false_of_isUpper hupper
      have hdigit := isDigit_eq_false_of_isUpper hupper
      cases afterSmall <;> simp [plainForm, hunder, hupper, hlower, hdigit]
    · rename_i hupper
      have hplain : IsPlain c := ⟨hunder, Bool.eq_false_iff.mpr hupper⟩
      simp [hplain.plainForm_eq, hupper]

/-! ## §2 Whole names -/

theorem isPlain_of_mem_hyphenate {afterSmall : Bool} {cs : List Char} {c : Char}
    (h : c ∈ hyphenate afterSmall cs) : IsPlain c := by
  induction cs generalizing afterSmall with
  | nil => cases h
  | cons d rest ih =>
    rw [hyphenate_cons, List.mem_append, List.mem_cons] at h
    rcases h with hhyphen | rfl | hrest
    · split at hhyphen
      · obtain rfl := List.mem_singleton.mp hhyphen
        exact ⟨by decide, by decide⟩
      · cases hhyphen
    · exact isPlain_plainForm d
    · exact ih hrest

theorem hyphenate_of_isPlain {cs : List Char} (h : ∀ c ∈ cs, IsPlain c) (afterSmall : Bool) :
    hyphenate afterSmall cs = cs := by
  induction cs generalizing afterSmall with
  | nil => rfl
  | cons c rest ih =>
    obtain ⟨hc, hrest⟩ := List.forall_mem_cons.mp h
    rw [hyphenate_cons, hc.plainForm_eq, hc.2, ih hrest]
    simp

/-- No hyphen is put in front of the first character. -/
theorem head?_hyphenate (cs : List Char) : (hyphenate false cs).head? = cs.head?.map plainForm := by
  cases cs with
  | nil => rfl
  | cons c rest => simp [hyphenate_cons]

/-- The last character stays the last one. -/
theorem getLast?_hyphenate (afterSmall : Bool) (cs : List Char) :
    (hyphenate afterSmall cs).getLast? = cs.getLast?.map plainForm := by
  induction cs generalizing afterSmall with
  | nil => rfl
  | cons c rest ih =>
    rw [hyphenate_cons, List.getLast?_append, List.getLast?_cons, List.getLast?_cons, ih]
    cases rest.getLast? <;> rfl

/-- The hyphenated form has no blanks around it. -/
theorem trimBlanks_normalizeChars (cs : List Char) :
    Text.trimBlanks (normalizeChars cs) = normalizeChars cs := by
  apply Text.trimBlanks_eq_self
  · intro c hc
    rw [normalizeChars, head?_hyphenate] at hc
    obtain ⟨d, hd, rfl⟩ := Option.map_eq_some_iff.mp hc
    exact isBlank_plainForm (Text.isBlank_head?_trimBlanks cs d hd)
  · intro c hc
    rw [normalizeChars, getLast?_hyphenate] at hc
    obtain ⟨d, hd, rfl⟩ := Option.map_eq_some_iff.mp hc
    exact isBlank_plainForm (Text.isBlank_getLast?_trimBlanks cs d hd)

theorem isPlain_of_mem_normalize {name : String} {c : Char} (h : c ∈ (normalize name).toList) :
    IsPlain c := by
  rw [normalize, String.toList_ofList] at h
  exact isPlain_of_mem_hyphenate h

/-- **Hyphenating twice is hyphenating once.** -/
theorem normalize_normalize (name : String) : normalize (normalize name) = normalize name := by
  have hplain : ∀ c ∈ normalizeChars name.toList, IsPlain c := fun c hc => isPlain_of_mem_hyphenate hc
  have htwice : normalizeChars (normalizeChars name.toList) = normalizeChars name.toList := by
    rw [normalizeChars, trimBlanks_normalizeChars, hyphenate_of_isPlain hplain]
  rw [normalize, normalize, String.toList_ofList, htwice]

/-! ## §3 Words -/

/-- A word of a name: small letters of ASCII, at least one. -/
def IsWord (w : List Char) : Prop := w ≠ [] ∧ ∀ c ∈ w, c.isLower = true

instance : DecidablePred IsWord := fun w =>
  decidable_of_iff (w ≠ [] ∧ w.all Char.isLower = true) (by simp [IsWord])

/-- The word with a capital at its head. -/
def capitalize : List Char → List Char
  | [] => []
  | c :: rest => c.toUpper :: rest

/-- Which letters of a word are written as capitals. -/
inductive Capitals where
  | none
  | first
  | all

/-- Writes a word. -/
def Capitals.write : Capitals → List Char → List Char
  | .none, w => w
  | .first, w => capitalize w
  | .all, w => w.map Char.toUpper

/-- The words one behind the other, with a capital at the head of each but the first. -/
def camelCase : List (List Char) → List Char
  | [] => []
  | first :: later => first ++ later.flatMap capitalize

/-- The words with a sign between neighbours. -/
def joined (sign : Char) (words : List (List Char)) : List Char := [sign].intercalate words

theorem isPlain_of_isLower {c : Char} (h : c.isLower = true) : IsPlain c := by
  rw [Text.isLower_iff] at h
  rw [isPlain_iff]
  omega

theorem isUpper_toUpper {c : Char} (h : c.isLower = true) : c.toUpper.isUpper = true := by
  have hplace := Text.toNat_toUpper h
  rw [Text.isLower_iff] at h
  rw [Text.isUpper_iff]
  omega

/-- A capital has its small letter as plain form. -/
theorem plainForm_toUpper {c : Char} (h : c.isLower = true) : plainForm c.toUpper = c := by
  have hupper := isUpper_toUpper h
  have hne : c.toUpper ≠ '_' := by
    intro heq
    rw [heq] at hupper
    cases hupper
  apply Char.toNat_inj.mp
  rw [toNat_plainForm hne, if_pos hupper, Text.toNat_toUpper h]
  exact Nat.sub_add_cancel (Nat.le_trans (by decide) (Text.isLower_iff.mp h).1)

section Words

variable {w : List Char} {words : List (List Char)}

/-- Small letters stay, and a capital behind them gets a hyphen. -/
theorem hyphenate_append (hw : ∀ c ∈ w, c.isLower = true) (afterSmall : Bool) (rest : List Char) :
    hyphenate afterSmall (w ++ rest) = w ++ hyphenate (afterSmall || !w.isEmpty) rest := by
  induction w generalizing afterSmall with
  | nil => simp
  | cons c cs ih =>
    obtain ⟨hc, hcs⟩ := List.forall_mem_cons.mp hw
    have hplain := isPlain_of_isLower hc
    rw [List.cons_append, hyphenate_cons, hplain.plainForm_eq, hplain.2, ih hcs, hc]
    simp

/-- Capitals become small, and a capital behind them gets no hyphen. -/
theorem hyphenate_map_toUpper_append (hw : ∀ c ∈ w, c.isLower = true) (rest : List Char) :
    hyphenate false (w.map Char.toUpper ++ rest) = w ++ hyphenate false rest := by
  induction w with
  | nil => rfl
  | cons c cs ih =>
    obtain ⟨hc, hcs⟩ := List.forall_mem_cons.mp hw
    have hlower := isLower_eq_false_of_isUpper (isUpper_toUpper hc)
    have hdigit := isDigit_eq_false_of_isUpper (isUpper_toUpper hc)
    rw [List.map_cons, List.cons_append, hyphenate_cons, plainForm_toUpper hc, hlower, hdigit, Bool.or_false, ih hcs]
    rfl

/-- A capitalized word gets a hyphen if it follows a small letter. A capital behind it gets one iff the
word has a letter besides its capital. -/
theorem hyphenate_capitalize_append (hw : IsWord w) (afterSmall : Bool) (rest : List Char) :
    hyphenate afterSmall (capitalize w ++ rest) =
      (if afterSmall then ['-'] else []) ++ w ++ hyphenate (decide (2 ≤ w.length)) rest := by
  obtain ⟨hne, hsmall⟩ := hw
  cases w with
  | nil => exact absurd rfl hne
  | cons c cs =>
    obtain ⟨hc, hcs⟩ := List.forall_mem_cons.mp hsmall
    have hlower := isLower_eq_false_of_isUpper (isUpper_toUpper hc)
    have hdigit := isDigit_eq_false_of_isUpper (isUpper_toUpper hc)
    have hlong : decide (2 ≤ (c :: cs).length) = !cs.isEmpty := by cases cs <;> simp
    rw [capitalize, List.cons_append, hyphenate_cons, plainForm_toUpper hc, isUpper_toUpper hc,
      hlower, hdigit, hyphenate_append hcs, hlong]
    simp

/-- A word at the head of a name, or behind a sign, comes out in small letters. -/
theorem exists_hyphenate_write_append (hw : IsWord w) (capitals : Capitals) :
    ∃ afterSmall, ∀ rest,
      hyphenate false (capitals.write w ++ rest) = w ++ hyphenate afterSmall rest := by
  cases capitals with
  | none => exact ⟨_, hyphenate_append hw.2 false⟩
  | first => exact ⟨_, hyphenate_capitalize_append hw false⟩
  | all => exact ⟨_, hyphenate_map_toUpper_append hw.2⟩

theorem joined_cons (sign : Char) (w : List Char) (words : List (List Char)) :
    joined sign (w :: words) = w ++ words.flatMap fun later => sign :: later := by
  induction words generalizing w with
  | nil => simp [joined]
  | cons v words ih =>
    have hstep : joined sign (w :: v :: words) = w ++ sign :: joined sign (v :: words) := by
      simp [joined, List.intercalate_cons_cons]
    rw [hstep, ih, List.flatMap_cons]
    rfl

/-- Words joined by a sign come out joined by hyphens. -/
theorem hyphenate_joined {sign : Char} (hsign : sign = '-' ∨ sign = '_') (capitals : Capitals)
    (hwords : ∀ w ∈ words, IsWord w) :
    hyphenate false (joined sign (words.map capitals.write)) = joined '-' words := by
  have hcut (afterSmall : Bool) (rest : List Char) :
      hyphenate afterSmall (sign :: rest) = '-' :: hyphenate false rest := by
    rcases hsign with rfl | rfl <;> rfl
  cases words with
  | nil => rfl
  | cons w later =>
    obtain ⟨hw, hlater⟩ := List.forall_mem_cons.mp hwords
    obtain ⟨afterSmall, hfirst⟩ := exists_hyphenate_write_append hw capitals
    rw [List.map_cons, joined_cons, joined_cons, hfirst]
    congr 1
    clear hfirst hwords
    induction later generalizing afterSmall with
    | nil => rfl
    | cons v later ih =>
      obtain ⟨hv, hlater⟩ := List.forall_mem_cons.mp hlater
      obtain ⟨afterSmall', hnext⟩ := exists_hyphenate_write_append hv capitals
      rw [List.map_cons, List.flatMap_cons, List.cons_append, hcut, hnext, ih hlater]
      rfl

/-- Behind a small letter, glued words come apart iff each but the last has two letters. -/
theorem hyphenate_flatMap_capitalize_iff (hwords : ∀ w ∈ words, IsWord w) :
    hyphenate true (words.flatMap capitalize) = words.flatMap (fun w => '-' :: w) ↔
      ∀ w ∈ words.dropLast, 2 ≤ w.length := by
  induction words with
  | nil => simp [hyphenate]
  | cons w later ih =>
    obtain ⟨hw, hlater⟩ := List.forall_mem_cons.mp hwords
    have hfirst : hyphenate true ((w :: later).flatMap capitalize) =
          ((w :: later).flatMap fun w => '-' :: w) ↔
        hyphenate (decide (2 ≤ w.length)) (later.flatMap capitalize) =
          later.flatMap fun w => '-' :: w := by
      rw [List.flatMap_cons, List.flatMap_cons, hyphenate_capitalize_append hw]
      simp
    rw [hfirst]
    cases later with
    | nil => simp [hyphenate]
    | cons v later =>
      rw [List.dropLast_cons_cons, List.forall_mem_cons]
      by_cases hlong : 2 ≤ w.length
      · simp only [hlong, decide_true, true_and]
        exact ih hlater
      · -- no hyphen is put in front of the next word, which begins with a letter
        have hv := hlater v List.mem_cons_self
        simp only [hlong, decide_false, false_and, iff_false]
        rw [List.flatMap_cons, List.flatMap_cons, hyphenate_capitalize_append hv]
        obtain ⟨hne, hsmall⟩ := hv
        obtain ⟨c, cs, rfl⟩ := List.exists_cons_of_ne_nil hne
        intro heq
        obtain ⟨rfl, -⟩ := List.cons.inj heq
        exact absurd (hsmall _ List.mem_cons_self) (by decide)

/-- Glued words come apart iff each between the first and the last has two letters. -/
theorem hyphenate_camelCase_iff (hwords : ∀ w ∈ words, IsWord w) :
    hyphenate false (camelCase words) = joined '-' words ↔
      ∀ w ∈ words.tail.dropLast, 2 ≤ w.length := by
  cases words with
  | nil => simp [camelCase, joined, hyphenate]
  | cons first later =>
    obtain ⟨hfirst, hlater⟩ := List.forall_mem_cons.mp hwords
    have hnonempty : first.isEmpty = false := by simpa using hfirst.1
    rw [camelCase, joined_cons, hyphenate_append hfirst.2, hnonempty, List.append_cancel_left_eq]
    exact hyphenate_flatMap_capitalize_iff hlater

end Words

/-! ## §4 Names with blanks around them -/

section Blanks

variable {before cs after : List Char} {words : List (List Char)} {c : Char}

theorem isAlpha_of_mem_write {w : List Char} (hw : IsWord w) {capitals : Capitals}
    (h : c ∈ capitals.write w) : c.isAlpha = true := by
  have halpha : ∀ d ∈ w, d.isAlpha = true := fun d hd =>
    Bool.or_eq_true_iff.mpr (Or.inr (hw.2 d hd))
  have hcapital : ∀ d ∈ w, d.toUpper.isAlpha = true := fun d hd =>
    Bool.or_eq_true_iff.mpr (Or.inl (isUpper_toUpper (hw.2 d hd)))
  cases capitals with
  | none => exact halpha c h
  | all =>
    obtain ⟨d, hd, rfl⟩ := List.mem_map.mp h
    exact hcapital d hd
  | first =>
    cases w with
    | nil => cases h
    | cons d rest =>
      rcases List.mem_cons.mp h with rfl | hrest
      · exact hcapital d List.mem_cons_self
      · exact halpha c (List.mem_cons_of_mem d hrest)

theorem isBlank_of_mem_write {w : List Char} (hw : IsWord w) {capitals : Capitals}
    (h : c ∈ capitals.write w) : Text.isBlank c = false := by
  apply Text.isBlank_eq_false_of_isAlphanum
  simp [Char.isAlphanum, isAlpha_of_mem_write hw h]

theorem isBlank_of_mem_joined {sign : Char} (hsign : sign = '-' ∨ sign = '_') {capitals : Capitals}
    (hwords : ∀ w ∈ words, IsWord w) (h : c ∈ joined sign (words.map capitals.write)) :
    Text.isBlank c = false := by
  have hmark : Text.isBlank sign = false := by rcases hsign with rfl | rfl <;> decide
  cases words with
  | nil => cases h
  | cons first later =>
    obtain ⟨hfirst, hlater⟩ := List.forall_mem_cons.mp hwords
    rw [List.map_cons, joined_cons, List.mem_append, List.mem_flatMap] at h
    rcases h with h | ⟨v, hv, h⟩
    · exact isBlank_of_mem_write hfirst h
    · obtain ⟨w, hw, rfl⟩ := List.mem_map.mp hv
      rcases List.mem_cons.mp h with rfl | h
      · exact hmark
      · exact isBlank_of_mem_write (hlater w hw) h

theorem isBlank_of_mem_camelCase (hwords : ∀ w ∈ words, IsWord w) (h : c ∈ camelCase words) :
    Text.isBlank c = false := by
  cases words with
  | nil => cases h
  | cons first later =>
    obtain ⟨hfirst, hlater⟩ := List.forall_mem_cons.mp hwords
    rw [camelCase, List.mem_append, List.mem_flatMap] at h
    rcases h with h | ⟨w, hw, h⟩
    · have hwritten : c ∈ Capitals.none.write first := h
      exact isBlank_of_mem_write hfirst hwritten
    · have hwritten : c ∈ Capitals.first.write w := h
      exact isBlank_of_mem_write (hlater w hw) hwritten

/-- Blanks around a name do not matter. -/
theorem normalize_surround (hblank : ∀ c ∈ before ++ after, Text.isBlank c = true)
    (hcs : ∀ c ∈ cs, Text.isBlank c = false) :
    normalize (String.ofList (before ++ cs ++ after)) = String.ofList (hyphenate false cs) := by
  obtain ⟨hbefore, hafter⟩ := List.forall_mem_append.mp hblank
  have htrim : Text.trimBlanks cs = cs :=
    Text.trimBlanks_eq_self (fun c hc => hcs c (List.mem_of_mem_head? hc))
      fun c hc => hcs c (List.mem_of_mem_getLast? hc)
  rw [normalize, normalizeChars, String.toList_ofList, Text.trimBlanks_surround hbefore hafter, htrim]

variable (hwords : ∀ w ∈ words, IsWord w) (hblank : ∀ c ∈ before ++ after, Text.isBlank c = true)

include hwords hblank

theorem normalize_joined {sign : Char} (hsign : sign = '-' ∨ sign = '_') (capitals : Capitals) :
    normalize (String.ofList (before ++ joined sign (words.map capitals.write) ++ after)) =
      String.ofList (joined '-' words) := by
  rw [normalize_surround hblank fun c hc => isBlank_of_mem_joined hsign hwords hc,
    hyphenate_joined hsign capitals hwords]

theorem normalize_camelCase_iff :
    normalize (String.ofList (before ++ camelCase words ++ after)) = String.ofList (joined '-' words) ↔
      ∀ w ∈ words.tail.dropLast, 2 ≤ w.length := by
  rw [normalize_surround hblank fun c hc => isBlank_of_mem_camelCase hwords hc, String.ofList_inj]
  exact hyphenate_camelCase_iff hwords

end Blanks

/-- A single letter between two words sticks to the word behind it. -/
example : normalize "aBC" = "a-bc" := by decide +kernel

/-- **The spellings of a name.** The hyphenated form is its own hyphenated form, and has neither
underscores nor capitals. Words come out joined by hyphens, whichever sign joins them, with or without
capitals, and with any blanks around them. Glued words do so iff no word between the first and the last
is a single letter. -/
theorem normalize_spellings :
    (∀ name, normalize (normalize name) = normalize name) ∧
      (∀ name, ∀ c ∈ (normalize name).toList, c ≠ '_' ∧ c.isUpper = false) ∧
      ∀ words : List (List Char), (∀ w ∈ words, IsWord w) →
        ∀ before after : List Char, (∀ c ∈ before ++ after, Text.isBlank c = true) →
          (∀ sign, sign = '-' ∨ sign = '_' → ∀ capitals : Capitals,
            normalize (String.ofList (before ++ joined sign (words.map capitals.write) ++ after)) =
              String.ofList (joined '-' words)) ∧
          (normalize (String.ofList (before ++ camelCase words ++ after)) =
              String.ofList (joined '-' words) ↔
            ∀ w ∈ words.tail.dropLast, 2 ≤ w.length) := by
  refine ⟨normalize_normalize, fun name c hc => isPlain_of_mem_normalize hc, ?_⟩
  intro words hwords before after hblank
  exact ⟨fun sign hsign capitals => normalize_joined hwords hblank hsign capitals,
    normalize_camelCase_iff hwords hblank⟩

/-- Three words, the last of a single letter. -/
def shadowOffsetX : List (List Char) := ["shadow".toList, "offset".toList, "x".toList]

/-- The offset of a shadow, in capitals and glued, between blanks. -/
theorem normalize_shadowOffsetX :
    normalize "\t SHADOW_OFFSET_X " = "shadow-offset-x" ∧
      normalize "\t shadowOffsetX " = "shadow-offset-x" := by
  have hwords : ∀ w ∈ shadowOffsetX, IsWord w := by decide +kernel
  have hblank : ∀ c ∈ ['\t', ' '] ++ [' '], Text.isBlank c = true := by
    simp [Text.isBlank, Text.blankRanges, Text.inRanges]
  have hlong : ∀ w ∈ shadowOffsetX.tail.dropLast, 2 ≤ w.length := by decide +kernel
  obtain ⟨hjoined, hglued⟩ := normalize_spellings.2.2 shadowOffsetX hwords ['\t', ' '] [' '] hblank
  exact ⟨hjoined '_' (.inr rfl) .all, hglued.mpr hlong⟩

end StyledScene.Property

namespace StyledScene.Key

open Property (Capitals IsWord camelCase joined)

/-! ## §5 Looking a property up -/

variable {c : Category}

/-- Properties of one category have different names. -/
theorem nodup_names : ∀ c : Category, ((all c).map name).Nodup := by
  intro c
  cases c <;> decide +kernel

/-- A property is found under every text with its name as hyphenated form. -/
theorem find?_of_normalize {k : Key c} {text : String} (h : Property.normalize text = k.name) :
    find? c text = some k := by
  have hsome : (find? c text).isSome = true := by
    rw [find?, List.find?_isSome]
    exact ⟨k, k.mem_all, by simp [h]⟩
  obtain ⟨j, hj⟩ := Option.isSome_iff_exists.mp hsome
  have hname : j.name = k.name := by
    rw [find?] at hj
    have hfound := List.find?_some hj
    rw [beq_iff_eq, h] at hfound
    exact hfound
  rw [hj, List.inj_on_of_nodup_map (nodup_names c) j.mem_all k.mem_all hname]

/-- The words of a property's name. -/
def words (k : Key c) : List (List Char) := k.name.toList.splitOn '-'

/-- The names of properties are words, none of them a single letter between two others. -/
theorem words_spec (k : Key c) :
    (∀ w ∈ k.words, IsWord w) ∧ (∀ w ∈ k.words.tail.dropLast, 2 ≤ w.length) ∧
      String.ofList (joined '-' k.words) = k.name := by
  have htable : ∀ c : Category, ∀ k ∈ all c, (∀ w ∈ k.words, IsWord w) ∧
      (∀ w ∈ k.words.tail.dropLast, 2 ≤ w.length) ∧ joined '-' k.words = k.name.toList := by
    intro c
    cases c <;> decide +kernel
  obtain ⟨hwords, hlong, hname⟩ := htable c k k.mem_all
  exact ⟨hwords, hlong, by rw [hname, String.ofList_toList]⟩

/-- **A property is found under every spelling of its name.** -/
theorem find?_spelling (k : Key c) {before after : List Char}
    (hblank : ∀ c ∈ before ++ after, Text.isBlank c = true) :
    (∀ sign, sign = '-' ∨ sign = '_' → ∀ capitals : Capitals,
        find? c (String.ofList (before ++ joined sign (k.words.map capitals.write) ++ after)) =
          some k) ∧
      find? c (String.ofList (before ++ camelCase k.words ++ after)) = some k := by
  obtain ⟨hwords, hlong, hname⟩ := k.words_spec
  constructor
  · intro sign hsign capitals
    apply find?_of_normalize
    rw [Property.normalize_joined hwords hblank hsign capitals, hname]
  · apply find?_of_normalize
    rw [(Property.normalize_camelCase_iff hwords hblank).mpr hlong, hname]

end StyledScene.Key
