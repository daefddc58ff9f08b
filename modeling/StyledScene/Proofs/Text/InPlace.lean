import StyledScene.Proofs.Text.SmallForms
import StyledScene.Text.Blank

/-!
# Lower-casing in place

A text that is put together from pieces is lower-cased piece by piece, but not each piece by itself: a
capital sigma looks beyond its piece. What a piece becomes where it stands is told from its neighbours
(`lowerBetween`), and it is what the piece becomes by itself unless one of its sigmas sees another word
around it (`lowerBetween_eq_of_settled`).
-/

namespace StyledScene.Text

/-! ## §1 Pieces -/

/-- What a character becomes between the characters before it, nearest first, and those after it. -/
def lowerAt (before : List Char) (c : Char) (after : List Char) : List Char :=
  if c = 'Σ' then [if reachesCased before && !reachesCased after then 'ς' else 'σ'] else lowerChar c

/-- What a piece becomes between the characters before it, nearest first, and those after it. -/
def lowerBetween (before piece after : List Char) : List Char :=
  match piece with
  | [] => []
  | c :: rest => lowerAt before c (rest ++ after) ++ lowerBetween (c :: before) rest after

theorem lowerAfter_cons (before : List Char) (c : Char) (after : List Char) :
    lowerAfter before (c :: after) = lowerAt before c after ++ lowerAfter (c :: before) after := rfl

theorem lowerBetween_cons (before : List Char) (c : Char) (rest after : List Char) :
    lowerBetween before (c :: rest) after =
      lowerAt before c (rest ++ after) ++ lowerBetween (c :: before) rest after := rfl

/-- A text is lower-cased piece by piece. -/
theorem lowerAfter_append (before piece after : List Char) :
    lowerAfter before (piece ++ after) =
      lowerBetween before piece after ++ lowerAfter (piece.reverse ++ before) after := by
  induction piece generalizing before with
  | nil => rfl
  | cons c rest ih =>
    rw [List.cons_append, lowerAfter_cons, ih, lowerBetween_cons, List.append_assoc,
      List.reverse_cons, List.append_assoc, List.singleton_append]

/-- A piece by itself has nothing around it. -/
theorem lowerBetween_nil_nil (piece : List Char) : lowerBetween [] piece [] = lowerChars piece := by
  have h := lowerAfter_append [] piece []
  rw [List.append_nil, lowerAfter, List.append_nil] at h
  exact h.symm

theorem lowerAt_of_isLow {c : Char} (h : IsLow c) (before after : List Char) :
    lowerAt before c after = [c] := by
  rw [lowerAt, if_neg h.ne_capitalSigma]
  exact h

theorem lowerAt_ne_nil (before : List Char) (c : Char) (after : List Char) :
    lowerAt before c after ≠ [] := by
  unfold lowerAt lowerChar
  split
  · exact List.cons_ne_nil _ _
  · split <;> exact List.cons_ne_nil _ _

/-- No character of a piece is lost. -/
theorem lowerBetween_eq_nil {before piece after : List Char} :
    lowerBetween before piece after = [] ↔ piece = [] := by
  cases piece with
  | nil => exact iff_of_true rfl rfl
  | cons c rest =>
    rw [lowerBetween_cons, List.append_eq_nil_iff]
    exact iff_of_false (fun h => lowerAt_ne_nil _ _ _ h.1) (List.cons_ne_nil _ _)

/-! ## §2 Signs -/

/-- The blanks and the characters that have a meaning in a selector text. -/
def signRanges : List CodeRange :=
  blankRanges ++ [(0x0023, 0x0023), (0x002A, 0x002A), (0x002E, 0x002E), (0x003A, 0x003A),
    (0x003E, 0x003E)]

/-- Whether the character separates names or stands for something by itself. -/
def IsSign (s : Char) : Prop := ∃ r ∈ signRanges, r.1 ≤ s.toNat ∧ s.toNat ≤ r.2

/-- Whether neither a capital of the run nor a small form of one lies in the range, told by their
ends. -/
def CaseRun.avoids (r : CaseRun) (range : CodeRange) : Bool :=
  (Nat.blt r.last range.1 || Nat.blt range.2 r.first) &&
    (Nat.blt (r.target + (r.last - r.first)) range.1 || Nat.blt range.2 r.target)

theorem CaseRun.avoids_iff {r : CaseRun} {range : CodeRange} :
    r.avoids range = true ↔ (r.last < range.1 ∨ range.2 < r.first) ∧
      (r.target + (r.last - r.first) < range.1 ∨ range.2 < r.target) := by
  simp [avoids]

/-- Neither the capitals nor the small forms of the table are signs. -/
theorem avoids_of_mem {r : CaseRun} (hr : r ∈ caseRuns) {range : CodeRange}
    (hrange : range ∈ signRanges) : r.avoids range = true := by
  have hall : (caseRuns.all fun r => signRanges.all r.avoids) = true := by decide
  exact List.all_eq_true.mp (List.all_eq_true.mp hall r hr) range hrange

/-- The letters whose case is not told by the table, and their small forms. -/
def lettersApart : List Char := ['Σ', 'σ', 'ς', '\u0130', 'i', '\u0307']

theorem lettersApart_avoid {c : Char} (hc : c ∈ lettersApart) {range : CodeRange}
    (hrange : range ∈ signRanges) : c.toNat < range.1 ∨ range.2 < c.toNat := by
  have hall : (lettersApart.all fun c => signRanges.all fun range =>
      Nat.blt c.toNat range.1 || Nat.blt range.2 c.toNat) = true := by decide
  have hout := List.all_eq_true.mp (List.all_eq_true.mp hall c hc) range hrange
  rwa [Bool.or_eq_true, Nat.blt_eq, Nat.blt_eq] at hout

theorem isSign_of_isBlank {s : Char} (h : isBlank s = true) : IsSign s := by
  obtain ⟨r, hr, hin⟩ := (inRanges_iff (by decide)).mp h
  exact ⟨r, List.mem_append_left _ hr, hin⟩

namespace IsSign

variable {s : Char}

theorem ne (hs : IsSign s) {c : Char} (hc : c ∈ lettersApart) : s ≠ c := by
  rintro rfl
  obtain ⟨r, hr, hin⟩ := hs
  have hapart := lettersApart_avoid hc hr
  omega

theorem isLow (hs : IsSign s) : IsLow s := by
  refine isLow_of_findRun (hs.ne (by simp [lettersApart])) (findRun_eq_none fun r hr => ?_)
  obtain ⟨range, hrange, hin⟩ := hs
  have hapart := (CaseRun.avoids_iff.mp (avoids_of_mem hr hrange)).1
  rw [Bool.eq_false_iff, Ne, CaseRun.covers_iff]
  omega

/-- No other character becomes a sign. -/
theorem smallForm_eq_iff (hs : IsSign s) {c : Char} : smallForm c = s ↔ c = s := by
  cases hrun : findRun c.toNat caseRuns with
  | none =>
    have hsame : smallForm c = c := by rw [smallForm, hrun]
    rw [hsame]
  | some r =>
    -- a small form of the table lies among the targets of its run
    obtain ⟨hr, hcover⟩ := findRun_eq_some hrun
    obtain ⟨hfirst, hlast, -⟩ := CaseRun.covers_iff.mp hcover
    have hnat : (smallForm c).toNat = r.target + (c.toNat - r.first) := toNat_smallForm hrun
    obtain ⟨range, hrange, hin⟩ := hs
    obtain ⟨hcapital, hsmall⟩ := CaseRun.avoids_iff.mp (avoids_of_mem hr hrange)
    refine iff_of_false (fun h => ?_) fun h => ?_
    · rw [h] at hnat
      omega
    · rw [h] at hfirst hlast
      omega

/-- A sign stays as it is, and nothing else becomes one. -/
theorem mem_lowerAt (hs : IsSign s) (before : List Char) (c : Char) (after : List Char) :
    s ∈ lowerAt before c after ↔ s = c := by
  unfold lowerAt lowerChar
  split
  · rename_i hsigma
    refine iff_of_false (fun h => ?_) (hsigma ▸ hs.ne (by simp [lettersApart]))
    split at h
    · exact hs.ne (by simp [lettersApart]) (List.mem_singleton.mp h)
    · exact hs.ne (by simp [lettersApart]) (List.mem_singleton.mp h)
  · split
    · rename_i hdotted
      refine iff_of_false (fun h => ?_) (hdotted ▸ hs.ne (by simp [lettersApart]))
      rcases List.mem_cons.mp h with h | h
      · exact hs.ne (by simp [lettersApart]) h
      · exact hs.ne (by simp [lettersApart]) (List.mem_singleton.mp h)
    · rw [List.mem_singleton, eq_comm, hs.smallForm_eq_iff, eq_comm]

theorem mem_lowerBetween (hs : IsSign s) {before piece after : List Char} :
    s ∈ lowerBetween before piece after ↔ s ∈ piece := by
  induction piece generalizing before with
  | nil => exact Iff.rfl
  | cons c rest ih => rw [lowerBetween_cons, List.mem_append, hs.mem_lowerAt, ih, List.mem_cons]

end IsSign

/-- Only a star by itself becomes a star by itself. -/
theorem lowerBetween_eq_star {before piece after : List Char} :
    lowerBetween before piece after = ['*'] ↔ piece = ['*'] := by
  have hstar : IsSign '*' := ⟨(0x002A, 0x002A), by decide, by decide⟩
  constructor
  · intro h
    cases piece with
    | nil => cases h
    | cons c rest =>
      rw [lowerBetween_cons] at h
      -- no character is lost, so the first one has become the star
      rcases List.append_eq_singleton_iff.mp h with ⟨hnil, -⟩ | ⟨hc, hrest⟩
      · exact absurd hnil (lowerAt_ne_nil _ _ _)
      · have hmem : '*' ∈ lowerAt before c (rest ++ after) := by rw [hc]; exact List.mem_cons_self
        rw [← (hstar.mem_lowerAt _ _ _).mp hmem, lowerBetween_eq_nil.mp hrest]
  · rintro rfl
    rw [lowerBetween_cons, lowerAt_of_isLow hstar.isLow]
    rfl

/-! ## §3 Settled pieces -/

/-- Whether a piece has the same form in two places is told from what its capital sigmas see. -/
theorem lowerBetween_congr {before before' piece after after' : List Char}
    (h : ∀ l r, piece = l ++ 'Σ' :: r →
      reachesCased (l.reverse ++ before) = reachesCased (l.reverse ++ before') ∧
        reachesCased (r ++ after) = reachesCased (r ++ after')) :
    lowerBetween before piece after = lowerBetween before' piece after' := by
  -- the characters read so far go over to what stands before, on both sides alike
  induction piece generalizing before before' with
  | nil => rfl
  | cons c rest ih =>
    have hrest : lowerBetween (c :: before) rest after = lowerBetween (c :: before') rest after' := by
      refine ih fun l r hlr => ?_
      have hc := h (c :: l) r (by rw [hlr, List.cons_append])
      simpa using hc
    rw [lowerBetween_cons, lowerBetween_cons, hrest, lowerAt, lowerAt]
    split
    · rename_i hsigma
      obtain ⟨hbefore, hafter⟩ := h [] rest (by rw [hsigma, List.nil_append])
      rw [List.reverse_nil, List.nil_append, List.nil_append] at hbefore
      rw [hbefore, hafter]
    · rfl

theorem reachesCased_cons (c : Char) (cs : List Char) :
    reachesCased (c :: cs) = if isCaseIgnorable c then reachesCased cs else isCased c := by
  rw [reachesCased, List.dropWhile_cons]
  split
  · rfl
  · rfl

/-- A look that ends inside the text does not go beyond it. -/
theorem reachesCased_append {cs : List Char} (h : ∃ c ∈ cs, isCaseIgnorable c = false)
    (more : List Char) : reachesCased (cs ++ more) = reachesCased cs := by
  induction cs with
  | nil => simp at h
  | cons c cs ih =>
    rw [List.cons_append, reachesCased_cons, reachesCased_cons]
    split
    · -- the look goes on, to the character that ends it
      rename_i hthrough
      obtain ⟨d, hd, hstop⟩ := h
      rcases List.mem_cons.mp hd with rfl | hrest
      · rw [hthrough] at hstop
        cases hstop
      · exact ih ⟨d, hrest, hstop⟩
    · rfl

/-- Every capital sigma of the piece has a character on either side, within the piece, that ends its
look. -/
def Settled (piece : List Char) : Prop :=
  ∀ l r, piece = l ++ 'Σ' :: r →
    (∃ c ∈ l, isCaseIgnorable c = false) ∧ ∃ c ∈ r, isCaseIgnorable c = false

/-- A piece whose sigmas do not look beyond it has one form wherever it stands. -/
theorem lowerBetween_eq_of_settled {piece : List Char} (h : Settled piece)
    (before after : List Char) : lowerBetween before piece after = lowerChars piece := by
  rw [← lowerBetween_nil_nil]
  refine lowerBetween_congr fun l r hlr => ?_
  obtain ⟨⟨c, hc, hbefore⟩, hafter⟩ := h l r hlr
  have hreverse : ∃ c ∈ l.reverse, isCaseIgnorable c = false :=
    ⟨c, List.mem_reverse.mpr hc, hbefore⟩
  rw [reachesCased_append hreverse, reachesCased_append hreverse, reachesCased_append hafter,
    reachesCased_append hafter]
  exact ⟨rfl, rfl⟩

theorem settled_of_not_mem {piece : List Char} (h : 'Σ' ∉ piece) : Settled piece := by
  intro l r hlr
  exact absurd (hlr ▸ List.mem_append_right l List.mem_cons_self) h

/-- A capital sigma leaves a small one behind. -/
theorem sigma_mem_lowerBetween (before : List Char) {piece : List Char} (after : List Char)
    (h : 'Σ' ∈ piece) :
    'ς' ∈ lowerBetween before piece after ∨ 'σ' ∈ lowerBetween before piece after := by
  induction piece generalizing before with
  | nil => cases h
  | cons c rest ih =>
    simp only [lowerBetween_cons, List.mem_append]
    rcases List.mem_cons.mp h with rfl | hrest
    · rw [lowerAt, if_pos rfl]
      split
      · exact .inl (.inl List.mem_cons_self)
      · exact .inr (.inl List.mem_cons_self)
    · rcases ih (c :: before) hrest with hfinal | hmedial
      · exact .inl (.inr hfinal)
      · exact .inr (.inr hmedial)

/-! ## §4 Characters that end a look -/

/-- The character is neither looked through nor cased, so that no look finds anything beyond it. -/
structure EndsLook (s : Char) : Prop where
  stops : isCaseIgnorable s = false
  uncased : isCased s = false

namespace EndsLook

variable {s : Char}

theorem reachesCased_append (hs : EndsLook s) (cs more : List Char) :
    reachesCased (cs ++ s :: more) = reachesCased cs := by
  induction cs with
  | nil => simp [reachesCased, hs.stops, hs.uncased]
  | cons c cs ih => simp [reachesCased_cons, ih]

/-- What comes after the character does not show in the piece in front of it. -/
theorem lowerBetween_after (hs : EndsLook s) (before piece more : List Char) :
    lowerBetween before piece (s :: more) = lowerBetween before piece [] := by
  apply lowerBetween_congr
  intro l r _
  simp [hs.reachesCased_append]

/-- What comes before the character does not show in the piece behind it. -/
theorem lowerBetween_before (hs : EndsLook s) (before piece after : List Char) :
    lowerBetween (s :: before) piece after = lowerBetween [] piece after := by
  apply lowerBetween_congr
  intro l r _
  simp [hs.reachesCased_append]

/-- The two sides of the character are lower-cased by themselves. -/
theorem lowerChars_append (hs : EndsLook s) (hlow : IsLow s) (cs rest : List Char) :
    lowerChars (cs ++ s :: rest) = lowerChars cs ++ s :: lowerChars rest := by
  have hrest : lowerAfter (s :: cs.reverse) rest = lowerChars rest := by
    have hsplit := lowerAfter_append (s :: cs.reverse) rest []
    rwa [List.append_nil, hs.lowerBetween_before, lowerBetween_nil_nil, lowerAfter,
      List.append_nil] at hsplit
  calc lowerChars (cs ++ s :: rest)
    _ = lowerBetween [] cs (s :: rest) ++ lowerAfter cs.reverse (s :: rest) := by
      rw [lowerChars, lowerAfter_append, List.append_nil]
    _ = lowerChars cs ++ lowerAfter cs.reverse (s :: rest) := by
      rw [hs.lowerBetween_after, lowerBetween_nil_nil]
    _ = lowerChars cs ++ s :: lowerChars rest := by
      rw [lowerAfter_cons, lowerAt_of_isLow hlow, hrest, List.singleton_append]

end EndsLook

end StyledScene.Text
