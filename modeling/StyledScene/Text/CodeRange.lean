/-!
# Ranges of code points

A character class is an ascending list of closed code-point ranges, so a look-up may stop at the
first range that starts above the code point.
-/

namespace StyledScene.Text

/-- A closed range of code points, first and last. -/
abbrev CodeRange := Nat × Nat

/-- Whether one of the ascending ranges holds the code point. -/
def inRanges (n : Nat) : List CodeRange → Bool
  | [] => false
  | (lo, hi) :: rest => if n < lo then false else decide (n ≤ hi) || inRanges n rest

/-- In an ascending list the early stop loses nothing: membership is membership in some range. -/
theorem inRanges_iff {n : Nat} {ranges : List CodeRange}
    (sorted : ranges.Pairwise fun r s => r.1 ≤ s.1) :
    inRanges n ranges = true ↔ ∃ r ∈ ranges, r.1 ≤ n ∧ n ≤ r.2 := by
  induction ranges with
  | nil => simp [inRanges]
  | cons r rest ih =>
    obtain ⟨lo, hi⟩ := r
    rw [List.pairwise_cons] at sorted
    unfold inRanges
    split
    · rename_i below
      simp only [Bool.false_eq_true, List.mem_cons, exists_eq_or_imp, false_iff, not_or, not_exists]
      refine ⟨by omega, fun s hs => ?_⟩
      have := sorted.1 s hs.1
      omega
    · simp only [Bool.or_eq_true, decide_eq_true_eq, ih sorted.2, List.mem_cons, exists_eq_or_imp]
      constructor <;> rintro (h | h)
      · exact .inl ⟨by omega, h⟩
      · exact .inr h
      · exact .inl h.2
      · exact .inr h

end StyledScene.Text
