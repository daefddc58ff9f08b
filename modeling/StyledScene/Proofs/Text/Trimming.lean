import StyledScene.Text.Blank

/-!
# Trimming

Blanks around a text do not show after trimming (`trimBlanks_surround`), and what is left has no blank at
either end.
-/

namespace StyledScene.Text

variable {before cs after : List Char}

/-- Blanks around a text make no difference to what trimming leaves. -/
theorem trimBlanks_surround (hbefore : ∀ c ∈ before, isBlank c = true)
    (hafter : ∀ c ∈ after, isBlank c = true) : trimBlanks (before ++ cs ++ after) = trimBlanks cs := by
  have hfront : (before ++ cs ++ after).dropWhile isBlank = (cs ++ after).dropWhile isBlank := by
    rw [List.append_assoc, List.dropWhile_append_of_pos hbefore]
  have hback : ∀ c ∈ after.reverse, isBlank c = true := fun c hc => hafter c (List.mem_reverse.mp hc)
  rw [trimBlanks, trimBlanks, hfront, List.dropWhile_append]
  split
  · -- nothing but blanks
    rename_i hempty
    have hnone : after.dropWhile isBlank = [] := by
      have hdrop : (after ++ []).dropWhile isBlank = [] := List.dropWhile_append_of_pos hafter
      rwa [List.append_nil] at hdrop
    rw [hnone, List.isEmpty_iff.mp hempty]
  · rw [List.reverse_append, List.dropWhile_append_of_pos hback]

/-- Trimming takes away nothing but blanks. -/
theorem exists_surround_trimBlanks (cs : List Char) :
    ∃ before after : List Char, (∀ c ∈ before ++ after, isBlank c = true) ∧
      cs = before ++ trimBlanks cs ++ after := by
  have hfront := List.takeWhile_append_dropWhile (p := isBlank) (l := cs)
  have hback := congrArg List.reverse
    (List.takeWhile_append_dropWhile (p := isBlank) (l := (cs.dropWhile isBlank).reverse))
  rw [List.reverse_append, List.reverse_reverse] at hback
  refine ⟨cs.takeWhile isBlank, ((cs.dropWhile isBlank).reverse.takeWhile isBlank).reverse, ?_, ?_⟩
  · intro c hc
    rw [List.mem_append, List.mem_reverse] at hc
    rcases hc with hc | hc
    · exact List.all_eq_true.mp List.all_takeWhile c hc
    · exact List.all_eq_true.mp List.all_takeWhile c hc
  · rw [trimBlanks, List.append_assoc, hback, hfront]

/-- A trimmed text ends in no blank. -/
theorem isBlank_getLast?_trimBlanks (cs : List Char) :
    ∀ c ∈ (trimBlanks cs).getLast?, isBlank c = false := by
  intro c hc
  rw [trimBlanks, List.getLast?_reverse] at hc
  have hfirst := List.head?_dropWhile_not isBlank (cs.dropWhile isBlank).reverse
  rw [Option.mem_def.mp hc] at hfirst
  simpa using hfirst

/-- A trimmed text begins with no blank. -/
theorem isBlank_head?_trimBlanks (cs : List Char) :
    ∀ c ∈ (trimBlanks cs).head?, isBlank c = false := by
  intro c hc
  -- what is left stands at the front of the text without its first blanks
  have hfront : trimBlanks cs <+: cs.dropWhile isBlank := by
    have hsuffix := List.dropWhile_suffix isBlank (l := (cs.dropWhile isBlank).reverse)
    simpa [trimBlanks] using List.reverse_prefix.mpr hsuffix
  obtain ⟨gone, hgone⟩ := hfront
  have hfirst := List.head?_dropWhile_not isBlank cs
  rw [← hgone, List.head?_append, Option.mem_def.mp hc] at hfirst
  simpa using hfirst

end StyledScene.Text
