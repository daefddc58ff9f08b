import StyledScene.Proofs.Style.MappedStyle

/-!
# Edits of styles that count as the same

No operation on styles sees more of a value than what counts: from the same styles, the same styles come
out (`Edit.same_apply`), whether an operation looks at a value, as writing does, or only passes it on.
-/

namespace StyledScene

/-! ## §1 Styles -/

namespace Style

section Merges

variable {s s' t t' : Style}

theorem same_put (h : s.same s' = true) {c : Category} (k : Key c) {a a' : Option c.Value}
    (ha : sameEntry c a a' = true) : (s.put k a).same (s'.put k a') = true := by
  apply same_iff.mpr
  intro d l
  by_cases hd : d = c
  · subst hd
    by_cases hl : l = k
    · simpa [hl, get?_put_self] using ha
    · simpa [get?_put_of_ne _ _ hl] using same_iff.mp h d l
  · simpa [get?_put_of_category_ne _ k l _ hd] using same_iff.mp h d l

theorem same_overlay (h : s.same s' = true) (h' : t.same t' = true) :
    (s.overlay t).same (s'.overlay t') = true := by
  apply same_iff.mpr
  intro c k
  simpa using sameEntry_or (same_iff.mp h' c k) (same_iff.mp h c k)

theorem same_fillFrom (h : s.same s' = true) (h' : t.same t' = true) :
    (s.fillFrom t).same (s'.fillFrom t') = true := by
  apply same_iff.mpr
  intro c k
  simpa using sameEntry_or (same_iff.mp h c k) (same_iff.mp h' c k)

theorem same_overlayInherited (h : s.same s' = true) (h' : t.same t' = true)
    (table : InheritTable) :
    (s.overlayInherited t table).same (s'.overlayInherited t' table) = true := by
  apply same_iff.mpr
  intro c k
  simp only [get?_overlayInherited]
  split
  · exact sameEntry_or (same_iff.mp h' c k) (same_iff.mp h c k)
  · exact same_iff.mp h c k

end Merges

end Style

/-! ## §2 Edits -/

namespace Edit

/-- The edits do the same, with values and styles that count as the same. -/
inductive Same : Edit → Edit → Prop where
  | set {c : Category} (k : Key c) {v v' : c.Value} (h : c.sameValue v v' = true) :
      Same (.set k v) (.set k v')
  | remove {c : Category} (k : Key c) : Same (.remove k) (.remove k)
  | overlay {t t' : Style} (h : t.same t' = true) : Same (.overlay t) (.overlay t')
  | overlayInherited {t t' : Style} (h : t.same t' = true) (table : InheritTable) :
      Same (.overlayInherited t table) (.overlayInherited t' table)
  | fillFrom {t t' : Style} (h : t.same t' = true) : Same (.fillFrom t) (.fillFrom t')
  | clear : Same .clear .clear

variable {s s' : Style} {e e' : Edit}

theorem alreadySet_eq (s : Style) {c : Category} (k : Key c) (v : c.Value) :
    alreadySet s k v = Style.sameEntry c (s.get? k) (some v) := by
  unfold alreadySet
  cases s.get? k <;> rfl

theorem alreadySet_congr (hs : s.same s' = true) {c : Category} (k : Key c) {v v' : c.Value}
    (hv : c.sameValue v v' = true) : alreadySet s k v = alreadySet s' k v' := by
  have hentry := Style.sameEntry_equivalence c
  have hk := Style.same_iff.mp hs c k
  rw [Bool.eq_iff_iff, alreadySet_eq, alreadySet_eq]
  constructor
  · intro h
    exact hentry.trans (hentry.symm hk) (hentry.trans h hv)
  · intro h
    exact hentry.trans hk (hentry.trans h (hentry.symm hv))

/-- **Edits respect sameness.** -/
theorem same_apply (hs : s.same s' = true) (he : e.Same e') :
    (e.apply s).same (e'.apply s') = true := by
  cases he with
  | set k hv =>
    -- both values are there already, or both are written
    simp only [apply, alreadySet_congr hs k hv]
    split
    · exact hs
    · exact Style.same_put hs k hv
  | remove k => exact Style.same_put hs k rfl
  | overlay h => exact Style.same_overlay hs h
  | overlayInherited h table => exact Style.same_overlayInherited hs h table
  | fillFrom h => exact Style.same_fillFrom hs h
  | clear => exact Style.same_equivalence.refl Style.empty

end Edit

/-! ## §3 Edits of maps -/

namespace MappedEdit

/-- The edits do the same, with stored values and maps that count as the same. -/
inductive Same : MappedEdit → MappedEdit → Prop where
  | set {c : Category} (k : Key c) {v v' : c.Stored} (h : c.sameStored v v' = true) :
      Same (.set k v) (.set k v')
  | remove {c : Category} (k : Key c) : Same (.remove k) (.remove k)
  | overlay {t t' : MappedStyle} (h : t.same t' = true) : Same (.overlay t) (.overlay t')
  | overlayInherited {t t' : MappedStyle} (h : t.same t' = true) (table : InheritTable) :
      Same (.overlayInherited t table) (.overlayInherited t' table)
  | fillFrom {t t' : MappedStyle} (h : t.same t' = true) : Same (.fillFrom t) (.fillFrom t')
  | clear : Same .clear .clear

variable {s s' : MappedStyle} {e e' : MappedEdit}

theorem Same.read (h : e.Same e') : e.read.Same e'.read := by
  cases h with
  | set k h => exact .set k h
  | remove k => exact .remove k
  | overlay h => exact .overlay (by rwa [← MappedStyle.same_eq])
  | overlayInherited h table => exact .overlayInherited (by rwa [← MappedStyle.same_eq]) table
  | fillFrom h => exact .fillFrom (by rwa [← MappedStyle.same_eq])
  | clear => exact .clear

theorem same_apply (hs : s.same s' = true) (he : e.Same e') :
    (e.apply s).same (e'.apply s') = true := by
  rw [MappedStyle.same_eq] at hs ⊢
  rw [style_apply, style_apply]
  exact Edit.same_apply hs he.read

end MappedEdit

end StyledScene
