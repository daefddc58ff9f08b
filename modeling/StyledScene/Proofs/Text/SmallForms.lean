import StyledScene.Text.Lowercase

/-!
# Small forms

Lower-casing leaves a text alone that it has already been through, and every text whose characters come
from such a text, in any order: the small forms in the tables have no small forms of their own
(`CaseRun.misses_of_mem`), and only a capital sigma asks for its neighbours.
-/

namespace StyledScene.Text

/-! ## §1 Runs of capitals -/

namespace CaseRun

/-- Whether no small form of the first run is a capital of the second one, told by their ends: the
small forms end before the capitals begin, or begin after they end, or the two alternate. -/
def misses (r s : CaseRun) : Bool :=
  Nat.blt (r.target + (r.last - r.first)) s.first || Nat.blt s.last r.target ||
    Nat.beq s.stride 2 && (Nat.beq r.stride 2 || Nat.beq r.first r.last) &&
      Nat.beq ((r.target + s.first) % 2) 1

theorem misses_iff {r s : CaseRun} :
    r.misses s = true ↔ r.target + (r.last - r.first) < s.first ∨ s.last < r.target ∨
      s.stride = 2 ∧ (r.stride = 2 ∨ r.first = r.last) ∧ (r.target + s.first) % 2 = 1 := by
  simp [misses, or_assoc, and_assoc]

theorem covers_iff {r : CaseRun} {n : Nat} :
    r.covers n = true ↔ r.first ≤ n ∧ n ≤ r.last ∧ (n - r.first) % r.stride = 0 := by
  simp [covers, and_assoc]

theorem covers_lower_of_misses {r s : CaseRun} {n : Nat} (hmiss : r.misses s = true)
    (hcover : r.covers n = true) : s.covers (r.lower n) = false := by
  obtain ⟨hfirst, hlast, hstride⟩ := covers_iff.mp hcover
  rw [Bool.eq_false_iff, Ne, covers_iff, lower]
  rintro ⟨hfirst', hlast', hstride'⟩
  rcases misses_iff.mp hmiss with hbefore | hafter | ⟨htwo, hr, hodd⟩
  · omega
  · omega
  · -- the small form is an even number above the first one, and so is the capital
    rw [htwo] at hstride'
    have heven : (n - r.first) % 2 = 0 := by
      rcases hr with hr | hr
      · rwa [hr] at hstride
      · have hzero : n - r.first = 0 := by omega
        simp [hzero]
    omega

/-- The one capital that has a small form of two characters. -/
def dotted : CaseRun := ⟨0x130, 0x130, 1, 0x69⟩

/-- No small form of the table is a capital, of the table or the one outside it. -/
theorem misses_of_mem {r : CaseRun} (hr : r ∈ caseRuns) {s : CaseRun} (hs : s ∈ dotted :: caseRuns) :
    r.misses s = true := by
  have hall : (caseRuns.all fun r => (dotted :: caseRuns).all r.misses) = true := by decide +kernel
  exact List.all_eq_true.mp (List.all_eq_true.mp hall r hr) s hs

/-- The small forms are characters. -/
theorem target_of_mem : ∀ r ∈ caseRuns,
    r.target + (r.last - r.first) < 0xD800 ∨
      0xDFFF < r.target ∧ r.target + (r.last - r.first) < 0x110000 := by
  decide +kernel

theorem isValidChar_lower {r : CaseRun} (hr : r ∈ caseRuns) {n : Nat} (hcover : r.covers n = true) :
    (r.lower n).isValidChar := by
  obtain ⟨hfirst, hlast, -⟩ := covers_iff.mp hcover
  have htarget := target_of_mem r hr
  simp only [Nat.isValidChar, lower]
  omega

end CaseRun

theorem findRun_eq_some {n : Nat} {runs : List CaseRun} {r : CaseRun} (h : findRun n runs = some r) :
    r ∈ runs ∧ r.covers n = true := by
  induction runs with
  | nil => cases h
  | cons s rest ih =>
    unfold findRun at h
    split at h
    · cases h
    · split at h
      · cases h
        exact ⟨List.mem_cons_self, ‹_›⟩
      · exact ⟨List.mem_cons_of_mem _ (ih h).1, (ih h).2⟩

theorem findRun_eq_none {n : Nat} {runs : List CaseRun} (h : ∀ r ∈ runs, r.covers n = false) :
    findRun n runs = none := by
  induction runs with
  | nil => rfl
  | cons r rest ih =>
    obtain ⟨hr, hrest⟩ := List.forall_mem_cons.mp h
    simp [findRun, hr, ih hrest]

theorem toNat_smallForm {c : Char} {r : CaseRun} (hrun : findRun c.toNat caseRuns = some r) :
    (smallForm c).toNat = r.lower c.toNat := by
  obtain ⟨hr, hcover⟩ := findRun_eq_some hrun
  have hsmall : smallForm c = Char.ofNat (r.lower c.toNat) := by simp [smallForm, hrun]
  rw [hsmall, Char.ofNat, dif_pos (CaseRun.isValidChar_lower hr hcover)]
  rfl

/-! ## §2 Low characters -/

/-- A character that is its own small form. -/
def IsLow (c : Char) : Prop := lowerChar c = [c]

instance : DecidablePred IsLow := fun c => inferInstanceAs (Decidable (lowerChar c = [c]))

theorem isLow_of_findRun {c : Char} (hdotted : c ≠ '\u0130')
    (hrun : findRun c.toNat caseRuns = none) : IsLow c := by
  simp [IsLow, lowerChar, smallForm, hdotted, hrun]

/-- Small forms are low. -/
theorem isLow_smallForm {c : Char} (h : c ≠ '\u0130') : IsLow (smallForm c) := by
  cases hrun : findRun c.toNat caseRuns with
  | none => simpa [smallForm, hrun] using isLow_of_findRun h hrun
  | some r =>
    obtain ⟨hr, hcover⟩ := findRun_eq_some hrun
    have hmiss : ∀ s ∈ CaseRun.dotted :: caseRuns, s.covers (smallForm c).toNat = false := by
      intro s hs
      rw [toNat_smallForm hrun]
      exact CaseRun.covers_lower_of_misses (CaseRun.misses_of_mem hr hs) hcover
    obtain ⟨hdotted, hruns⟩ := List.forall_mem_cons.mp hmiss
    apply isLow_of_findRun _ (findRun_eq_none hruns)
    intro hsmall
    rw [hsmall] at hdotted
    exact absurd hdotted (by decide)

theorem isLow_of_mem_lowerChar {c d : Char} (h : d ∈ lowerChar c) : IsLow d := by
  unfold lowerChar at h
  split at h
  · -- the two characters of the dotted capital
    simp only [List.mem_cons, List.not_mem_nil, or_false] at h
    rcases h with rfl | rfl <;> decide
  · rename_i hdotted
    rw [List.mem_singleton] at h
    exact h ▸ isLow_smallForm hdotted

/-! ## §3 Low texts -/

/-- What is lower-cased has low characters only. -/
theorem isLow_of_mem_lowerChars {cs : List Char} {d : Char} (h : d ∈ lowerChars cs) : IsLow d := by
  suffices hafter : ∀ before, d ∈ lowerAfter before cs → IsLow d from hafter [] h
  clear h
  induction cs with
  | nil =>
    intro before hd
    cases hd
  | cons c cs ih =>
    intro before hd
    rw [lowerAfter, List.mem_append] at hd
    rcases hd with hd | hd
    · split at hd
      · -- both small sigmas are low
        obtain rfl := List.mem_singleton.mp hd
        split <;> decide
      · exact isLow_of_mem_lowerChar hd
    · exact ih _ hd

theorem IsLow.ne_capitalSigma {c : Char} (h : IsLow c) : c ≠ 'Σ' := by
  rintro rfl
  exact absurd h (by decide)

/-- Low characters stay as they are, whatever stands beside them. -/
theorem lowerChars_of_isLow {cs : List Char} (h : ∀ c ∈ cs, IsLow c) : lowerChars cs = cs := by
  suffices hafter : ∀ before, lowerAfter before cs = cs from hafter []
  induction cs with
  | nil => exact fun _ => rfl
  | cons c cs ih =>
    intro before
    obtain ⟨hc, hcs⟩ := List.forall_mem_cons.mp h
    have hlow : lowerChar c = [c] := hc
    simp [lowerAfter, hc.ne_capitalSigma, hlow, ih hcs]

end StyledScene.Text
