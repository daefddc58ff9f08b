import StyledScene.Style.Basic

/-!
# Values that count as the same

A float is written over another without effect if the two are equal as numbers, or if both are undefined.
Comparing floats is no equivalence: an undefined float is not equal to itself. Told by the number that a
float stands for, where none is an answer like any other (`sameValue_float`), the sameness of values is one
in every category (`Category.sameValue_equivalence`), and so is the sameness of entries.
-/

namespace StyledScene

open Float.Model (UnpackedFloat)

/-! ## §1 The number of a float -/

/-- The numbers that floats stand for. There is one zero, whatever its sign. -/
inductive FloatNumber where
  | zero
  | infinite (negative : Bool)
  /-- The number `mantissa * 2 ^ exponent`, or its negative. -/
  | finite (negative : Bool) (mantissa : Nat) (exponent : Int)
deriving DecidableEq, Repr

namespace FloatNumber

/-- The number of a float that is taken apart, if it is defined. -/
def ofUnpacked? : UnpackedFloat → Option FloatNumber
  | .notANumber => none
  | .zero _ => some zero
  | .infinity .negative => some (infinite true)
  | .infinity .positive => some (infinite false)
  | .finite .negative m e _ => some (finite true m e)
  | .finite .positive m e _ => some (finite false m e)

/-- The number of a float, if it is defined. -/
def of? (x : Float32) : Option FloatNumber := ofUnpacked? x.toModel.unpack

/-- Two floats are equal iff they stand for one number. -/
theorem beq_iff (a b : UnpackedFloat) :
    a.beq b = true ↔ ∃ n, ofUnpacked? a = some n ∧ ofUnpacked? b = some n := by
  have hsign (s t : UnpackedFloat.Sign) : compare s t = .eq ↔ s = t := by
    cases s <;> cases t <;> first
      | exact iff_of_true rfl rfl
      | exact iff_of_false (by decide) nofun
  -- exponents are compared before mantissas
  have hfinite (e f : Int) (m n : Nat) :
      (compare e f).then (compare m n) = .eq ↔ n = m ∧ f = e := by
    rw [Ordering.then_eq_eq, Std.compare_eq_iff_eq, Std.compare_eq_iff_eq, and_comm, eq_comm,
      eq_comm (a := e)]
  rcases a with (s | _ | s | ⟨s, m, e, -⟩) <;> rcases b with (t | _ | t | ⟨t, n, f, -⟩) <;>
    (try cases s) <;> (try cases t) <;>
    dsimp only [UnpackedFloat.beq, UnpackedFloat.compare, ofUnpacked?] <;>
    simp [hsign, hfinite]

theorem isNaN_iff (a : UnpackedFloat) : a.isNaN = true ↔ ofUnpacked? a = none := by
  cases a with
  | notANumber => exact iff_of_true rfl rfl
  | zero s => exact iff_of_false Bool.false_ne_true (Option.some_ne_none _)
  | infinity s | finite s => cases s <;> exact iff_of_false Bool.false_ne_true (Option.some_ne_none _)

end FloatNumber

namespace Category

/-! ## §2 Sameness of values -/

/-- Floats count as the same iff they stand for the same number, or for none. -/
theorem sameValue_float (x y : Float32) :
    sameValue .float x y = true ↔ FloatNumber.of? x = FloatNumber.of? y := by
  have hbeq := FloatNumber.beq_iff x.toModel.unpack y.toModel.unpack
  have hx := FloatNumber.isNaN_iff x.toModel.unpack
  have hy := FloatNumber.isNaN_iff y.toModel.unpack
  unfold FloatNumber.of?
  show (x.toModel.unpack.beq y.toModel.unpack ||
    (x.toModel.unpack.isNaN && y.toModel.unpack.isNaN)) = true ↔ _
  rw [Bool.or_eq_true, Bool.and_eq_true, hbeq, hx, hy]
  cases FloatNumber.ofUnpacked? x.toModel.unpack <;>
    cases FloatNumber.ofUnpacked? y.toModel.unpack <;> simp [eq_comm]

/-- **Counting as the same is an equivalence** of the values of each category. -/
theorem sameValue_equivalence (c : Category) : Equivalence fun a b => c.sameValue a b = true := by
  cases c with
  | float =>
    simp only [sameValue_float]
    exact ⟨fun _ => rfl, Eq.symm, Eq.trans⟩
  | color | string | integer | boolean =>
    simp only [sameValue, beq_iff_eq]
    exact ⟨fun _ => rfl, Eq.symm, Eq.trans⟩

end Category

namespace Style

/-! ## §3 Sameness of entries -/

section Entries

variable {c : Category} {a a' b b' : Option c.Value}

theorem sameEntry_equivalence (c : Category) :
    Equivalence fun a b : Option c.Value => sameEntry c a b = true where
  refl a := by
    cases a with
    | none => rfl
    | some v => exact c.sameValue_equivalence.refl v
  symm {a b} h := by
    cases a <;> cases b <;> simp only [sameEntry, Bool.false_eq_true] at h ⊢
    exact c.sameValue_equivalence.symm h
  trans {a b d} h h' := by
    cases a <;> cases b <;> cases d <;> simp only [sameEntry, Bool.false_eq_true] at h h' ⊢
    exact c.sameValue_equivalence.trans h h'

/-- Same entries are both there or both absent. -/
theorem isSome_eq_of_sameEntry (h : sameEntry c a b = true) : a.isSome = b.isSome := by
  cases a <;> cases b <;> simp_all [sameEntry]

theorem sameEntry_or (ha : sameEntry c a a' = true) (hb : sameEntry c b b' = true) :
    sameEntry c (a.or b) (a'.or b') = true := by
  cases a with
  | none =>
    have ha' : a' = none := by simpa using (isSome_eq_of_sameEntry ha).symm
    simpa [ha'] using hb
  | some v =>
    obtain ⟨v', rfl⟩ := Option.isSome_iff_exists.mp (isSome_eq_of_sameEntry ha).symm
    simpa using ha

theorem sameValue_getD (h : sameEntry c a b = true) (default : c.Value) :
    c.sameValue (a.getD default) (b.getD default) = true := by
  cases a <;> cases b <;> simp only [sameEntry, Bool.false_eq_true] at h
  · exact c.sameValue_equivalence.refl default
  · exact h

end Entries

/-! ## §4 Sameness of styles -/

/-- Styles are the same iff they have the same entries. -/
theorem same_iff {s t : Style} :
    s.same t = true ↔ ∀ (c : Category) (k : Key c), sameEntry c (s.get? k) (t.get? k) = true := by
  simp only [same, List.all_eq_true]
  constructor
  · intro h c k
    exact h c (Category.mem_all c) k (Key.mem_all k)
  · intro h c _ k _
    exact h c k

theorem same_equivalence : Equivalence fun s t : Style => s.same t = true where
  refl s := same_iff.mpr fun c k => (sameEntry_equivalence c).refl (s.get? k)
  symm h := same_iff.mpr fun c k => (sameEntry_equivalence c).symm (same_iff.mp h c k)
  trans h h' := same_iff.mpr fun c k =>
    (sameEntry_equivalence c).trans (same_iff.mp h c k) (same_iff.mp h' c k)

end Style

end StyledScene
