import Mathlib.Algebra.Group.Nat.Defs
import Mathlib.Order.Lattice
import StyledScene.Box.Geometry

/-!
# Signs of sums and differences

A sum of lengths none of which is positive is not positive (`add_le_zero`), and a positive length stays
positive when such a length is taken from it (`zero_lt_sub`). In 32-bit floats both need an argument: an
exact result is first rounded, and rounding could reach zero. It does not, since two floats are added in
steps of the smaller exponent, and at or above the least exponent of the format rounding drops no leading
bit (`fits_shift`).
-/

namespace StyledScene

open Float.Model (Format UnpackedFloat totalExponent)
open Float.Model.UnpackedFloat

namespace FloatSign

/-! ## §1 Signs of numbers -/

/-- A number other than zero, finite or not, with the given sign. -/
def HasSign (s : Sign) : UnpackedFloat → Prop
  | .infinity t | .finite t _ _ _ => t = s
  | .zero _ | .notANumber => False

/-- A zero, or a number below it. -/
def AtMostZero (x : UnpackedFloat) : Prop := HasSign .negative x ∨ ∃ s, x = .zero s

theorem unpack_zero : (0.0 : Float32).toModel.unpack = .zero .positive := rfl

theorem lt_iff_unpack (x y : Float32) : x < y ↔ x.toModel.unpack.lt y.toModel.unpack = true :=
  decide_eq_true_iff

theorem le_iff_unpack (x y : Float32) : x ≤ y ↔ x.toModel.unpack.le y.toModel.unpack = true :=
  decide_eq_true_iff

theorem zero_lt_iff (x : Float32) : 0.0 < x ↔ HasSign .positive x.toModel.unpack := by
  rw [lt_iff_unpack, unpack_zero]
  rcases x.toModel.unpack with (s | _ | s | ⟨s, m, e, hm⟩) <;> (try cases s) <;>
    first
    | exact iff_of_true rfl rfl
    | exact iff_of_false Bool.false_ne_true nofun

theorem le_zero_iff (x : Float32) : x ≤ 0.0 ↔ AtMostZero x.toModel.unpack := by
  rw [le_iff_unpack, unpack_zero]
  rcases x.toModel.unpack with (s | _ | s | ⟨s, m, e, hm⟩) <;> (try cases s) <;>
    first
    | exact iff_of_true rfl (.inl rfl)
    | exact iff_of_true rfl (.inr ⟨_, rfl⟩)
    | exact iff_of_false Bool.false_ne_true (Or.rec nofun nofun)

theorem compare_swap (a b : UnpackedFloat) : b.compare a = (a.compare b).map Ordering.swap := by
  -- exponents are compared before mantissas, and each comparison is oriented
  have hfinite (e f : Int) (m n : Nat) :
      (compare f e).then (compare n m) = ((compare e f).then (compare m n)).swap := by
    rw [Ordering.swap_then, ← Std.OrientedCmp.eq_swap, ← Std.OrientedCmp.eq_swap]
  rcases a with (s | _ | s | ⟨s, m, e, hm⟩) <;> rcases b with (t | _ | t | ⟨t, n, f, hn⟩) <;>
    (try cases s) <;> (try cases t) <;> try rfl
  · exact congrArg (fun o => some o.swap) (hfinite e f m n)
  · exact congrArg some (hfinite e f m n)

theorem isSome_compare {a b : UnpackedFloat} (ha : a.isNaN = false) (hb : b.isNaN = false) :
    (a.compare b).isSome = true := by
  rcases a with (s | _ | s | ⟨s, m, e, hm⟩) <;> rcases b with (t | _ | t | ⟨t, n, f, hn⟩) <;>
    (try cases s) <;> (try cases t) <;>
    first | rfl | exact Bool.noConfusion ha | exact Bool.noConfusion hb

/-! ## §2 Rounding -/

/-- A mantissa of at most 24 bits, not zero, with an exponent at or above the least one. -/
structure Fits (m : Nat) (e : Int) : Prop where
  pos : 0 < m
  lt : m < 2 ^ 24
  le : -149 ≤ e

/-- A number with the given sign, within the bounds of the format or infinite. -/
def Storable (s : Sign) : UnpackedFloat → Prop
  | .infinity t => t = s
  | .finite t m e _ => t = s ∧ Fits m e
  | .zero _ | .notANumber => False

theorem mantissa_shiftRight (em : ExtendedMantissa) (n : Nat) :
    (em >>> n).mantissa = em.mantissa / 2 ^ n := by
  show (Nat.repeat ExtendedMantissa.shiftRightOne n em).mantissa = _
  induction n with
  | zero => simp [Nat.repeat]
  | succ n ih =>
    calc (Nat.repeat ExtendedMantissa.shiftRightOne n em).mantissa / 2
        = em.mantissa / 2 ^ n / 2 := by rw [ih]
      _ = em.mantissa / 2 ^ (n + 1) := by rw [Nat.div_div_eq_div_mul, Nat.pow_succ]

theorem le_roundedMantissa (em : ExtendedMantissa) : em.mantissa ≤ em.roundedMantissa := by
  obtain ⟨m, r, t⟩ := em
  cases r <;> cases t <;>
    simp [ExtendedMantissa.roundedMantissa, ExtendedMantissa.accuracy, Accuracy.roundToNearestEven]

/-- One shift brings a number that is not below the least exponent into the bounds of the format. -/
theorem fits_shift {m : Nat} {e : Int} (hm : 0 < m) (he : -149 ≤ e) :
    Fits (shiftToTargetExponent .binary32 m e .exact).1.mantissa
      (shiftToTargetExponent .binary32 m e .exact).2 := by
  have htarget : Format.binary32.targetExponent (totalExponent m e) =
      max (m.log2 + 1 + e - 24) (-149) := rfl
  generalize hk : (max (m.log2 + 1 + e - 24) (-149) - e).toNat = k
  have hmantissa : (shiftToTargetExponent .binary32 m e .exact).1.mantissa = m / 2 ^ k := by
    rw [← hk, ← htarget]
    exact mantissa_shiftRight _ _
  have hexponent : (shiftToTargetExponent .binary32 m e .exact).2 = e + k := by
    rw [← hk, ← htarget]
    rfl
  rw [hmantissa, hexponent]
  refine ⟨?pos, ?lt, by omega⟩
  case pos =>
    -- no more bits go than stand below the leading one
    have hle : 2 ^ k ≤ m := Nat.le_trans (Nat.pow_le_pow_right (by decide) (by omega))
      (Nat.log2_self_le hm.ne')
    exact Nat.div_pos hle (Nat.two_pow_pos k)
  case lt =>
    -- and enough of them that 24 are left
    have hlt : m < 2 ^ (24 + k) := Nat.lt_of_lt_of_le Nat.lt_log2_self
      (Nat.pow_le_pow_right (by decide) (by omega))
    rw [Nat.div_lt_iff_lt_mul (Nat.two_pow_pos k), ← Nat.pow_add]
    exact hlt

theorem decreaseExponent_pos {m : Nat} (hm : 0 < m) (e t : Int) : 0 < (decreaseExponent m e t).1 := by
  simp only [decreaseExponent, Nat.shiftLeft_eq]
  exact Nat.mul_pos hm (Nat.two_pow_pos _)

section Rounding

variable (s : Sign) {m : Nat} {e : Int}

theorem storable_roundWithAccuracy (hm : 0 < m) (he : -149 ≤ e) :
    Storable s (roundWithAccuracy .binary32 s m e .exact) := by
  have first := fits_shift hm he
  have hpos := Nat.lt_of_lt_of_le first.pos (le_roundedMantissa _)
  -- the rounded mantissa may have one bit too many, and is shifted again
  have second := fits_shift hpos first.le
  have hround : roundWithAccuracy .binary32 s m e .exact = .finite s _ _ second.pos :=
    dif_neg second.pos.ne'
  rw [hround]
  exact ⟨rfl, second⟩

theorem storable_round (hm : 0 < m) (he : -149 ≤ e) :
    Storable s (UnpackedFloat.round .binary32 s m e) := by
  let target := Format.binary32.targetExponent (totalExponent m e)
  have htarget : -149 ≤ target := le_max_right _ _
  have hexponent : -149 ≤ (decreaseExponent m e target).2 := by
    simp only [decreaseExponent]
    omega
  -- the mantissa is first lengthened, which loses nothing
  exact storable_roundWithAccuracy s (decreaseExponent_pos hm e target) hexponent

/-- Rounding keeps the sign of an exact number that is not below the least exponent. -/
theorem storable_normalize (hm : 0 < m) (he : -149 ≤ e) (z : Sign) :
    Storable s (UnpackedFloat.normalize .binary32 (s.apply m) e z) := by
  have hround := storable_round s hm he
  cases s with
  | positive =>
    have hcompare : compare (m : Int) 0 = .gt := Int.compare_eq_gt.mpr (by omega)
    simpa [UnpackedFloat.normalize, Sign.apply, hcompare] using hround
  | negative =>
    have hcompare : compare (-m : Int) 0 = .lt := Int.compare_eq_lt.mpr (by omega)
    simpa [UnpackedFloat.normalize, Sign.apply, hcompare] using hround

end Rounding

/-! ## §3 Packing -/

section Words

variable {b : BitVec Format.binary32.numBits}

theorem unpack_of_last (hlast : unpackExponent b = -1#8) :
    unpack .binary32 b = if unpackMantissa b = 0#23 then .infinity (Sign.ofBitVec (unpackSign b))
      else .notANumber :=
  if_pos hlast

/-- A subnormal number has the least exponent. -/
theorem unpack_of_first (hfirst : unpackExponent b = 0#8) (hmantissa : unpackMantissa b ≠ 0#23) :
    ∃ hpos, unpack .binary32 b =
      .finite (Sign.ofBitVec (unpackSign b)) (unpackMantissa b).toNat (-149) hpos := by
  have hlast : unpackExponent b ≠ -1#8 := by rw [hfirst]; decide
  have hexponent : ((unpackExponent b).toNat - 150 + 1 : Int) = -149 := by rw [hfirst]; rfl
  rw [← hexponent]
  exact ⟨_, (if_neg hlast).trans ((if_pos hfirst).trans (dif_neg hmantissa))⟩

/-- In all other words the leading bit of the mantissa is left out. -/
theorem unpack_of_between (hlast : unpackExponent b ≠ -1#8) (hfirst : unpackExponent b ≠ 0#8) :
    ∃ hpos, unpack .binary32 b =
      .finite (Sign.ofBitVec (unpackSign b)) (1#1 ++ unpackMantissa b).toNat
        ((unpackExponent b).toNat - 150) hpos :=
  ⟨_, (if_neg hlast).trans (if_neg hfirst)⟩

theorem unpack_of_zero (hfirst : unpackExponent b = 0#8) (hmantissa : unpackMantissa b = 0#23) :
    unpack .binary32 b = .zero (Sign.ofBitVec (unpackSign b)) := by
  have hlast : unpackExponent b ≠ -1#8 := by rw [hfirst]; decide
  exact (if_neg hlast).trans ((if_pos hfirst).trans (dif_pos hmantissa))

/-- What is unpacked is within the bounds of the format. -/
theorem storable_unpack {s : Sign} (h : HasSign s (unpack .binary32 b)) :
    Storable s (unpack .binary32 b) := by
  by_cases hlast : unpackExponent b = -1#8
  · rw [unpack_of_last hlast] at h ⊢
    by_cases hmantissa : unpackMantissa b = 0#23
    · rw [if_pos hmantissa] at h ⊢
      exact h
    · rw [if_neg hmantissa] at h
      exact h.elim
  by_cases hfirst : unpackExponent b = 0#8
  · by_cases hmantissa : unpackMantissa b = 0#23
    · rw [unpack_of_zero hfirst hmantissa] at h
      exact h.elim
    · obtain ⟨hpos, hunpack⟩ := unpack_of_first hfirst hmantissa
      rw [hunpack] at h ⊢
      exact ⟨h, hpos, Nat.lt_trans (unpackMantissa b).isLt (by decide), le_refl _⟩
  · obtain ⟨hpos, hunpack⟩ := unpack_of_between hlast hfirst
    rw [hunpack] at h ⊢
    have hexponent : 0 < (unpackExponent b).toNat := by
      simpa [BitVec.toNat_pos, BitVec.pos_iff_ne_zero] using hfirst
    exact ⟨h, hpos, (1#1 ++ unpackMantissa b).isLt, by omega⟩

end Words

theorem sign_packComponents (s : Sign) (exponent : BitVec 8) (mantissa : BitVec 23) :
    Sign.ofBitVec (unpackSign (packComponents .binary32 s exponent mantissa)) = s := by
  -- the sign stands above the mantissa and above the exponent
  have habove : (s.toBitVec ++ exponent ++ mantissa).extractLsb' 31 1 = s.toBitVec := by
    rw [BitVec.extractLsb'_append_eq_of_le (by decide), BitVec.extractLsb'_append_eq_of_le (by decide)]
    cases s <;> rfl
  have hsign : unpackSign (packComponents .binary32 s exponent mantissa) = s.toBitVec := habove
  rw [hsign]
  cases s <;> rfl

theorem unpack_packedInfinity (s : Sign) :
    unpack .binary32 (packedInfinity .binary32 s) = .infinity s := by
  rw [packedInfinity, unpack_of_last unpackExponent_packComponents, sign_packComponents]
  exact if_pos unpackMantissa_packComponents

theorem hasSign_packComponents (s : Sign) {exponent : BitVec 8} {mantissa : BitVec 23}
    (hmax : exponent ≠ -1#8) (hzero : exponent ≠ 0#8 ∨ mantissa ≠ 0#23) :
    HasSign s (unpack .binary32 (packComponents .binary32 s exponent mantissa)) := by
  have hsign := sign_packComponents s exponent mantissa
  have hexponent : unpackExponent (packComponents .binary32 s exponent mantissa) = exponent :=
    unpackExponent_packComponents
  have hmantissa : unpackMantissa (packComponents .binary32 s exponent mantissa) = mantissa :=
    unpackMantissa_packComponents
  by_cases hfirst : exponent = 0#8
  · obtain ⟨hpos, hunpack⟩ := unpack_of_first (hexponent.trans hfirst)
      (hmantissa.trans_ne (hzero.resolve_left (not_not_intro hfirst)))
    rw [hunpack]
    exact hsign
  · obtain ⟨hpos, hunpack⟩ := unpack_of_between (hexponent.trans_ne hmax) (hexponent.trans_ne hfirst)
    rw [hunpack]
    exact hsign

/-- Packing keeps the sign of a number within the bounds, even where its exponent is too large. -/
theorem Storable.hasSign_pack {s : Sign} {x : UnpackedFloat} (hx : Storable s x) :
    HasSign s (unpack .binary32 (pack .binary32 x)) := by
  fun_cases pack with
  | case1 | case3 => exact hx.elim
  | case2 t => rwa [unpack_packedInfinity]
  | case4 t =>
    rw [unpack_packedInfinity]
    exact hx.1
  | case5 t m e hm bits biased hover =>
    -- the exponent of a normal number is neither the first nor the last
    obtain ⟨rfl, hfits⟩ : t = s ∧ Fits m e := hx
    have hbiased : biased = (e + 127 + 23).toNat := rfl
    have hlo : 0 < biased := by have := hfits.le; omega
    have hhi : biased < 255 := by simp only [Nat.reducePow] at hover; omega
    exact hasSign_packComponents t (by bv_omega) (.inl (by bv_omega))
  | case6 t m e hm bits biased hover hbits =>
    -- without a leading bit the whole mantissa is stored
    obtain ⟨rfl, hfits⟩ : t = s ∧ Fits m e := hx
    have hlog : m.log2 < 24 := (Nat.log2_lt hm.ne').mpr hfits.lt
    have hbits : m.log2 + 1 ≠ 24 := hbits
    have hlt : m < 2 ^ 23 := (Nat.log2_lt hm.ne').mp (by omega)
    exact hasSign_packComponents t (by decide) (.inr (by bv_omega))

/-! ## §4 Sums and differences -/

theorem apply_add (s : Sign) (m n : Nat) : s.apply m + s.apply n = s.apply (m + n : Nat) := by
  cases s <;> simp only [Sign.apply] <;> omega

theorem Storable.add {s : Sign} {a b : UnpackedFloat} (ha : Storable s a) (hb : Storable s b) :
    Storable s (UnpackedFloat.add .binary32 a b) := by
  rcases a with (t | _ | _ | ⟨t, m, e, hm⟩) <;> rcases b with (u | _ | _ | ⟨u, n, f, hn⟩) <;>
    first | exact ha.elim | exact hb.elim | skip
  case infinity.infinity =>
    obtain rfl : t = s := ha
    obtain rfl : u = t := hb
    cases u <;> rfl
  case infinity.finite => exact ha
  case finite.infinity => exact hb
  case finite.finite =>
    -- both mantissas count the smaller unit, so their sum is exact before it is rounded
    obtain ⟨rfl, hm'⟩ : t = s ∧ Fits m e := ha
    obtain ⟨rfl, hn'⟩ : u = t ∧ Fits n f := hb
    have hpos := Nat.add_pos_left (decreaseExponent_pos hm e (min e f)) (decreaseExponent n f (min e f)).1
    have hmin : -149 ≤ min e f := le_min hm'.le hn'.le
    show Storable u (UnpackedFloat.normalize .binary32 (u.apply _ + u.apply _) _ _)
    rw [apply_add]
    exact storable_normalize u hpos hmin _

theorem Storable.add_zero {s : Sign} {a : UnpackedFloat} (ha : Storable s a) (t : Sign) :
    Storable s (UnpackedFloat.add .binary32 a (.zero t)) := by
  cases a with
  | infinity | finite => exact ha
  | zero | notANumber => exact ha.elim

theorem Storable.zero_add {s : Sign} {a : UnpackedFloat} (ha : Storable s a) (t : Sign) :
    Storable s (UnpackedFloat.add .binary32 (.zero t) a) := by
  cases a with
  | infinity | finite => exact ha
  | zero | notANumber => exact ha.elim

theorem exists_zero_add_zero (s t : Sign) :
    ∃ u, UnpackedFloat.add .binary32 (.zero s) (.zero t) = .zero u := by
  cases s <;> cases t <;> exact ⟨_, rfl⟩

/-- To subtract is to add the negated number, also in floats. -/
theorem sub_eq_add_neg (a b : UnpackedFloat) :
    UnpackedFloat.sub .binary32 a b = UnpackedFloat.add .binary32 a b.neg := by
  have happly (s : Sign) (n : Int) : (-s).apply n = -s.apply n := by
    cases s
    · exact (Int.neg_neg n).symm
    · rfl
  rcases a with (s | _ | s | ⟨s, m, e, hm⟩) <;> rcases b with (t | _ | t | ⟨t, n, f, hn⟩) <;> try rfl
  -- two finite numbers are brought to one exponent first
  show UnpackedFloat.normalize .binary32 (s.apply _ - t.apply _) _ _ =
    UnpackedFloat.normalize .binary32 (s.apply _ + (-t).apply _) _ _
  rw [happly, ← Int.sub_eq_add_neg]

theorem Storable.neg {b : UnpackedFloat} (hb : Storable .negative b) : Storable .positive b.neg := by
  cases b with
  | infinity t =>
    obtain rfl : t = .negative := hb
    rfl
  | finite t m e hm =>
    obtain ⟨rfl, hfits⟩ : t = .negative ∧ Fits m e := hb
    exact ⟨rfl, hfits⟩
  | zero | notANumber => exact hb.elim

end FloatSign

/-! ## §5 Lengths -/

open FloatSign

/-- Of two defined floats, one is less than the other or the other is at most the one. -/
theorem lt_or_le_of_isNaN {x y : Float32} (hx : x.isNaN = false) (hy : y.isNaN = false) :
    x < y ∨ y ≤ x := by
  rw [lt_iff_unpack, le_iff_unpack, UnpackedFloat.lt, UnpackedFloat.le, compare_swap x.toModel.unpack]
  obtain ⟨o, ho⟩ := Option.isSome_iff_exists.mp (isSome_compare hx hy)
  cases o <;> simp [ho]

/-- The sum of two lengths that are not positive is not positive. -/
theorem add_le_zero {x y : Float32} (hx : x ≤ 0.0) (hy : y ≤ 0.0) : x + y ≤ 0.0 := by
  rw [le_zero_iff] at hx hy ⊢
  change AtMostZero (unpack .binary32 (pack .binary32
    (UnpackedFloat.add .binary32 x.toModel.unpack y.toModel.unpack)))
  obtain hx | ⟨s, hx⟩ := hx <;> obtain hy | ⟨t, hy⟩ := hy
  · -- only here is anything rounded
    exact .inl ((storable_unpack hx).add (storable_unpack hy)).hasSign_pack
  · rw [hy]
    exact .inl ((storable_unpack hx).add_zero t).hasSign_pack
  · rw [hx]
    exact .inl ((storable_unpack hy).zero_add s).hasSign_pack
  · obtain ⟨u, hu⟩ := exists_zero_add_zero s t
    rw [hx, hy, hu]
    exact .inr ⟨u, by cases u <;> rfl⟩

/-- A positive length is still positive when one that is not positive is taken from it. -/
theorem zero_lt_sub {x y : Float32} (hx : 0.0 < x) (hy : y ≤ 0.0) : 0.0 < x - y := by
  rw [zero_lt_iff] at hx ⊢
  rw [le_zero_iff] at hy
  change HasSign .positive (unpack .binary32 (pack .binary32
    (UnpackedFloat.sub .binary32 x.toModel.unpack y.toModel.unpack)))
  rw [sub_eq_add_neg]
  obtain hy | ⟨t, hy⟩ := hy
  · exact ((storable_unpack hx).add (storable_unpack hy).neg).hasSign_pack
  · rw [hy]
    exact ((storable_unpack hx).add_zero (-t)).hasSign_pack

end StyledScene
