import StyledScene.Color

/-!
# Channels of a color

A packed color is the number with its channels as digits in base 256 (`toNat_ofArgb`), and each channel is
read as one of these digits. So packing and unpacking undo each other (`ofArgb_channels`), and another
alpha leaves the other channels alone.
-/

namespace StyledScene.Color

/-! ## §1 The packed word -/

/-- A number that fits into the zeros at the end of a shifted one. -/
theorem or_eq_add {low place : Nat} (hlow : low < 1 <<< place) (high : Nat) :
    high <<< place ||| low = high <<< place + low := by
  rw [Nat.one_shiftLeft] at hlow
  rw [Nat.shiftLeft_add_eq_or_of_lt hlow]

theorem ext_toNat {c d : Color} (h : c.argb.toNat = d.argb.toNat) : c = d :=
  congrArg Color.mk (UInt32.toNat_inj.mp h)

theorem toNat_ofArgb (a r g b : UInt8) :
    (ofArgb a r g b).argb.toNat =
      a.toNat * 0x1000000 + r.toNat * 0x10000 + g.toNat * 0x100 + b.toNat := by
  have ha := a.toNat_lt
  have hr := r.toNat_lt
  have hg := g.toNat_lt
  have hb := b.toNat_lt
  -- no shift loses a bit
  have hword : (ofArgb a r g b).argb.toNat =
      a.toNat <<< 24 ||| r.toNat <<< 16 ||| g.toNat <<< 8 ||| b.toNat := by
    have ha' : a.toNat <<< 24 % 2 ^ 32 = a.toNat <<< 24 := by omega
    have hr' : r.toNat <<< 16 % 2 ^ 32 = r.toNat <<< 16 := by omega
    have hg' : g.toNat <<< 8 % 2 ^ 32 = g.toNat <<< 8 := by omega
    rw [← ha', ← hr', ← hg']
    simp [ofArgb]
  have hred : a.toNat <<< 24 ||| r.toNat <<< 16 = (a.toNat <<< 8 + r.toNat) <<< 16 := by
    rw [or_eq_add (by omega)]
    omega
  have hgreen : (a.toNat <<< 8 + r.toNat) <<< 16 ||| g.toNat <<< 8 =
      (a.toNat <<< 16 + r.toNat <<< 8 + g.toNat) <<< 8 := by
    rw [or_eq_add (by omega)]
    omega
  rw [hword, hred, hgreen, or_eq_add (by omega)]
  omega

theorem toNat_alpha (c : Color) : c.alpha.toNat = c.argb.toNat / 0x1000000 := by
  have hc := c.argb.toNat_lt
  simp only [alpha, UInt32.toNat_toUInt8, UInt32.toNat_shiftRight, Nat.shiftRight_eq_div_pow]
  simp
  omega

theorem toNat_red (c : Color) : c.red.toNat = c.argb.toNat / 0x10000 % 0x100 := by
  simp [red, Nat.shiftRight_eq_div_pow]

theorem toNat_green (c : Color) : c.green.toNat = c.argb.toNat / 0x100 % 0x100 := by
  simp [green, Nat.shiftRight_eq_div_pow]

theorem toNat_blue (c : Color) : c.blue.toNat = c.argb.toNat % 0x100 := by simp [blue]

theorem toNat_withAlpha (c : Color) (a : UInt8) :
    (c.withAlpha a).argb.toNat = a.toNat * 0x1000000 + c.argb.toNat % 0x1000000 := by
  have ha := a.toNat_lt
  have hc := c.argb.toNat_lt
  have hmask : c.argb.toNat &&& 0x00FFFFFF = c.argb.toNat % 2 ^ 24 :=
    Nat.and_two_pow_sub_one_eq_mod c.argb.toNat 24
  have hshift : a.toNat <<< 24 % 2 ^ 32 = a.toNat <<< 24 := by omega
  have hword : (c.withAlpha a).argb.toNat = a.toNat <<< 24 ||| c.argb.toNat % 2 ^ 24 := by
    rw [← hshift, ← hmask, Nat.or_comm]
    simp [withAlpha]
  rw [hword, or_eq_add (by omega)]
  omega

/-! ## §2 Packing and unpacking -/

/-- The channels of a color that was packed from four bytes. -/
theorem channels_ofArgb (a r g b : UInt8) :
    (ofArgb a r g b).alpha = a ∧ (ofArgb a r g b).red = r ∧ (ofArgb a r g b).green = g ∧
      (ofArgb a r g b).blue = b := by
  have hword := toNat_ofArgb a r g b
  have ha := a.toNat_lt
  have hr := r.toNat_lt
  have hg := g.toNat_lt
  have hb := b.toNat_lt
  refine ⟨?_, ?_, ?_, ?_⟩ <;> apply UInt8.toNat_inj.mp
  · rw [toNat_alpha]; omega
  · rw [toNat_red]; omega
  · rw [toNat_green]; omega
  · rw [toNat_blue]; omega

/-- A color is packed from its channels. -/
theorem ofArgb_channels (c : Color) : ofArgb c.alpha c.red c.green c.blue = c := by
  apply ext_toNat
  rw [toNat_ofArgb, toNat_alpha, toNat_red, toNat_green, toNat_blue]
  omega

/-- Another alpha changes nothing but the alpha. -/
theorem withAlpha_ofArgb (a r g b x : UInt8) : (ofArgb a r g b).withAlpha x = ofArgb x r g b := by
  have hr := r.toNat_lt
  have hg := g.toNat_lt
  have hb := b.toNat_lt
  apply ext_toNat
  rw [toNat_withAlpha, toNat_ofArgb, toNat_ofArgb]
  omega

end StyledScene.Color
