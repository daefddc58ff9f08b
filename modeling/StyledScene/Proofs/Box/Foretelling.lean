import StyledScene.Box.Paint
import StyledScene.Proofs.Box.Signs

/-!
# What a summary foretells

The summary of a style is drawn up once, and the painter decides again for every rectangle; the two agree
(`BoxFlags.ofStyle_foretells`). For the border they decide by different means: the summary asks whether
some side is wide, the painter drops the bands that have no area. If top and bottom are not wide, the bands
between them are as high as the box or higher, so whichever side is wide leaves a band
(`exists_band_hasArea`).
-/

namespace StyledScene

/-! ## §1 Defined measures -/

namespace Style

theorem isNaN_of_length?_eq_some {s : Style} {k : Key .float} {v : Float32} (h : s.length? k = some v) :
    v.isNaN = false := by
  have hkept : (!v.isNaN) = true := (Option.filter_eq_some_iff.mp h).2
  simpa only [Bool.not_eq_true'] using hkept

theorem isNaN_sideLength (s : Style) (all side : Key .float) : (s.sideLength all side).isNaN = false := by
  unfold sideLength
  cases hside : s.length? side with
  | some v => exact isNaN_of_length?_eq_some hside
  | none =>
    cases hall : s.length? all with
    | some v => exact isNaN_of_length?_eq_some hall
    | none => rfl

theorem isNaN_opacityOf (s : Style) : s.opacityOf.isNaN = false := by
  unfold opacityOf
  split
  · rfl
  · next v hv =>
    split_ifs
    · rfl
    · rfl
    · exact isNaN_of_length?_eq_some hv

/-- An opacity that is not below one lets colors through unchanged. -/
theorem faded_opacityOf {s : Style} (h : ¬ s.opacityOf < 1.0) (c : Color) : c.faded s.opacityOf = c :=
  if_pos ((lt_or_le_of_isNaN s.isNaN_opacityOf rfl).resolve_left h)

/-! ## §2 Visible colors -/

/-- A color with which a style paints: a declared one, seen at the opacity, of which something shows. -/
structure Paints (s : Style) (k : Key .color) (c : Color) : Prop where
  faded : c = (s.get k).faded s.opacityOf
  visible : c.alpha ≠ 0

theorem Paints.declared {s : Style} {k : Key .color} {c : Color} (h : s.Paints k c)
    (hopacity : ¬ s.opacityOf < 1.0) : c = s.get k := by
  rw [h.faded, faded_opacityOf hopacity]

theorem visibleBackground?_eq_some {s : Style} {c : Color} (h : s.visibleBackground? = some c) :
    s.Paints .backgroundColor c := by
  simp only [visibleBackground?, Option.ite_none_left_eq_some, Option.some.injEq] at h
  obtain ⟨hvisible, rfl⟩ := h
  exact ⟨rfl, by simpa only [Color.isTransparent, beq_iff_eq] using hvisible⟩

theorem visibleBorder?_eq_some {s : Style} {widths : Edges} {c : Color}
    (h : s.visibleBorder? = some (widths, c)) :
    widths = s.borderWidths ∧ widths.anyPositive = true ∧ s.Paints .borderColor c := by
  simp only [visibleBorder?, Option.ite_none_right_eq_some, Option.some.injEq, Prod.mk.injEq,
    Bool.and_eq_true, Bool.not_eq_true'] at h
  obtain ⟨⟨hpositive, hvisible⟩, rfl, rfl⟩ := h
  exact ⟨rfl, hpositive, rfl, by simpa only [Color.isTransparent, beq_eq_false_iff_ne] using hvisible⟩

end Style

/-! ## §3 The bands of a border -/

theorem zero_lt_atLeastZero {x : Float32} (h : 0.0 < x) : 0.0 < atLeastZero x := by
  rw [atLeastZero, if_pos h]
  exact h

theorem Rect.hasArea_iff (r : Rect) : r.hasArea = true ↔ 0.0 < r.width ∧ 0.0 < r.height := by
  simp only [Rect.hasArea, Bool.and_eq_true, decide_eq_true_eq]

theorem Edges.anyPositive_iff (e : Edges) :
    e.anyPositive = true ↔ 0.0 < e.top ∨ 0.0 < e.right ∨ 0.0 < e.bottom ∨ 0.0 < e.left := by
  simp only [Edges.anyPositive, Bool.or_eq_true, decide_eq_true_eq, or_assoc]

/-- If some side of the border is wide, then some band has an area. -/
theorem exists_band_hasArea {rect : Rect} {widths : Edges} (hwidth : 0.0 < rect.width)
    (hheight : 0.0 < rect.height) (htop : widths.top.isNaN = false) (hbottom : widths.bottom.isNaN = false)
    (hpositive : widths.anyPositive = true) :
    ∃ band ∈ borderBands rect widths, band.hasArea = true := by
  simp only [Rect.hasArea_iff, borderBands, List.mem_cons, List.not_mem_nil, or_false,
    exists_eq_or_imp, exists_eq_left]
  -- top and bottom go over the full width
  rcases lt_or_le_of_isNaN (x := 0.0) rfl htop with htop | htop
  · exact .inl ⟨hwidth, htop⟩
  rcases lt_or_le_of_isNaN (x := 0.0) rfl hbottom with hbottom | hbottom
  · exact .inr (.inl ⟨hwidth, hbottom⟩)
  -- otherwise they leave the whole height to left and right
  have hmiddle : 0.0 < atLeastZero (rect.height - widths.vertical) :=
    zero_lt_atLeastZero (zero_lt_sub hheight (add_le_zero htop hbottom))
  rcases (Edges.anyPositive_iff widths).mp hpositive with h | h | h | h
  · exact .inl ⟨hwidth, h⟩
  · exact .inr (.inr (.inr ⟨h, hmiddle⟩))
  · exact .inr (.inl ⟨hwidth, h⟩)
  · exact .inr (.inr (.inl ⟨h, hmiddle⟩))

/-! ## §4 The calls of the painter -/

section Calls

variable {s : Style} {rect : Rect} {call : PaintCall}

/-- The call for a background of the given color, round at the corners or not. -/
def backgroundCall (rounded : Bool) (s : Style) (rect : Rect) (c : Color) : PaintCall :=
  if rounded then .fillRounded rect s.cornerRadii c else .fill rect c

theorem color?_backgroundCall (rounded : Bool) (s : Style) (rect : Rect) (c : Color) :
    (backgroundCall rounded s rect c).color? = some c := by
  cases rounded <;> rfl

theorem paintBackground_eq (s : Style) (rect : Rect) :
    paintBackground s rect =
      (s.visibleBackground?.map (backgroundCall (!s.cornerRadii.isZero) s rect)).toList := by
  unfold paintBackground backgroundCall
  cases s.visibleBackground? with
  | none => rfl
  | some c => cases s.cornerRadii.isZero <;> rfl

theorem mem_paintBackground (h : call ∈ paintBackground s rect) :
    ∃ c, s.Paints .backgroundColor c ∧ call = backgroundCall (!s.cornerRadii.isZero) s rect c := by
  rw [paintBackground_eq, Option.mem_toList, Option.map_eq_some_iff] at h
  obtain ⟨c, hc, rfl⟩ := h
  exact ⟨c, Style.visibleBackground?_eq_some hc, rfl⟩

theorem mem_paintBorder (h : call ∈ paintBorder s rect) :
    ∃ c, s.Paints .borderColor c ∧ call.color? = some c ∧
      (call.isRounded = true → s.cornerRadii.isZero = false) := by
  unfold paintBorder at h
  split at h
  case h_1 => exact absurd h List.not_mem_nil
  case h_2 widths c hborder =>
    have hpaints := (Style.visibleBorder?_eq_some hborder).2.2
    refine ⟨c, hpaints, ?_⟩
    split_ifs at h with huniform hzero
    · obtain rfl := List.mem_singleton.mp h
      exact ⟨rfl, Bool.noConfusion⟩
    · obtain rfl := List.mem_singleton.mp h
      exact ⟨rfl, fun _ => Bool.not_eq_true _ ▸ hzero⟩
    · obtain ⟨band, -, rfl⟩ := List.mem_map.mp h
      exact ⟨rfl, Bool.noConfusion⟩

/-- A box with an area gets calls for its border iff the style has a visible one. -/
theorem paintBorder_ne_nil_iff (hwidth : 0.0 < rect.width) (hheight : 0.0 < rect.height) :
    paintBorder s rect ≠ [] ↔ s.visibleBorder?.isSome = true := by
  unfold paintBorder
  cases hborder : s.visibleBorder? with
  | none => simp
  | some border =>
    obtain ⟨widths, c⟩ := border
    obtain ⟨rfl, hpositive, -⟩ := Style.visibleBorder?_eq_some hborder
    refine iff_of_true ?_ rfl
    dsimp only
    split_ifs
    · exact List.cons_ne_nil _ _
    · exact List.cons_ne_nil _ _
    · -- several widths leave at least one band
      have htop : s.borderWidths.top.isNaN = false := s.isNaN_sideLength .borderWidth .borderTopWidth
      have hbottom : s.borderWidths.bottom.isNaN = false :=
        s.isNaN_sideLength .borderWidth .borderBottomWidth
      obtain ⟨band, hmem, harea⟩ := exists_band_hasArea hwidth hheight htop hbottom hpositive
      exact List.ne_nil_of_mem (List.mem_map_of_mem (List.mem_filter.mpr ⟨hmem, harea⟩))

end Calls

/-! ## §5 Agreement -/

namespace BoxFlags

/-- What the summary of a style tells about the calls that paint a box. -/
structure Foretells (flags : BoxFlags) (s : Style) (rect : Rect) : Prop where
  background_length : (paintBackground s rect).length = (flags.contains .drawBackground).toNat
  /-- The background is painted over the box, in its rounded form iff the flag says so. -/
  background_form : ∀ call ∈ paintBackground s rect,
    ∃ c, call = if flags.contains .roundedCorners then .fillRounded rect s.cornerRadii c
      else .fill rect c
  border_ne_nil : paintBorder s rect ≠ [] ↔ flags.contains .drawBorder = true
  border_rounded : ∀ call ∈ paintBorder s rect,
    call.isRounded = true → flags.contains .roundedCorners = true
  /-- Every call shows something. -/
  visible : ∀ call ∈ paintBackground s rect ++ paintBorder s rect,
    ∃ c, call.color? = some c ∧ c.alpha ≠ 0
  /-- Unless the box is translucent, colors are painted as declared. -/
  background_declared : flags.contains .translucent = false → ∀ call ∈ paintBackground s rect,
    call.color? = some (s.get .backgroundColor)
  border_declared : flags.contains .translucent = false → ∀ call ∈ paintBorder s rect,
    call.color? = some (s.get .borderColor)

/-- **The summary of a style agrees with the painter**, for every box that has an area. -/
theorem ofStyle_foretells (s : Style) {rect : Rect} (hwidth : 0.0 < rect.width)
    (hheight : 0.0 < rect.height) : (ofStyle s).Foretells s rect := by
  have hrounded : (ofStyle s).contains .roundedCorners = !s.cornerRadii.isZero := contains_ofStyle s _
  have hopacity : (ofStyle s).contains .translucent = false → ¬ s.opacityOf < 1.0 := by
    rw [contains_ofStyle]
    exact of_decide_eq_false
  constructor
  case background_length =>
    rw [paintBackground_eq, contains_ofStyle, Option.length_toList]
    cases h : s.visibleBackground? <;> simp [BoxFlag.holds, h]
  case background_form =>
    intro call h
    obtain ⟨c, -, rfl⟩ := mem_paintBackground h
    exact ⟨c, by rw [hrounded, backgroundCall]⟩
  case border_ne_nil =>
    rw [contains_ofStyle]
    exact paintBorder_ne_nil_iff hwidth hheight
  case border_rounded =>
    intro call h hround
    obtain ⟨c, -, -, hzero⟩ := mem_paintBorder h
    rw [hrounded, hzero hround]
    rfl
  case visible =>
    intro call h
    rcases List.mem_append.mp h with h | h
    · obtain ⟨c, hpaints, rfl⟩ := mem_paintBackground h
      exact ⟨c, color?_backgroundCall _ s rect c, hpaints.visible⟩
    · obtain ⟨c, hpaints, hc, -⟩ := mem_paintBorder h
      exact ⟨c, hc, hpaints.visible⟩
  case background_declared =>
    intro htranslucent call h
    obtain ⟨c, hpaints, rfl⟩ := mem_paintBackground h
    rw [color?_backgroundCall, hpaints.declared (hopacity htranslucent)]
  case border_declared =>
    intro htranslucent call h
    obtain ⟨c, hpaints, hc, -⟩ := mem_paintBorder h
    rw [hc, hpaints.declared (hopacity htranslucent)]

/-- A border to the left and, with less than no width, at the bottom. -/
def lopsidedBorder : Style :=
  ((Style.empty.put .borderLeftWidth (some 2.0)).put .borderBottomWidth (some (-1.0))).put
    .borderColor (some Color.black)

/-- One band is painted, on the left; less than no width at the bottom makes it higher than its box. -/
theorem ofStyle_foretells_lopsidedBorder :
    (ofStyle lopsidedBorder).Foretells lopsidedBorder ⟨0.0, 0.0, 20.0, 10.0⟩ ∧
      paintBorder lopsidedBorder ⟨0.0, 0.0, 20.0, 10.0⟩ =
        [.fill ⟨0.0, 0.0, 2.0, 11.0⟩ Color.black] := by
  have hforetells : (ofStyle lopsidedBorder).Foretells lopsidedBorder ⟨0.0, 0.0, 20.0, 10.0⟩ :=
    ofStyle_foretells lopsidedBorder (by decide) (by decide)
  exact ⟨hforetells, by decide +kernel⟩

end BoxFlags

end StyledScene
