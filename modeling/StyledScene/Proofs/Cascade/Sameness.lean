import Mathlib.Data.List.Forall2
import StyledScene.Cascade.Compute
import StyledScene.Proofs.Style.Congruence

/-!
# Sameness through the cascade

The cascade sees no more of a value than what counts: where the parent, the node itself, the defaults and
the declarations have styles that count as the same, so has the result (`same_computeStyle`). Which
declarations match, and how they are sorted, does not depend on their values.

Main statement: `samenessLaws`, about stores that are kept in maps. The cascade of maps is the cascade of
the styles that they hold (`MappedStyle.style_cascade`).
-/

namespace StyledScene

/-! ## §1 Sorting -/

/-- Sorting respects a relation that the comparison respects. -/
theorem forall₂_mergeSort {α β : Type} {R : α → β → Prop} {le : α → α → Bool} {le' : β → β → Bool}
    (hle : ∀ a b a' b', R a b → R a' b' → le a a' = le' b b') {l : List α} {l' : List β}
    (h : List.Forall₂ R l l') : List.Forall₂ R (l.mergeSort le) (l'.mergeSort le') := by
  obtain ⟨hlength, hzip⟩ := List.forall₂_iff_zip.mp h
  -- sort the pairs: either half of the result is sorted
  let sorted := (l.zip l').mergeSort fun p q => le p.1 q.1
  have hmem : ∀ p ∈ l.zip l', R p.1 p.2 := fun p hp => hzip hp
  have hleft : sorted.map Prod.fst = l.mergeSort le :=
    calc sorted.map Prod.fst
      _ = ((l.zip l').map Prod.fst).mergeSort le := List.map_mergeSort fun p _ q _ => rfl
      _ = l.mergeSort le := by rw [List.map_fst_zip (Nat.le_of_eq hlength)]
  have hright : sorted.map Prod.snd = l'.mergeSort le' :=
    calc sorted.map Prod.snd
      _ = ((l.zip l').map Prod.snd).mergeSort le' :=
        List.map_mergeSort fun p hp q hq => hle _ _ _ _ (hmem p hp) (hmem q hq)
      _ = l'.mergeSort le' := by rw [List.map_snd_zip (Nat.le_of_eq hlength.symm)]
  rw [← hleft, ← hright, List.forall₂_map_left_iff, List.forall₂_map_right_iff, List.forall₂_same]
  intro p hp
  exact hmem p ((List.mergeSort_perm _ _).mem_iff.mp hp)

/-! ## §2 The cascade of styles -/

/-- The declarations have the same selector and weight, and styles that count as the same. -/
structure Declaration.Same (d d' : Declaration) : Prop where
  selector : d.selector = d'.selector
  weight : d.weight = d'.weight
  style : d.style.same d'.style = true

/-- The contexts inherit alike, and have styles that count as the same. -/
structure StyleContext.Same (context context' : StyleContext) : Prop where
  parent : Option.Rel (fun s t : Style => s.same t = true) context.parent context'.parent
  ownValues : Option.Rel (fun s t : Style => s.same t = true) context.ownValues context'.ownValues
  defaults : Option.Rel (fun s t : Style => s.same t = true) context.defaults context'.defaults
  inherits : context.inherits = context'.inherits

theorem Style.same_overlayOption {s s' : Style} (h : s.same s' = true) {o o' : Option Style}
    (ho : Option.Rel (fun s t : Style => s.same t = true) o o') :
    (s.overlayOption o).same (s'.overlayOption o') = true := by
  cases ho with
  | some ho => exact Style.same_overlay h ho
  | none => exact h

theorem Style.same_foldl_overlay {ds ds' : List Declaration}
    (h : List.Forall₂ Declaration.Same ds ds') {s s' : Style} (hs : s.same s' = true) :
    (ds.foldl (fun s d => s.overlay d.style) s).same (ds'.foldl (fun s d => s.overlay d.style) s') =
      true := by
  induction h generalizing s s' with
  | nil => exact hs
  | cons hd _ ih => exact ih (Style.same_overlay hs hd.style)

theorem forall₂_matchingDeclarations (m : Matcher) (lineage : Lineage) {ds ds' : List Declaration}
    (h : List.Forall₂ Declaration.Same ds ds') :
    List.Forall₂ Declaration.Same (byWeight (matchingDeclarations m ds lineage))
      (byWeight (matchingDeclarations m ds' lineage)) := by
  apply forall₂_mergeSort
  · intro d d' e e' hd he
    rw [hd.weight, he.weight]
  · apply List.rel_filter _ h
    intro d d' hd
    simp [hd.selector]

/-- **The cascade respects sameness.** -/
theorem same_computeStyle (m : Matcher) (lineage : Lineage) {everywhere everywhere' : Option Declaration}
    (heverywhere : Option.Rel Declaration.Same everywhere everywhere') {ds ds' : List Declaration}
    (hds : List.Forall₂ Declaration.Same ds ds') {context context' : StyleContext}
    (hcontext : context.Same context') :
    (computeStyle m everywhere ds lineage context).same
      (computeStyle m everywhere' ds' lineage context') = true := by
  have hbase : (Style.empty.overlayOption (everywhere.map Declaration.style)).same
      (Style.empty.overlayOption (everywhere'.map Declaration.style)) = true := by
    apply Style.same_overlayOption (Style.same_equivalence.refl Style.empty)
    cases heverywhere with
    | some h => exact .some h.style
    | none => exact .none
  obtain ⟨parent, own, defaults, inherits⟩ := context
  obtain ⟨parent', own', defaults', inherits'⟩ := context'
  obtain ⟨hparent, hown, hdefaults, rfl⟩ := hcontext
  have hmatching := forall₂_matchingDeclarations m lineage hds
  -- source by source, each is laid over what counts as the same
  unfold computeStyle
  cases hparent with
  | none =>
    have hall := Style.same_overlayOption (Style.same_foldl_overlay hmatching hbase) hown
    cases hdefaults with
    | none => exact hall
    | some h => exact Style.same_fillFrom hall h
  | some hparent =>
    have hinherited := Style.same_overlayInherited hbase hparent inherits
    have hall := Style.same_overlayOption (Style.same_foldl_overlay hmatching hinherited) hown
    cases hdefaults with
    | none => exact hall
    | some h => exact Style.same_fillFrom hall h

/-! ## §3 The cascade of maps -/

/-- A declaration that keeps its values in maps. -/
structure MappedDeclaration where
  selector : Selector
  weight : Nat
  order : Nat
  maps : MappedStyle

/-- A context whose styles are kept in maps. -/
structure MappedContext where
  parent : Option MappedStyle
  ownValues : Option MappedStyle
  defaults : Option MappedStyle
  inherits : InheritTable

/-- The declaration with the style that its maps hold. -/
def MappedDeclaration.read (d : MappedDeclaration) : Declaration :=
  ⟨d.selector, d.weight, d.order, Store.ofStyle d.maps.style⟩

/-- The context with the styles that its maps hold. -/
def MappedContext.read (context : MappedContext) : StyleContext :=
  ⟨context.parent.map MappedStyle.style, context.ownValues.map MappedStyle.style,
    context.defaults.map MappedStyle.style, context.inherits⟩

namespace MappedStyle

/-- Computes the maps of the first node of the lineage, source by source. -/
def cascade (m : Matcher) (everywhere : Option MappedDeclaration)
    (declarations : List MappedDeclaration) (lineage : Lineage) (context : MappedContext) :
    MappedStyle :=
  let base := match everywhere with
    | some d => empty.overlay d.maps
    | none => empty
  let inherited := match context.parent with
    | some parent => base.overlayInherited parent context.inherits
    | none => base
  let matched := declarations.filter fun d => m.accepts d.selector lineage
  let declared := (matched.mergeSort fun d e => decide (d.weight ≤ e.weight)).foldl
    (fun s d => s.overlay d.maps) inherited
  let own := match context.ownValues with
    | some values => declared.overlay values
    | none => declared
  match context.defaults with
  | some defaults => (own.fillFrom defaults).1
  | none => own

theorem byWeight_map_read (ds : List MappedDeclaration) :
    byWeight (ds.map MappedDeclaration.read) =
      (ds.mergeSort fun d e => decide (d.weight ≤ e.weight)).map MappedDeclaration.read := by
  symm
  exact List.map_mergeSort fun _ _ _ _ => rfl

theorem style_foldl_overlay (ds : List MappedDeclaration) (s : MappedStyle) :
    (ds.foldl (fun s d => s.overlay d.maps) s).style =
      (ds.map MappedDeclaration.read).foldl (fun s d => s.overlay d.style) s.style := by
  induction ds generalizing s with
  | nil => rfl
  | cons d rest ih =>
    rw [List.foldl_cons, ih, style_overlay]
    rfl

/-- **The maps go through the cascade of styles.** -/
theorem style_cascade (m : Matcher) (everywhere : Option MappedDeclaration)
    (ds : List MappedDeclaration) (lineage : Lineage) (context : MappedContext) :
    (cascade m everywhere ds lineage context).style =
      computeStyle m (everywhere.map MappedDeclaration.read) (ds.map MappedDeclaration.read) lineage
        context.read := by
  have hmatching : matchingDeclarations m (ds.map MappedDeclaration.read) lineage =
      (ds.filter fun d => m.accepts d.selector lineage).map MappedDeclaration.read := by
    simp [matchingDeclarations, List.filter_map, Function.comp_def, MappedDeclaration.read]
  obtain ⟨parent, own, defaults, inherits⟩ := context
  simp only [cascade, computeStyle, hmatching, byWeight_map_read, MappedContext.read]
  cases everywhere <;> cases parent <;> cases own <;> cases defaults <;>
    simp [style_foldl_overlay, Style.overlayOption, MappedDeclaration.read, Declaration.style,
      Store.ofStyle]

end MappedStyle

/-! ## §4 Main statement -/

/-- The declarations have the same selector and weight, and maps that count as the same. -/
structure MappedDeclaration.Same (d d' : MappedDeclaration) : Prop where
  selector : d.selector = d'.selector
  weight : d.weight = d'.weight
  maps : d.maps.same d'.maps = true

/-- The contexts inherit alike, and have maps that count as the same. -/
structure MappedContext.Same (context context' : MappedContext) : Prop where
  parent : Option.Rel (fun s t : MappedStyle => s.same t = true) context.parent context'.parent
  ownValues : Option.Rel (fun s t : MappedStyle => s.same t = true) context.ownValues
    context'.ownValues
  defaults : Option.Rel (fun s t : MappedStyle => s.same t = true) context.defaults context'.defaults
  inherits : context.inherits = context'.inherits

theorem MappedDeclaration.Same.read {d d' : MappedDeclaration} (h : d.Same d') :
    d.read.Same d'.read where
  selector := h.selector
  weight := h.weight
  style := by
    rw [← h.maps, MappedStyle.same_eq]
    rfl

theorem rel_map_style {o o' : Option MappedStyle}
    (h : Option.Rel (fun s t : MappedStyle => s.same t = true) o o') :
    Option.Rel (fun s t : Style => s.same t = true) (o.map MappedStyle.style)
      (o'.map MappedStyle.style) := by
  cases h with
  | some h => exact .some (by rwa [← MappedStyle.same_eq])
  | none => exact .none

theorem MappedContext.Same.read {context context' : MappedContext} (h : context.Same context') :
    context.read.Same context'.read where
  parent := rel_map_style h.parent
  ownValues := rel_map_style h.ownValues
  defaults := rel_map_style h.defaults
  inherits := h.inherits

/-- The cascade of maps respects sameness. -/
theorem MappedStyle.same_cascade (m : Matcher) (lineage : Lineage)
    {everywhere everywhere' : Option MappedDeclaration}
    (heverywhere : Option.Rel MappedDeclaration.Same everywhere everywhere')
    {ds ds' : List MappedDeclaration} (hds : List.Forall₂ MappedDeclaration.Same ds ds')
    {context context' : MappedContext} (hcontext : context.Same context') :
    (cascade m everywhere ds lineage context).same (cascade m everywhere' ds' lineage context') =
      true := by
  rw [same_eq, style_cascade, style_cascade]
  apply same_computeStyle
  · cases heverywhere with
    | some h => exact .some h.read
    | none => exact .none
  · rw [List.forall₂_map_left_iff, List.forall₂_map_right_iff]
    exact hds.imp fun _ _ h => h.read
  · exact hcontext.read

/-- What makes sameness the right equality of stores. -/
structure SamenessLaws : Prop where
  /-- Undefined floats included. -/
  equivalence : Equivalence fun s t : MappedStyle => s.same t = true
  /-- Counting entries and looking them up one way compares the stores both ways. -/
  same_iff : ∀ s t : MappedStyle, s.same t = true ↔ ∀ (c : Category) (k : Key c),
    (s.has k = true ↔ t.has k = true) ∧
      ∀ v w, s.get? k = some v → t.get? k = some w → c.sameStored v w = true
  /-- Floats count as the same iff their words stand for one number, or neither for any. -/
  floats : ∀ v w : UInt32, Category.sameStored .float v w = true ↔
    FloatNumber.of? (Float32.ofBits v) = FloatNumber.of? (Float32.ofBits w)
  /-- The comparison is the one of the styles that the maps hold. -/
  same_eq : ∀ s t : MappedStyle, s.same t = s.style.same t.style
  /-- Reading a property gives values that count as the same, whatever is read where it is absent. -/
  reads : ∀ s t : MappedStyle, s.same t = true → ∀ (c : Category) (k : Key c) (default : c.Stored),
    c.sameStored (s.getD k default) (t.getD k default) = true
  edits : ∀ (s t : MappedStyle) (e e' : MappedEdit), s.same t = true → e.Same e' →
    (e.apply s).same (e'.apply t) = true
  cascades : ∀ (m : Matcher) (lineage : Lineage) (everywhere everywhere' : Option MappedDeclaration)
    (ds ds' : List MappedDeclaration) (context context' : MappedContext),
    Option.Rel MappedDeclaration.Same everywhere everywhere' →
    List.Forall₂ MappedDeclaration.Same ds ds' → context.Same context' →
    (MappedStyle.cascade m everywhere ds lineage context).same
      (MappedStyle.cascade m everywhere' ds' lineage context') = true

theorem samenessLaws : SamenessLaws where
  equivalence := by
    simp only [MappedStyle.same_eq]
    exact ⟨fun s => Style.same_equivalence.refl s.style, Style.same_equivalence.symm,
      Style.same_equivalence.trans⟩
  same_iff s t := by
    rw [MappedStyle.same_iff]
    apply forall_congr'
    intro c
    apply forall_congr'
    intro k
    unfold MappedStyle.has
    cases s.get? k <;> cases t.get? k <;> simp [Style.sameEntry, Category.sameStored]
  floats v w := Category.sameValue_float (Float32.ofBits v) (Float32.ofBits w)
  same_eq := MappedStyle.same_eq
  reads s t h c k default := by
    have hentry := Style.sameValue_getD (MappedStyle.same_iff.mp h c k) (c.read default)
    simpa [MappedStyle.getD, Category.sameStored, Option.getD_map] using hentry
  edits _ _ _ _ := MappedEdit.same_apply
  cascades m lineage _ _ _ _ _ _ heverywhere hds hcontext :=
    MappedStyle.same_cascade m lineage heverywhere hds hcontext

end StyledScene
