import StyledScene.Proofs.Style.MappedStyle

/-!
# The laws of merging

Laying one style over another is a union of partial maps in which the second wins, and the other merges
are made of it: what is inherited is a restriction laid over, filling is laying the other way round, and
copying is laying over nothing. Whether a property has a value decides, never which value it is.

The laws hold of the loops over the five maps (`mergeLaws`). They are laws of look-ups (`Agrees`): the
maps themselves may list their entries in another order.
-/

namespace StyledScene
namespace MappedStyle

/-! ## §1 Agreement -/

/-- Every look-up in the one gives what it gives in the other, down to the stored word. -/
def Agrees (s t : MappedStyle) : Prop := ∀ (c : Category) (k : Key c), s.get? k = t.get? k

namespace Agrees

variable {s s' t t' : MappedStyle} (h : s.Agrees s') (h' : t.Agrees t')

include h h'

theorem overlay : (s.overlay t).Agrees (s'.overlay t') := by
  intro c k
  simp [h c k, h' c k]

theorem overlayInherited (table : InheritTable) :
    (s.overlayInherited t table).Agrees (s'.overlayInherited t' table) := by
  intro c k
  simp [h c k, h' c k]

theorem fillFrom : (s.fillFrom t).1.Agrees (s'.fillFrom t').1 := by
  intro c k
  simp [h c k, h' c k]

end Agrees

/-! ## §2 Single laws -/

section Laws

variable (a b c : MappedStyle) (t : InheritTable)

theorem overlay_assoc : ((a.overlay b).overlay c).Agrees (a.overlay (b.overlay c)) := by
  intro d k
  simp [Option.or_assoc]

theorem overlay_twice : ((a.overlay b).overlay b).Agrees (a.overlay b) := by
  intro d k
  simp [← Option.or_assoc]

theorem overlay_of_isEmpty (h : b.isEmpty = true) : (a.overlay b).Agrees a := by
  intro d k
  simp [isEmpty_iff.mp h d k]

theorem overlayInherited_agrees : (a.overlayInherited b t).Agrees (a.overlay (b.restrict t)) := by
  intro d k
  simp only [get?_overlayInherited, get?_overlay, get?_restrict]
  split <;> simp

/-- Only what the lists contain counts, not how often or in which order. -/
theorem overlayInherited_congr {t t' : InheritTable}
    (h : ∀ (d : Category) (k : Key d), k ∈ t.keys d ↔ k ∈ t'.keys d) :
    (a.overlayInherited b t).Agrees (a.overlayInherited b t') := by
  intro d k
  simp [InheritTable.contains, h d k]

theorem overlayInherited_of_not_mem {d : Category} {k : Key d} (h : k ∉ t.keys d) :
    (a.overlayInherited b t).get? k = a.get? k := by
  simp [InheritTable.contains, h]

theorem fillFrom_agrees : (a.fillFrom b).1.Agrees (b.overlay a) := by
  intro d k
  simp

theorem get?_fillFrom_of_has {d : Category} {k : Key d} (h : a.has k = true) :
    (a.fillFrom b).1.get? k = a.get? k := by
  obtain ⟨v, hv⟩ := Option.isSome_iff_exists.mp h
  simp [hv]

theorem ofStyle_agrees : (ofStyle a).Agrees a := by
  intro d k
  simp

end Laws

/-! ## §3 All laws -/

/-- How the merges of three stores are connected. -/
structure MergeLaws (a b c : MappedStyle) (t : InheritTable) : Prop where
  /-- What the second store has wins, whatever its value. -/
  overlay_get : ∀ (d : Category) (k : Key d),
    (a.overlay b).get? k = if b.has k then b.get? k else a.get? k
  assoc : ((a.overlay b).overlay c).Agrees (a.overlay (b.overlay c))
  twice : ((a.overlay b).overlay b).Agrees (a.overlay b)
  nothing : b.isEmpty = true → (a.overlay b).Agrees a
  /-- Inheriting lays a restriction over. -/
  inherited : (a.overlayInherited b t).Agrees (a.overlay (b.restrict t))
  /-- The restriction has the listed values, and no others. -/
  restricted : ∀ (d : Category) (k : Key d),
    (b.restrict t).get? k = if k ∈ t.keys d then b.get? k else none
  /-- Lists with the same members inherit the same, whatever their order and repetitions. -/
  listing : ∀ t' : InheritTable, (∀ (d : Category) (k : Key d), k ∈ t.keys d ↔ k ∈ t'.keys d) →
    (a.overlayInherited b t).Agrees (a.overlayInherited b t')
  unlisted : ∀ (d : Category) (k : Key d), k ∉ t.keys d →
    (a.overlayInherited b t).get? k = a.get? k
  /-- Filling lays the other way round. -/
  filled : (a.fillFrom b).1.Agrees (b.overlay a)
  /-- A value that is there stays, be it undefined, empty, zero or false. -/
  kept : ∀ (d : Category) (k : Key d), a.has k = true → (a.fillFrom b).1.get? k = a.get? k
  copied : (ofStyle a).Agrees a
  /-- The order in which the maps list their entries makes no difference. -/
  unordered : ∀ a' b' : MappedStyle, a.Agrees a' → b.Agrees b' →
    (a.overlay b).Agrees (a'.overlay b') ∧
      (a.overlayInherited b t).Agrees (a'.overlayInherited b' t) ∧
      (a.fillFrom b).1.Agrees (a'.fillFrom b').1
  /-- The merges of styles are the merges of the maps that hold them. -/
  read_overlay : (a.overlay b).style = a.style.overlay b.style
  read_inherited : (a.overlayInherited b t).style = a.style.overlayInherited b.style t
  read_restricted : (b.restrict t).style = b.style.restrict t
  read_filled : (a.fillFrom b).1.style = a.style.fillFrom b.style
  read_copied : (ofStyle a).style = (Store.ofStyle a.style).style

/-- **The laws of merging hold of all stores and every table.** -/
theorem mergeLaws (a b c : MappedStyle) (t : InheritTable) : MergeLaws a b c t where
  overlay_get d k := by
    rw [get?_overlay, has]
    cases b.get? k <;> simp
  assoc := overlay_assoc a b c
  twice := overlay_twice a b
  nothing := overlay_of_isEmpty a b
  inherited := overlayInherited_agrees a b t
  restricted d k := by simp [InheritTable.contains]
  listing _ h := overlayInherited_congr a b h
  unlisted _ _ h := overlayInherited_of_not_mem a b t h
  filled := fillFrom_agrees a b
  kept _ _ h := get?_fillFrom_of_has a b h
  copied := ofStyle_agrees a
  unordered _ _ ha hb := ⟨ha.overlay hb, ha.overlayInherited hb t, ha.fillFrom hb⟩
  read_overlay := style_overlay a b
  read_inherited := style_overlayInherited a b t
  read_restricted := style_restrict b t
  read_filled := style_fillFrom a b
  read_copied := style_ofStyle a

end MappedStyle
end StyledScene
