import StyledScene.Proofs.Style.ValueMap
import StyledScene.Style.Edit

/-!
# Mapped styles

A style kept as five value maps, one for each category, and merged map by map. Nothing but the way in
which the operations are written keeps the categories apart.

`MappedStyle.style` is the style that the maps hold. An edit of the maps does to it what `Edit.apply`
does (`MappedEdit.style_apply`), and the comparison of the maps is the sameness of the styles
(`MappedStyle.same_eq`).
-/

namespace StyledScene

/-- A style as five maps. -/
structure MappedStyle where
  colors : ValueMap .color
  strings : ValueMap .string
  floats : ValueMap .float
  integers : ValueMap .integer
  booleans : ValueMap .boolean

namespace MappedStyle

/-! ## §1 Operations -/

/-- The map of a category. -/
def map (s : MappedStyle) : (c : Category) → ValueMap c
  | .color => s.colors
  | .string => s.strings
  | .float => s.floats
  | .integer => s.integers
  | .boolean => s.booleans

/-- Replaces the map of a category. -/
def withMap (s : MappedStyle) : {c : Category} → ValueMap c → MappedStyle
  | .color, m => { s with colors := m }
  | .string, m => { s with strings := m }
  | .float, m => { s with floats := m }
  | .integer, m => { s with integers := m }
  | .boolean, m => { s with booleans := m }

/-- The style without values. -/
def empty : MappedStyle := ⟨∅, ∅, ∅, ∅, ∅⟩

/-- The stored value of a property. -/
def get? (s : MappedStyle) {c : Category} (k : Key c) : Option c.Stored := (s.map c).lookup k

/-- The stored value of a property, or the given one. -/
def getD (s : MappedStyle) {c : Category} (k : Key c) (default : c.Stored) : c.Stored :=
  (s.get? k).getD default

/-- Whether a property has a value, whatever it is. -/
def has (s : MappedStyle) {c : Category} (k : Key c) : Bool := (s.get? k).isSome

/-- Gives a property a value. -/
def put (s : MappedStyle) {c : Category} (k : Key c) (v : c.Stored) : MappedStyle :=
  s.withMap ((s.map c).insert k v)

/-- Takes the value of a property away. -/
def erase (s : MappedStyle) {c : Category} (k : Key c) : MappedStyle :=
  s.withMap ((s.map c).erase k)

/-- Whether a property already has a value that counts as the given one. -/
def alreadySet (s : MappedStyle) {c : Category} (k : Key c) (v : c.Stored) : Bool :=
  (s.get? k).any fun current => c.sameStored current v

/-- The number of values. -/
def size (s : MappedStyle) : Nat :=
  s.colors.size + s.strings.size + s.floats.size + s.integers.size + s.booleans.size

/-- Whether no property has a value. -/
def isEmpty (s : MappedStyle) : Bool := s.size == 0

/-- Writes every value of another style over this one. -/
def overlay (s other : MappedStyle) : MappedStyle where
  colors := s.colors.overlay other.colors
  strings := s.strings.overlay other.strings
  floats := s.floats.overlay other.floats
  integers := s.integers.overlay other.integers
  booleans := s.booleans.overlay other.booleans

/-- Writes the listed values of another style over this one. -/
def overlayInherited (s other : MappedStyle) (t : InheritTable) : MappedStyle where
  colors := s.colors.overlayListed other.colors t.colors
  strings := s.strings.overlayListed other.strings t.strings
  floats := s.floats.overlayListed other.floats t.floats
  integers := s.integers.overlayListed other.integers t.integers
  booleans := s.booleans.overlayListed other.booleans t.booleans

/-- Copies the values that this style lacks from another one; the flag says whether there were any. -/
def fillFrom (s other : MappedStyle) : MappedStyle × Bool :=
  let colors := s.colors.fillFrom other.colors
  let strings := s.strings.fillFrom other.strings
  let floats := s.floats.fillFrom other.floats
  let integers := s.integers.fillFrom other.integers
  let booleans := s.booleans.fillFrom other.booleans
  -- every category is filled, also after one that had something to copy
  (⟨colors.1, strings.1, floats.1, integers.1, booleans.1⟩,
    colors.2 || strings.2 || floats.2 || integers.2 || booleans.2)

/-- The values of the listed properties. -/
def restrict (s : MappedStyle) (t : InheritTable) : MappedStyle where
  colors := s.colors.restrict t.colors
  strings := s.strings.restrict t.strings
  floats := s.floats.restrict t.floats
  integers := s.integers.restrict t.integers
  booleans := s.booleans.restrict t.booleans

/-- A style of its own, made by writing every value over an empty one. -/
def ofStyle (other : MappedStyle) : MappedStyle := empty.overlay other

/-- Whether the maps of each category count as the same. -/
def same (s other : MappedStyle) : Bool :=
  s.colors.same other.colors && s.strings.same other.strings && s.floats.same other.floats &&
    s.integers.same other.integers && s.booleans.same other.booleans

/-! ## §2 Look-ups -/

@[simp] theorem map_withMap_self (s : MappedStyle) {c : Category} (m : ValueMap c) :
    (s.withMap m).map c = m := by
  cases c <;> rfl

theorem map_withMap_of_ne (s : MappedStyle) {c d : Category} (m : ValueMap c) (h : d ≠ c) :
    (s.withMap m).map d = s.map d := by
  cases c <;> cases d <;> first | exact absurd rfl h | rfl

theorem map_overlay (s other : MappedStyle) (c : Category) :
    (s.overlay other).map c = (s.map c).overlay (other.map c) := by
  cases c <;> rfl

theorem map_overlayInherited (s other : MappedStyle) (t : InheritTable) (c : Category) :
    (s.overlayInherited other t).map c = (s.map c).overlayListed (other.map c) (t.keys c) := by
  cases c <;> rfl

theorem map_fillFrom (s other : MappedStyle) (c : Category) :
    (s.fillFrom other).1.map c = ((s.map c).fillFrom (other.map c)).1 := by
  cases c <;> rfl

theorem map_restrict (s : MappedStyle) (t : InheritTable) (c : Category) :
    (s.restrict t).map c = (s.map c).restrict (t.keys c) := by
  cases c <;> rfl

section LookUps

variable (s other : MappedStyle) (t : InheritTable) {c d : Category} (k : Key c)

@[simp] theorem get?_empty : empty.get? k = none := by
  cases c <;> rfl

theorem get?_put_self (v : c.Stored) : (s.put k v).get? k = some v := by
  simp [get?, put]

theorem get?_put_of_ne {l : Key c} (v : c.Stored) (h : l ≠ k) : (s.put k v).get? l = s.get? l := by
  simp [get?, put, AList.lookup_insert_ne h]

theorem get?_put_of_category_ne (l : Key d) (v : c.Stored) (h : d ≠ c) :
    (s.put k v).get? l = s.get? l := by
  simp [get?, put, map_withMap_of_ne s _ h]

theorem get?_erase_self : (s.erase k).get? k = none := by
  simp [get?, erase]

theorem get?_erase_of_ne {l : Key c} (h : l ≠ k) : (s.erase k).get? l = s.get? l := by
  simp [get?, erase, AList.lookup_erase_ne h]

theorem get?_erase_of_category_ne (l : Key d) (h : d ≠ c) : (s.erase k).get? l = s.get? l := by
  simp [get?, erase, map_withMap_of_ne s _ h]

@[simp] theorem get?_overlay : (s.overlay other).get? k = (other.get? k).or (s.get? k) := by
  rw [get?, map_overlay, ValueMap.lookup_overlay, get?, get?]

@[simp] theorem get?_overlayInherited : (s.overlayInherited other t).get? k =
    if t.contains k then (other.get? k).or (s.get? k) else s.get? k := by
  rw [get?, map_overlayInherited, ValueMap.lookup_overlayListed, get?, get?, InheritTable.contains]
  simp

@[simp] theorem get?_fillFrom : (s.fillFrom other).1.get? k = (s.get? k).or (other.get? k) := by
  rw [get?, map_fillFrom, ValueMap.lookup_fillFrom, get?, get?]

@[simp] theorem get?_restrict :
    (s.restrict t).get? k = if t.contains k then s.get? k else none := by
  rw [get?, map_restrict, ValueMap.lookup_restrict, get?, InheritTable.contains]
  simp

@[simp] theorem get?_ofStyle : (ofStyle s).get? k = s.get? k := by
  simp [ofStyle]

end LookUps

theorem has_iff (s : MappedStyle) {c : Category} (k : Key c) : s.has k = true ↔ k ∈ s.map c :=
  AList.lookup_isSome

/-- The flag of a filling says whether the style lacked a value. -/
theorem copied_iff (s other : MappedStyle) :
    (s.fillFrom other).2 = true ↔
      ∃ (c : Category) (k : Key c), other.has k = true ∧ ¬ s.has k = true := by
  have hcategory : (s.fillFrom other).2 = true ↔
      ∃ c : Category, ((s.map c).fillFrom (other.map c)).2 = true := by
    simp only [fillFrom, Bool.or_eq_true]
    constructor
    · rintro ((((h | h) | h) | h) | h)
      exacts [⟨.color, h⟩, ⟨.string, h⟩, ⟨.float, h⟩, ⟨.integer, h⟩, ⟨.boolean, h⟩]
    · rintro ⟨c, h⟩
      cases c <;> simp_all [map]
  simp only [hcategory, ValueMap.copied_iff, has_iff]

/-- A filling that copies nothing leaves the maps as they are. -/
theorem fillFrom_of_not_copied {s other : MappedStyle} (h : (s.fillFrom other).2 = false) :
    (s.fillFrom other).1 = s := by
  simp only [fillFrom, Bool.or_eq_false_iff] at h
  obtain ⟨⟨⟨⟨hcolors, hstrings⟩, hfloats⟩, hintegers⟩, hbooleans⟩ := h
  simp [fillFrom, ValueMap.fillFrom_of_not_copied, *]

/-- Taking away a value that is not there leaves the maps as they are. -/
theorem erase_of_not_has {s : MappedStyle} {c : Category} {k : Key c} (h : ¬ s.has k = true) :
    s.erase k = s := by
  have hmap : (s.map c).erase k = s.map c :=
    AList.ext (List.kerase_of_notMem_keys fun hk => h ((has_iff s k).mpr hk))
  rw [erase, hmap]
  cases c <;> rfl

theorem isEmpty_iff {s : MappedStyle} :
    s.isEmpty = true ↔ ∀ (c : Category) (k : Key c), s.get? k = none := by
  have hmap {c : Category} (m : ValueMap c) : m.size = 0 ↔ ∀ k, m.lookup k = none := by
    simp only [ValueMap.size_eq_length_keys, List.length_eq_zero_iff, List.eq_nil_iff_forall_not_mem,
      AList.lookup_eq_none, AList.mem_keys]
  simp only [isEmpty, size, beq_iff_eq, Nat.add_eq_zero_iff, hmap]
  constructor
  · rintro ⟨⟨⟨⟨hcolors, hstrings⟩, hfloats⟩, hintegers⟩, hbooleans⟩ c
    cases c <;> assumption
  · intro h
    exact ⟨⟨⟨⟨h .color, h .string⟩, h .float⟩, h .integer⟩, h .boolean⟩

theorem same_iff {s t : MappedStyle} :
    s.same t = true ↔ ∀ (c : Category) (k : Key c),
      Style.sameEntry c ((s.get? k).map c.read) ((t.get? k).map c.read) = true := by
  have hcategory : s.same t = true ↔ ∀ c : Category, (s.map c).same (t.map c) = true := by
    simp only [same, Bool.and_eq_true]
    constructor
    · rintro ⟨⟨⟨⟨hcolors, hstrings⟩, hfloats⟩, hintegers⟩, hbooleans⟩ c
      cases c <;> assumption
    · intro h
      exact ⟨⟨⟨⟨h .color, h .string⟩, h .float⟩, h .integer⟩, h .boolean⟩
  simp only [hcategory, ValueMap.same_iff, get?]

/-! ## §3 The style of the maps -/

/-- The style that the maps hold. -/
def style (s : MappedStyle) : Style := Style.tabulate fun c k => (s.get? k).map c.read

section Reading

variable (s other : MappedStyle) (t : InheritTable) {c : Category} (k : Key c)

@[simp] theorem get?_style : s.style.get? k = (s.get? k).map c.read := by
  simp [style]

@[simp] theorem has_style : s.style.has k = s.has k := by
  simp [Style.has, has]

theorem alreadySet_style (v : c.Stored) :
    Edit.alreadySet s.style k (c.read v) = s.alreadySet k v := by
  simp [Edit.alreadySet, alreadySet, Category.sameStored, Option.any_map]

@[simp] theorem style_empty : empty.style = Style.empty := by
  apply Style.ext_get?
  simp

@[simp] theorem style_put (v : c.Stored) : (s.put k v).style = s.style.put k (some (c.read v)) := by
  apply Style.ext_get?
  intro d l
  by_cases hc : d = c
  · subst hc
    by_cases hk : l = k
    · simp [hk, get?_put_self, Style.get?_put_self]
    · simp [get?_put_of_ne s k v hk, Style.get?_put_of_ne _ _ hk]
  · simp [get?_put_of_category_ne s k l v hc, Style.get?_put_of_category_ne _ k l _ hc]

@[simp] theorem style_erase : (s.erase k).style = s.style.put k none := by
  apply Style.ext_get?
  intro d l
  by_cases hc : d = c
  · subst hc
    by_cases hk : l = k
    · simp [hk, get?_erase_self, Style.get?_put_self]
    · simp [get?_erase_of_ne s k hk, Style.get?_put_of_ne _ _ hk]
  · simp [get?_erase_of_category_ne s k l hc, Style.get?_put_of_category_ne _ k l _ hc]

@[simp] theorem style_overlay : (s.overlay other).style = s.style.overlay other.style := by
  apply Style.ext_get?
  simp [Option.map_or]

@[simp] theorem style_overlayInherited :
    (s.overlayInherited other t).style = s.style.overlayInherited other.style t := by
  apply Style.ext_get?
  intro c k
  simp only [get?_style, get?_overlayInherited, Style.get?_overlayInherited]
  split <;> simp [Option.map_or]

@[simp] theorem style_restrict : (s.restrict t).style = s.style.restrict t := by
  apply Style.ext_get?
  intro c k
  simp only [get?_style, get?_restrict, Style.get?_restrict]
  split <;> simp

@[simp] theorem style_fillFrom : (s.fillFrom other).1.style = s.style.fillFrom other.style := by
  apply Style.ext_get?
  simp [Option.map_or]

@[simp] theorem style_ofStyle : (ofStyle s).style = s.style := by
  apply Style.ext_get?
  simp

end Reading

/-- Comparing the maps by counting and looking up compares the styles entry by entry. -/
theorem same_eq (s t : MappedStyle) : s.same t = s.style.same t.style := by
  rw [Bool.eq_iff_iff, same_iff, Style.same_iff]
  simp

end MappedStyle

/-! ## §4 Edits -/

/-- One change of the maps. -/
inductive MappedEdit where
  | set {c : Category} (k : Key c) (v : c.Stored)
  | remove {c : Category} (k : Key c)
  | overlay (other : MappedStyle)
  | overlayInherited (other : MappedStyle) (table : InheritTable)
  | fillFrom (other : MappedStyle)
  | clear

namespace MappedEdit

/-- The maps after the edit. -/
def apply (s : MappedStyle) : MappedEdit → MappedStyle
  | set k v => if s.alreadySet k v then s else s.put k v
  | remove k => s.erase k
  | overlay other => s.overlay other
  | overlayInherited other table => s.overlayInherited other table
  | fillFrom other => (s.fillFrom other).1
  | clear => if s.isEmpty then s else MappedStyle.empty

/-- The edit of the style that the maps hold. -/
def read : MappedEdit → Edit
  | @set c k v => .set k (c.read v)
  | remove k => .remove k
  | overlay other => .overlay other.style
  | overlayInherited other table => .overlayInherited other.style table
  | fillFrom other => .fillFrom other.style
  | clear => .clear

/-- **The style follows the maps.** An edit of the maps does to the style what the same edit of the style
does. -/
theorem style_apply (s : MappedStyle) (e : MappedEdit) : (e.apply s).style = e.read.apply s.style := by
  cases e with
  | set k v =>
    simp only [apply, read, Edit.apply, MappedStyle.alreadySet_style]
    split <;> simp
  | remove k => simp [apply, read, Edit.apply]
  | overlay other => simp [apply, read, Edit.apply]
  | overlayInherited other table => simp [apply, read, Edit.apply]
  | fillFrom other => simp [apply, read, Edit.apply]
  | clear =>
    simp only [apply, read, Edit.apply]
    split
    · -- there is nothing to clear
      rename_i hempty
      apply Style.ext_get?
      intro c k
      simp [MappedStyle.isEmpty_iff.mp hempty c k]
    · exact MappedStyle.style_empty

end MappedEdit
end StyledScene
