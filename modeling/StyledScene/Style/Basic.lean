import StyledScene.Property.Key

/-!
# Styles

A style gives each property either a value or nothing. It is stored as one row of optional values
per category, so two styles with the same look-ups are the same style (`Style.ext_get?`), and every
operation is described by what it does to a look-up.
-/

namespace StyledScene

/-! ## Rows -/

/-- One optional value for each property of a category, in the order of `Key.all`. -/
@[ext] structure Row (c : Category) where
  entries : Vector (Option c.Value) (Key.all c).length

namespace Row

variable {c : Category}

/-- The entry of a property. -/
def get? (row : Row c) (k : Key c) : Option c.Value := getElem row.entries k.index k.index.isLt

/-- The row with the given entries. -/
def tabulate (f : Key c → Option c.Value) : Row c := ⟨Vector.ofFn fun i => f (Key.all c)[i]⟩

/-- The row with one entry replaced. -/
def put (row : Row c) (k : Key c) (v : Option c.Value) : Row c :=
  ⟨row.entries.set k.index v k.index.isLt⟩

@[simp] theorem get?_tabulate (f : Key c → Option c.Value) (k : Key c) :
    (tabulate f).get? k = f k := by
  simp [get?, tabulate, Key.index]

theorem get?_put (row : Row c) (k l : Key c) (v : Option c.Value) :
    (row.put k v).get? l = if l = k then v else row.get? l := by
  unfold get? put
  by_cases h : l = k
  · subst h; simp
  · have apart : (k.index : Nat) ≠ (l.index : Nat) := fun same =>
      h (by rw [← Key.all_index l, ← Key.all_index k]; simp [Fin.ext same])
    simp [h, Vector.getElem_set_ne _ _ apart]

/-- A row is determined by its entries, property by property. -/
theorem ext_get? {r s : Row c} (h : ∀ k, r.get? k = s.get? k) : r = s := by
  ext i hi : 2
  have isAt : ((Key.all c)[i]).index = ⟨i, hi⟩ := by
    have distinct : (Key.all c).Nodup := by cases c <;> decide
    exact Fin.ext (distinct.idxOf_getElem i hi)
  simpa [get?, isAt] using h (Key.all c)[i]

end Row

/-! ## Styles -/

/-- Declared values, by property. -/
structure Style where
  colors : Row .color
  strings : Row .string
  floats : Row .float
  integers : Row .integer
  booleans : Row .boolean

namespace Style

/-- The values of one category. -/
def row (s : Style) : (c : Category) → Row c
  | .color => s.colors
  | .string => s.strings
  | .float => s.floats
  | .integer => s.integers
  | .boolean => s.booleans

/-- The value of a property, if it has one. -/
def get? (s : Style) {c : Category} (k : Key c) : Option c.Value := (s.row c).get? k

/-- The style with the given values. -/
def tabulate (f : (c : Category) → Key c → Option c.Value) : Style where
  colors := Row.tabulate (f .color)
  strings := Row.tabulate (f .string)
  floats := Row.tabulate (f .float)
  integers := Row.tabulate (f .integer)
  booleans := Row.tabulate (f .boolean)

/-- Gives a property another value, or none. -/
def put (s : Style) : {c : Category} → Key c → Option c.Value → Style
  | .color, k, v => { s with colors := s.colors.put k v }
  | .string, k, v => { s with strings := s.strings.put k v }
  | .float, k, v => { s with floats := s.floats.put k v }
  | .integer, k, v => { s with integers := s.integers.put k v }
  | .boolean, k, v => { s with booleans := s.booleans.put k v }

@[simp] theorem get?_tabulate (f : (c : Category) → Key c → Option c.Value) {c : Category}
    (k : Key c) : (tabulate f).get? k = f c k := by
  cases c <;> simp [get?, row, tabulate]

theorem get?_put_self (s : Style) {c : Category} (k : Key c) (v : Option c.Value) :
    (s.put k v).get? k = v := by
  cases c <;> simp [get?, row, put, Row.get?_put]

theorem get?_put_of_ne (s : Style) {c : Category} {k l : Key c} (v : Option c.Value) (h : l ≠ k) :
    (s.put k v).get? l = s.get? l := by
  cases c <;> simp [get?, row, put, Row.get?_put, h]

theorem get?_put_of_category_ne (s : Style) {c d : Category} (k : Key c) (l : Key d)
    (v : Option c.Value) (h : d ≠ c) : (s.put k v).get? l = s.get? l := by
  cases c <;> cases d <;> first | exact absurd rfl h | rfl

/-! ## Reading -/

/-- The style without values. -/
def empty : Style := tabulate fun _ _ => none

instance : Inhabited Style := ⟨empty⟩

@[simp] theorem get?_empty {c : Category} (k : Key c) : empty.get? k = none := by simp [empty]

/-- The value of a property, or the given one. -/
def getD (s : Style) {c : Category} (k : Key c) (default : c.Value) : c.Value :=
  (s.get? k).getD default

/-- The value of a property, or the fallback of its category. -/
def get (s : Style) {c : Category} (k : Key c) : c.Value := s.getD k c.fallback

/-- Whether a property has a value, whatever it is. -/
def has (s : Style) {c : Category} (k : Key c) : Bool := (s.get? k).isSome

/-- The properties of a category that have values. -/
def keys (s : Style) (c : Category) : List (Key c) := (Key.all c).filter s.has

/-- The number of values. -/
def size (s : Style) : Nat := (Category.all.map fun c => (s.keys c).length).foldr (· + ·) 0

/-- Whether no property has a value. -/
def isEmpty (s : Style) : Bool := s.size == 0

/-! ## Merging -/

/-- The values of both styles; where both have one, the second wins. -/
def overlay (s other : Style) : Style := tabulate fun _ k => (other.get? k).or (s.get? k)

/-- The values of both styles; where both have one, the first wins. -/
def fillFrom (s other : Style) : Style := tabulate fun _ k => (s.get? k).or (other.get? k)

@[simp] theorem get?_overlay (s other : Style) {c : Category} (k : Key c) :
    (s.overlay other).get? k = (other.get? k).or (s.get? k) := by simp [overlay]

@[simp] theorem get?_fillFrom (s other : Style) {c : Category} (k : Key c) :
    (s.fillFrom other).get? k = (s.get? k).or (other.get? k) := by simp [fillFrom]

/-! ## Sameness -/

/-- Whether two entries are both absent, or both present with values that count as the same. -/
def sameEntry (c : Category) : Option c.Value → Option c.Value → Bool
  | none, none => true
  | some a, some b => c.sameValue a b
  | _, _ => false

/-- Whether two styles have the same entries in every category. -/
def same (s other : Style) : Bool :=
  Category.all.all fun c => (Key.all c).all fun k => sameEntry c (s.get? k) (other.get? k)

instance : BEq Style := ⟨same⟩

/-! ## First facts -/

/-- A style is determined by its look-ups. -/
theorem ext_get? {s t : Style} (h : ∀ (c : Category) (k : Key c), s.get? k = t.get? k) : s = t := by
  have rows (c : Category) : s.row c = t.row c := Row.ext_get? (h c)
  obtain ⟨a, b, c, d, e⟩ := s
  obtain ⟨a', b', c', d', e'⟩ := t
  simp only [mk.injEq]
  exact ⟨rows .color, rows .string, rows .float, rows .integer, rows .boolean⟩

end Style

end StyledScene
