/-!
# Registries

A registry gives values to names, one value per name, and keeps the names in the order in which they
came. A look-up decides everything that other parts see of a registry except that order, so each
operation is described by what it does to look-ups.

Main statements: `find?_insert`, `find?_erase` and `find?_modify` say how look-ups change;
`nodup_names_insert` and its companions say that no operation gives a name a second value.
-/

namespace StyledScene

/-- Names with a value each; a name has one value only. -/
abbrev Registry (α : Type) := List (String × α)

namespace Registry

variable {α : Type}

/-! ## Operations -/

/-- The value of a name. -/
def find? (r : Registry α) (name : String) : Option α :=
  (List.find? (fun entry => entry.1 == name) r).map Prod.snd

/-- The names that have values, in the order in which they came. -/
def names (r : Registry α) : List String := r.map Prod.fst

/-- The registry without a name. -/
def erase (r : Registry α) (name : String) : Registry α := r.filter fun entry => entry.1 != name

/-- Gives a name a value, in place of the one it had. -/
def insert (r : Registry α) (name : String) (value : α) : Registry α :=
  r.erase name ++ [(name, value)]

/-- Changes the value of a name where it stands. -/
def modify (r : Registry α) (name : String) (f : α → α) : Registry α :=
  r.map fun entry => if entry.1 = name then (entry.1, f entry.2) else entry

/-! ## Look-ups -/

@[simp] theorem find?_nil (name : String) : find? ([] : Registry α) name = none := rfl

theorem find?_cons (entry : String × α) (r : Registry α) (name : String) :
    find? (entry :: r) name = if entry.1 = name then some entry.2 else find? r name := by
  by_cases h : entry.1 = name <;> simp [find?, h]

theorem mem_of_find? {r : Registry α} {name : String} {value : α}
    (h : find? r name = some value) : (name, value) ∈ r := by
  obtain ⟨⟨name', value'⟩, hentry, rfl⟩ := Option.map_eq_some_iff.mp h
  have hname : name' = name := by simpa using List.find?_some hentry
  exact hname ▸ List.mem_of_find?_eq_some hentry

theorem find?_append (r s : Registry α) (name : String) :
    find? (r ++ s) name = (find? r name).or (find? s name) := by
  induction r with
  | nil => simp
  | cons entry rest ih =>
    rw [List.cons_append, find?_cons, find?_cons, ih]
    split <;> simp

theorem find?_erase (r : Registry α) (name other : String) :
    find? (r.erase name) other = if other = name then none else find? r other := by
  induction r with
  | nil => simp [erase]
  | cons entry rest ih =>
    rw [erase] at ih ⊢
    rw [List.filter_cons, find?_cons]
    by_cases gone : entry.1 = name
    · rw [if_neg (by simp [gone]), ih, gone]
      by_cases h : other = name
      · simp [h]
      · rw [if_neg h, if_neg h, if_neg (fun e => h e.symm)]
    · rw [if_pos (by simp [gone]), find?_cons, ih]
      by_cases here : entry.1 = other
      · rw [if_pos here, if_pos here, if_neg (fun e => gone (here.trans e))]
      · rw [if_neg here, if_neg here]

theorem find?_insert (r : Registry α) (name : String) (value : α) (other : String) :
    find? (r.insert name value) other = if other = name then some value else find? r other := by
  rw [insert, find?_append, find?_erase, find?_cons, find?_nil]
  by_cases h : other = name
  · simp [h]
  · rw [if_neg h, if_neg h, if_neg (fun e => h e.symm), Option.or_none]

theorem find?_modify (r : Registry α) (name : String) (f : α → α) (other : String) :
    find? (r.modify name f) other =
      if other = name then (find? r other).map f else find? r other := by
  induction r with
  | nil => simp [modify]
  | cons entry rest ih =>
    rw [modify] at ih ⊢
    rw [List.map_cons, find?_cons, find?_cons, ih]
    by_cases here : entry.1 = other
    · by_cases h : other = name <;> simp [here, h]
    · by_cases changed : entry.1 = name
      · have apart : name ≠ other := fun e => here (changed.trans e)
        simp [changed, apart]
      · simp [here, changed]

/-! ## Names -/

theorem nodup_names_erase {r : Registry α} (h : (names r).Nodup) (name : String) :
    (names (r.erase name)).Nodup :=
  (List.filter_sublist.map Prod.fst).nodup h

theorem nodup_names_insert {r : Registry α} (h : (names r).Nodup) (name : String) (value : α) :
    (names (r.insert name value)).Nodup := by
  rw [insert, names, List.map_append, List.nodup_append]
  refine ⟨nodup_names_erase h name, by simp, ?_⟩
  intro a inRest b isNew
  simp only [erase, List.mem_map, List.mem_filter, bne_iff_ne] at inRest
  obtain ⟨entry, ⟨_, apart⟩, rfl⟩ := inRest
  simp only [List.map_cons, List.map_nil, List.mem_singleton] at isNew
  exact isNew ▸ apart

@[simp] theorem names_modify (r : Registry α) (name : String) (f : α → α) :
    names (r.modify name f) = names r := by
  rw [names, modify, List.map_map, names]
  congr 1
  funext entry
  simp only [Function.comp]
  split <;> rfl

end Registry

end StyledScene
