import Mathlib.Data.List.AList
import StyledScene.Proofs.Style.SameValues

/-!
# Value maps

The values of one category as a map from properties to values. A merge goes through the entries of one
map, in whatever order they come, and writes them to another. A float is kept as its word of 32 bits, so
that a zero has a sign and an undefined float a payload.

Each operation is described by its look-ups, which do not depend on the order of any entries. Comparing
two maps by counting their entries and looking each entry of the first up in the second finds out whether
all look-ups agree (`ValueMap.same_iff`).
-/

namespace StyledScene

/-! ## §1 Stored values -/

namespace Category

/-- How a value is kept. -/
abbrev Stored : Category → Type
  | .color => Color
  | .string => String
  | .float => UInt32
  | .integer => Int32
  | .boolean => Bool

/-- The value that is kept. -/
def read : (c : Category) → c.Stored → c.Value
  | .color, v => v
  | .string, v => v
  | .float, word => Float32.ofBits word
  | .integer, v => v
  | .boolean, v => v

/-- Whether writing the second stored value over the first changes nothing. -/
def sameStored (c : Category) (v w : c.Stored) : Bool := c.sameValue (c.read v) (c.read w)

-- zeros of either sign, and undefined floats of any payload
example : sameStored .float 0x00000000 0x80000000 = true := by decide
example : sameStored .float 0x7FC00000 0xFF800001 = true := by decide
example : sameStored .float 0x7FC00000 0x7F800000 = false := by decide

end Category

/-! ## §2 One map -/

/-- The values of one category, in the order in which they are gone through. -/
abbrev ValueMap (c : Category) := AList fun _ : Key c => c.Stored

namespace ValueMap

variable {c : Category}

/-- Writes every entry of a map to another. -/
def overlay (target source : ValueMap c) : ValueMap c :=
  source.foldl (fun m k v => m.insert k v) target

/-- Writes the entries of some properties to another map, property by property. -/
def overlayListed (target source : ValueMap c) (keys : List (Key c)) : ValueMap c :=
  keys.foldl (fun m k =>
    match source.lookup k with
    | some v => m.insert k v
    | none => m) target

/-- Writes an entry to a map that lacks it; the flag says whether any entry has been written. -/
def fillStep (found : ValueMap c × Bool) (k : Key c) (v : c.Stored) : ValueMap c × Bool :=
  if k ∈ found.1 then found else (found.1.insert k v, true)

/-- Writes the entries that a map lacks to it, and says whether there were any. -/
def fillFrom (target source : ValueMap c) : ValueMap c × Bool :=
  source.foldl fillStep (target, false)

/-- The entries of some properties. -/
def restrict (m : ValueMap c) (keys : List (Key c)) : ValueMap c :=
  ⟨m.entries.filter fun entry => keys.contains entry.1, m.nodupKeys.sublist List.filter_sublist⟩

/-- The number of entries. -/
def size (m : ValueMap c) : Nat := m.entries.length

/-- Whether the maps have equally many entries, and every one of the first is the same in the second. -/
def same (ours theirs : ValueMap c) : Bool :=
  ours.size == theirs.size &&
    ours.entries.all fun entry => (theirs.lookup entry.1).any fun w => c.sameStored entry.2 w

/-! ### Look-ups -/

theorem lookup_insert_eq (m : ValueMap c) (k l : Key c) (v : c.Stored) :
    (m.insert k v).lookup l = if l = k then some v else m.lookup l := by
  by_cases h : l = k
  · subst h
    simp
  · simp [h, AList.lookup_insert_ne h]

theorem lookup_overlay (target source : ValueMap c) (k : Key c) :
    (overlay target source).lookup k = (source.lookup k).or (target.lookup k) := by
  obtain ⟨entries, hnodup⟩ := source
  show (entries.foldl _ target).lookup k = (entries.dlookup k).or (target.lookup k)
  -- no two entries are about the same property, so the one for `k` is not written over
  induction entries generalizing target with
  | nil => simp
  | cons entry rest ih =>
    obtain ⟨k', v⟩ := entry
    obtain ⟨hnew, hrest⟩ := List.nodupKeys_cons.mp hnodup
    rw [List.foldl_cons, ih _ hrest, lookup_insert_eq]
    by_cases h : k = k'
    · subst h
      simp [List.dlookup_eq_none.mpr hnew]
    · simp [h, List.dlookup_cons_ne rest ⟨k', v⟩ h]

theorem lookup_overlayListed (target source : ValueMap c) (keys : List (Key c)) (k : Key c) :
    (overlayListed target source keys).lookup k =
      if k ∈ keys then (source.lookup k).or (target.lookup k) else target.lookup k := by
  unfold overlayListed
  -- a property that is listed again is written again, with the same value
  induction keys generalizing target with
  | nil => simp
  | cons k' rest ih =>
    rw [List.foldl_cons, ih]
    cases hsource : source.lookup k' with
    | none =>
      by_cases h : k = k'
      · subst h
        simp [hsource]
      · simp [h]
    | some v =>
      by_cases h : k = k'
      · subst h
        simp [hsource]
      · simp [h, AList.lookup_insert_ne h]

theorem lookup_restrict (m : ValueMap c) (keys : List (Key c)) (k : Key c) :
    (restrict m keys).lookup k = if k ∈ keys then m.lookup k else none := by
  obtain ⟨entries, hnodup⟩ := m
  show (entries.filter fun entry => keys.contains entry.1).dlookup k =
    if k ∈ keys then entries.dlookup k else none
  clear hnodup
  induction entries with
  | nil => simp
  | cons entry rest ih =>
    obtain ⟨k', v⟩ := entry
    rw [List.filter_cons]
    by_cases h : k = k'
    · subst h
      by_cases hk : k ∈ keys
      · simp [hk]
      · simpa [hk] using ih
    · -- whether or not the entry stays, `k` is looked for in the rest
      have hrest : List.dlookup k (⟨k', v⟩ :: rest) = rest.dlookup k :=
        List.dlookup_cons_ne rest ⟨k', v⟩ h
      rw [hrest, ← ih]
      split
      · exact List.dlookup_cons_ne _ (⟨k', v⟩ : Sigma fun _ : Key c => c.Stored) h
      · rfl

/-! ### Filling -/

theorem lookup_fillStep (found : ValueMap c × Bool) (k l : Key c) (v : c.Stored) :
    (fillStep found k v).1.lookup l =
      (found.1.lookup l).or (if l = k then some v else none) := by
  unfold fillStep
  by_cases h : l = k
  · subst h
    by_cases hmem : l ∈ found.1
    · obtain ⟨w, hw⟩ := Option.isSome_iff_exists.mp (AList.lookup_isSome.mpr hmem)
      simp [hmem, hw]
    · simp [hmem, AList.lookup_eq_none.mpr hmem]
  · have hother : (found.1.insert k v).lookup l = found.1.lookup l := AList.lookup_insert_ne h
    by_cases hmem : k ∈ found.1 <;> simp [h, hmem, hother]

theorem lookup_fillFrom (target source : ValueMap c) (k : Key c) :
    (fillFrom target source).1.lookup k = (target.lookup k).or (source.lookup k) := by
  obtain ⟨entries, hnodup⟩ := source
  show (entries.foldl _ (target, false)).1.lookup k = (target.lookup k).or (entries.dlookup k)
  clear hnodup
  generalize hfound : (target, false) = found
  obtain rfl : found.1 = target := by rw [← hfound]
  clear hfound
  -- an entry that is there, or that came first, stays
  induction entries generalizing found with
  | nil => simp
  | cons entry rest ih =>
    obtain ⟨k', v⟩ := entry
    rw [List.foldl_cons, ih, lookup_fillStep, Option.or_assoc]
    by_cases h : k = k'
    · subst h
      simp
    · simp [h, List.dlookup_cons_ne rest ⟨k', v⟩ h]

/-- A map that has all the properties is left as it is. -/
theorem fillFrom_of_subset {target source : ValueMap c} (h : ∀ k ∈ source, k ∈ target) :
    fillFrom target source = (target, false) := by
  obtain ⟨entries, hnodup⟩ := source
  show entries.foldl _ (target, false) = (target, false)
  have hkeys : ∀ k ∈ entries.keys, k ∈ target := h
  clear h hnodup
  induction entries with
  | nil => rfl
  | cons entry rest ih =>
    rw [List.keys_cons, List.forall_mem_cons] at hkeys
    have hstep : fillStep (target, false) entry.1 entry.2 = (target, false) := if_pos hkeys.1
    rw [List.foldl_cons, hstep, ih hkeys.2]

/-- If nothing was copied, the map is left as it is. -/
theorem fillFrom_of_not_copied {target source : ValueMap c}
    (h : (fillFrom target source).2 = false) : (fillFrom target source).1 = target := by
  suffices hfold : ∀ (entries : List (Sigma fun _ : Key c => c.Stored)) (found : ValueMap c × Bool),
      (entries.foldl (fun found entry => fillStep found entry.1 entry.2) found).2 = false →
        entries.foldl (fun found entry => fillStep found entry.1 entry.2) found = found from
    congrArg Prod.fst (hfold source.entries (target, false) h)
  intro entries
  induction entries with
  | nil => exact fun found _ => rfl
  | cons entry rest ih =>
    intro found hfalse
    rw [List.foldl_cons] at hfalse ⊢
    -- the first step has not set the flag, so it has not written anything
    have hrest := ih _ hfalse
    rw [hrest] at hfalse ⊢
    unfold fillStep at hfalse ⊢
    split at hfalse
    · rename_i hmem
      rw [if_pos hmem]
    · cases hfalse

/-- The flag says whether the map lacked an entry. -/
theorem copied_iff (target source : ValueMap c) :
    (fillFrom target source).2 = true ↔ ∃ k ∈ source, k ∉ target := by
  constructor
  · intro hcopied
    by_contra hall
    have hsubset : ∀ k ∈ source, k ∈ target := by simpa using hall
    rw [fillFrom_of_subset hsubset] at hcopied
    cases hcopied
  · rintro ⟨k, hsource, htarget⟩
    by_contra hcopied
    -- the map would be as it was, and still lack the entry
    have hsame := fillFrom_of_not_copied (Bool.eq_false_iff.mpr hcopied)
    have hlookup := lookup_fillFrom target source k
    rw [hsame, AList.lookup_eq_none.mpr htarget, Option.none_or] at hlookup
    exact AList.lookup_eq_none.mp hlookup.symm hsource

/-! ### Comparing -/

theorem size_eq_length_keys (m : ValueMap c) : m.size = m.keys.length := by
  simp [size, AList.keys, List.keys]

/-- **Counting, and looking up one way, is enough.** If the second map has every property of the first
and is not larger, then it has no others. -/
theorem same_iff {ours theirs : ValueMap c} :
    same ours theirs = true ↔ ∀ k : Key c, Style.sameEntry c ((ours.lookup k).map c.read)
      ((theirs.lookup k).map c.read) = true := by
  unfold same
  rw [Bool.and_eq_true, beq_iff_eq, List.all_eq_true, size_eq_length_keys, size_eq_length_keys]
  constructor
  · rintro ⟨hsize, hall⟩ k
    have hfound : ∀ (l : Key c) (v : c.Stored), ours.lookup l = some v →
        ∃ w, theirs.lookup l = some w ∧ c.sameStored v w = true := by
      intro l v hv
      exact (Option.any_eq_true _ _).mp (hall ⟨l, v⟩ (AList.mem_lookup_iff.mp hv))
    have hsubset : ours.keys ⊆ theirs.keys := by
      intro l hl
      obtain ⟨v, hv⟩ := Option.isSome_iff_exists.mp (AList.lookup_isSome.mpr hl)
      obtain ⟨w, hw, -⟩ := hfound l v hv
      exact AList.lookup_isSome.mp (by rw [hw]; rfl)
    -- distinct properties, equally many: the second map has no others
    have hperm : ours.keys.Perm theirs.keys :=
      (List.subperm_of_subset ours.keys_nodup hsubset).perm_of_length_le
        (Nat.le_of_eq hsize.symm)
    cases hours : ours.lookup k with
    | none =>
      have htheirs : theirs.lookup k = none := by
        rw [AList.lookup_eq_none, AList.mem_keys, ← hperm.mem_iff]
        exact AList.lookup_eq_none.mp hours
      rw [htheirs]
      rfl
    | some v =>
      obtain ⟨w, hw, hsame⟩ := hfound k v hours
      rw [hw]
      exact hsame
  · intro h
    have hmem : ∀ k, k ∈ ours.keys ↔ k ∈ theirs.keys := by
      intro k
      have hsome := Style.isSome_eq_of_sameEntry (h k)
      rw [Option.isSome_map, Option.isSome_map] at hsome
      rw [← AList.mem_keys, ← AList.mem_keys, ← AList.lookup_isSome, ← AList.lookup_isSome, hsome]
    refine ⟨?_, ?_⟩
    · exact ((List.perm_ext_iff_of_nodup ours.keys_nodup theirs.keys_nodup).mpr hmem).length_eq
    · rintro ⟨k, v⟩ hentry
      have hk := h k
      rw [show ours.lookup k = some v from AList.mem_lookup_iff.mpr hentry] at hk
      cases htheirs : theirs.lookup k with
      | none =>
        rw [htheirs] at hk
        cases hk
      | some w =>
        rw [htheirs] at hk
        exact hk

end ValueMap
end StyledScene
