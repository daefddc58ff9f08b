/-!
# Sets of flags

A flag type is a finite type whose members are listed in a fixed order. A set of flags is a word with
one bit per flag, the first flag lowest, so the word doubles as the number that stands for the set.
-/

namespace StyledScene

/-- A type of flags, listed without repetition in the order of their bits. -/
class FlagType (F : Type) [DecidableEq F] where
  all : List F
  nodup : all.Nodup
  mem_all : ∀ f, f ∈ all

/-- The number of flags of a type. -/
abbrev FlagType.count (F : Type) [DecidableEq F] [FlagType F] : Nat := (all : List F).length

/-- The bit of a flag. -/
def FlagType.bit {F : Type} [DecidableEq F] [FlagType F] (f : F) : Fin (count F) :=
  ⟨all.idxOf f, List.idxOf_lt_length_iff.2 (mem_all f)⟩

/-- A set of flags. -/
structure FlagSet (F : Type) [DecidableEq F] [FlagType F] where
  bits : BitVec (FlagType.count F)

namespace FlagSet

variable {F : Type} [DecidableEq F] [FlagType F]

instance : DecidableEq (FlagSet F) := fun s t =>
  decidable_of_iff (s.bits = t.bits) ⟨fun h => by cases s; cases t; exact congrArg mk h, congrArg bits⟩

/-! ## Building and reading -/

/-- The set without flags. -/
def empty : FlagSet F := ⟨0⟩

instance : Inhabited (FlagSet F) := ⟨empty⟩

/-- The set with one flag. -/
def singleton (f : F) : FlagSet F := ⟨BitVec.twoPow _ (FlagType.bit f)⟩

/-- The flags of either set. -/
def union (s t : FlagSet F) : FlagSet F := ⟨s.bits ||| t.bits⟩

/-- The flags of the first set that the second lacks. -/
def without (s t : FlagSet F) : FlagSet F := ⟨s.bits &&& ~~~t.bits⟩

/-- Turns the flags of `t` on or off together. -/
def turn (s t : FlagSet F) (on : Bool) : FlagSet F := if on then s.union t else s.without t

/-- Whether the flag is in the set. -/
def contains (s : FlagSet F) (f : F) : Bool := s.bits.getLsbD (FlagType.bit f)

/-- Whether the set has no flag. -/
def isEmpty (s : FlagSet F) : Bool := s.bits == 0

/-- The flags of the set, in the order of their bits. -/
def toList (s : FlagSet F) : List F := FlagType.all.filter s.contains

/-- The flags that satisfy a test. -/
def ofTest (test : F → Bool) : FlagSet F :=
  FlagType.all.foldl (fun s f => if test f then s.union (singleton f) else s) empty

/-- The number that stands for the set. -/
def toNat (s : FlagSet F) : Nat := s.bits.toNat

/-- The set for which a number stands; bits that belong to no flag are dropped. -/
def ofNat (n : Nat) : FlagSet F := ⟨BitVec.ofNat _ n⟩

/-- The diagnostic text of a set: the type's name around the labels of the flags. -/
def diagnostic (typeName : String) (label : F → String) (s : FlagSet F) : String :=
  let labels := if s.isEmpty then "0x0" else String.intercalate " | " (s.toList.map label)
  typeName ++ "(" ++ labels ++ ")"

/-! ## Membership -/

@[simp] theorem contains_empty (f : F) : (empty : FlagSet F).contains f = false := by
  simp [contains, empty]

@[simp] theorem contains_singleton (f g : F) : (singleton f).contains g = decide (g = f) := by
  have same : (FlagType.bit f : Nat) = FlagType.bit g ↔ g = f := by
    constructor
    · intro h
      have := (List.getElem_idxOf (List.idxOf_lt_length_iff.2 (FlagType.mem_all g))).symm
      simp only [FlagType.bit] at h
      simp only [← h] at this
      rwa [List.getElem_idxOf] at this
    · rintro rfl; rfl
  by_cases h : g = f
  · subst h; simp [contains, singleton]
  · have apart : (FlagType.bit f : Nat) ≠ FlagType.bit g := fun e => h (same.1 e)
    simp [contains, singleton, apart.symm, h]

@[simp] theorem contains_union (s t : FlagSet F) (f : F) :
    (s.union t).contains f = (s.contains f || t.contains f) := by
  simp [contains, union]

@[simp] theorem contains_without (s t : FlagSet F) (f : F) :
    (s.without t).contains f = (s.contains f && !t.contains f) := by
  simp [contains, without]

private theorem contains_foldl (test : F → Bool) (flags : List F) (s : FlagSet F) (f : F) :
    (flags.foldl (fun s f => if test f then s.union (singleton f) else s) s).contains f =
      (s.contains f || (decide (f ∈ flags) && test f)) := by
  induction flags generalizing s with
  | nil => simp
  | cons g rest ih =>
    rw [List.foldl_cons, ih]
    by_cases same : f = g
    · subst same
      cases test f <;> simp
    · cases test g <;> simp [same]

/-- The set that a test describes has the flags that pass it. -/
@[simp] theorem contains_ofTest (test : F → Bool) (f : F) : (ofTest test).contains f = test f := by
  simp [ofTest, contains_foldl, FlagType.mem_all]

@[simp] theorem mem_toList (s : FlagSet F) (f : F) : f ∈ s.toList ↔ s.contains f = true := by
  simp [toList, FlagType.mem_all]

/-- A set of flags is determined by its members. -/
theorem ext_contains {s t : FlagSet F} (h : ∀ f, s.contains f = t.contains f) : s = t := by
  obtain ⟨s⟩ := s
  obtain ⟨t⟩ := t
  congr 1
  ext i hi
  have isBit : FlagType.bit (FlagType.all : List F)[i] = ⟨i, hi⟩ :=
    Fin.ext (FlagType.nodup.idxOf_getElem i hi)
  have := h (FlagType.all : List F)[i]
  rw [contains, contains, isBit] at this
  simpa [BitVec.getLsbD_eq_getElem hi] using this

/-- Only the empty set lists no flags. -/
theorem toList_eq_nil_iff {s : FlagSet F} : s.toList = [] ↔ s.isEmpty = true := by
  constructor
  · intro h
    have hempty : s = empty := by
      apply ext_contains
      intro f
      have hnot : f ∉ s.toList := by simp [h]
      simpa using hnot
    simp [hempty, isEmpty, empty]
  · intro h
    obtain ⟨bits⟩ := s
    simp_all [isEmpty, toList, contains]

end FlagSet

end StyledScene
