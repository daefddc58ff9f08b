import Mathlib.Data.Finset.Basic
import StyledScene.Tree.Node

/-!
# Classes as a set

The calls that a host makes about the classes of a node, as operations on a set of names in lower case. A
list of classes belongs to a run of calls if it has every member of the set once, in the order in which
the members came in last (`Lists`). It goes on doing so if a name that comes in is put at its end
(`Lists.of_insert`) and a name that goes is taken out (`Lists.of_erase`).
-/

namespace StyledScene

/-- One call about the classes of a node. -/
inductive ClassCall where
  | add (name : String)
  | remove (name : String)
  | toggle (name : String)
  | has (name : String)

namespace ClassCall

/-! ## §1 The set of names -/

/-- The set of names after a call. -/
def after (c : ClassCall) (s : Finset String) : Finset String :=
  match c with
  | .add name => insert (Text.lowercase name) s
  | .remove name => s.erase (Text.lowercase name)
  | .toggle name =>
    if Text.lowercase name ∈ s then s.erase (Text.lowercase name) else insert (Text.lowercase name) s
  | .has _ => s

/-- What a call answers: whether the name is a member, whether the set changes, or, of a toggle, whether
the name comes in. -/
def answer (c : ClassCall) (s : Finset String) : Bool :=
  match c with
  | .add _ | .remove _ => decide (c.after s ≠ s)
  | .toggle name => decide (Text.lowercase name ∉ s ∧ Text.lowercase name ∈ c.after s)
  | .has name => decide (Text.lowercase name ∈ s)

/-- The set of names after a run of calls, without any at the start. -/
def members (past : List ClassCall) : Finset String := past.foldl (fun s c => c.after s) ∅

/-- What the calls answer one after the other, behind those of the past. -/
def answers (past : List ClassCall) : List ClassCall → List Bool
  | [] => []
  | c :: calls => c.answer (members past) :: answers (past ++ [c]) calls

theorem members_concat (past : List ClassCall) (c : ClassCall) :
    members (past ++ [c]) = c.after (members past) := by
  rw [members, List.foldl_append]
  rfl

/-! ## §2 The order of insertion -/

/-- The call at place `k` brings the name in. -/
def InsertedAt (past : List ClassCall) (name : String) (k : Nat) : Prop :=
  k < past.length ∧ name ∉ members (past.take k) ∧ name ∈ members (past.take (k + 1))

/-- The call at place `k` is the last that brings the name in. -/
def LatestInsertion (past : List ClassCall) (name : String) (k : Nat) : Prop :=
  InsertedAt past name k ∧ ∀ j, InsertedAt past name j → j ≤ k

/-- The names are the members after a run of calls, each once, in the order of their latest insertions. -/
structure Lists (past : List ClassCall) (names : List String) : Prop where
  nodup : names.Nodup
  mem_iff : ∀ name, name ∈ names ↔ name ∈ members past
  inserted : ∀ name ∈ names, ∃ k, LatestInsertion past name k
  ordered : names.Pairwise fun a b => ∃ j k, j < k ∧ LatestInsertion past a j ∧ LatestInsertion past b k

variable {past : List ClassCall} {names : List String} {name : String} {c : ClassCall} {k : Nat}

/-- One more call brings in what it adds to the set, and the earlier insertions stay. -/
theorem insertedAt_concat :
    InsertedAt (past ++ [c]) name k ↔
      InsertedAt past name k ∨
        k = past.length ∧ name ∉ members past ∧ name ∈ c.after (members past) := by
  unfold InsertedAt
  rw [List.length_append, List.length_singleton]
  rcases Nat.lt_trichotomy k past.length with hlt | rfl | hgt
  · rw [List.take_append_of_le_length (Nat.le_of_lt hlt), List.take_append_of_le_length hlt]
    have hne : k ≠ past.length := Nat.ne_of_lt hlt
    simp [hlt, hne, Nat.lt_succ_of_lt hlt]
  · have hwhole : (past ++ [c]).take (past.length + 1) = past ++ [c] :=
      List.take_of_length_le (by simp)
    rw [List.take_left, hwhole, members_concat]
    simp
  · have hlate : ¬ k < past.length := by omega
    have hlater : ¬ k < past.length + 1 := by omega
    have hne : k ≠ past.length := Nat.ne_of_gt hgt
    simp [hlate, hlater, hne]

/-- A name that the call does not bring in came in last when it did before. -/
theorem LatestInsertion.concat (h : LatestInsertion past name k) (hin : name ∈ members past) :
    LatestInsertion (past ++ [c]) name k := by
  refine ⟨insertedAt_concat.mpr (.inl h.1), fun j hj => ?_⟩
  rcases insertedAt_concat.mp hj with hold | ⟨-, hnew, -⟩
  · exact h.2 j hold
  · exact absurd hin hnew

/-- A name that the call brings in comes in last now. -/
theorem latestInsertion_concat (hout : name ∉ members past) (hin : name ∈ c.after (members past)) :
    LatestInsertion (past ++ [c]) name past.length := by
  refine ⟨insertedAt_concat.mpr (.inr ⟨rfl, hout, hin⟩), fun j hj => ?_⟩
  rcases insertedAt_concat.mp hj with ⟨hlt, -⟩ | ⟨rfl, -⟩
  · exact Nat.le_of_lt hlt
  · exact Nat.le_refl _

/-! ## §3 Lists of the members -/

theorem Lists.nil : Lists [] [] where
  nodup := List.nodup_nil
  mem_iff := by simp [members]
  inserted := by simp
  ordered := List.Pairwise.nil

/-- The order of the names does not change with one more call. -/
theorem Lists.ordered_concat (h : Lists past names) (c : ClassCall) :
    names.Pairwise fun a b => ∃ j k, j < k ∧ LatestInsertion (past ++ [c]) a j ∧
      LatestInsertion (past ++ [c]) b k := by
  refine h.ordered.imp_of_mem ?_
  rintro a b ha hb ⟨j, k, hlt, hj, hk⟩
  exact ⟨j, k, hlt, hj.concat ((h.mem_iff a).mp ha), hk.concat ((h.mem_iff b).mp hb)⟩

theorem Lists.inserted_concat (h : Lists past names) (c : ClassCall) :
    ∀ name ∈ names, ∃ k, LatestInsertion (past ++ [c]) name k := by
  intro name hname
  obtain ⟨k, hk⟩ := h.inserted name hname
  exact ⟨k, hk.concat ((h.mem_iff name).mp hname)⟩

/-- A call that leaves the set alone leaves the list alone. -/
theorem Lists.of_same (h : Lists past names) (hsame : c.after (members past) = members past) :
    Lists (past ++ [c]) names where
  nodup := h.nodup
  mem_iff := by
    rw [members_concat, hsame]
    exact h.mem_iff
  inserted := h.inserted_concat c
  ordered := h.ordered_concat c

/-- What comes in is put at the end. -/
theorem Lists.of_insert (h : Lists past names) (hout : name ∉ members past)
    (hafter : c.after (members past) = insert name (members past)) :
    Lists (past ++ [c]) (names ++ [name]) := by
  have hlast : LatestInsertion (past ++ [c]) name past.length :=
    latestInsertion_concat hout (hafter ▸ Finset.mem_insert_self name _)
  have hnew : name ∉ names := fun hmem => hout ((h.mem_iff name).mp hmem)
  constructor
  case nodup =>
    refine List.nodup_append.mpr ⟨h.nodup, List.nodup_singleton name, ?_⟩
    rintro a ha b hb rfl
    exact hnew (List.mem_singleton.mp hb ▸ ha)
  case mem_iff =>
    intro other
    rw [members_concat, hafter, List.mem_append, List.mem_singleton, Finset.mem_insert, h.mem_iff,
      or_comm]
  case inserted =>
    intro other hother
    rcases List.mem_append.mp hother with hold | hsame
    · exact h.inserted_concat c other hold
    · obtain rfl := List.mem_singleton.mp hsame
      exact ⟨_, hlast⟩
  case ordered =>
    refine List.pairwise_append.mpr ⟨h.ordered_concat c, List.pairwise_singleton _ _, ?_⟩
    intro a ha b hb
    obtain rfl := List.mem_singleton.mp hb
    -- the others came in before this call
    obtain ⟨j, hj⟩ := h.inserted a ha
    exact ⟨j, past.length, hj.1.1, hj.concat ((h.mem_iff a).mp ha), hlast⟩

/-- What goes is taken out of the list. -/
theorem Lists.of_erase (h : Lists past names) (hafter : c.after (members past) = (members past).erase name) :
    Lists (past ++ [c]) (names.erase name) where
  nodup := h.nodup.erase name
  mem_iff := by
    intro other
    rw [members_concat, hafter, h.nodup.mem_erase_iff, Finset.mem_erase, h.mem_iff]
  inserted := fun other hother => h.inserted_concat c other (List.mem_of_mem_erase hother)
  ordered := (h.ordered_concat c).sublist List.erase_sublist

end ClassCall

end StyledScene
