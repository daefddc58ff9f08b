import StyledScene.Proofs.Cascade.Indexed
import StyledScene.Proofs.Cascade.Orderly

/-!
# Positions and keys

A registry is a list in which every name has one entry, so a name stands for a position as long as
nothing before it is taken out. Looking up, changing and erasing by name come to the same as reading,
changing and taking out at the position of the name (`find?_eq_getElem?`, `map_modify`,
`erase_eq_eraseIdx`).
-/

namespace StyledScene

namespace Registry

/-! ## §1 By name and by position -/

variable {α : Type}

theorem modify_cons (entry : String × α) (r : Registry α) (name : String) (f : α → α) :
    modify (entry :: r) name f =
      (if entry.1 = name then (entry.1, f entry.2) else entry) :: modify r name f := rfl

theorem modify_of_not_mem {r : Registry α} {name : String} (h : name ∉ names r) (f : α → α) :
    modify r name f = r := by
  refine (List.map_congr_left fun e he => ?_).trans (List.map_id r)
  have hne : e.1 ≠ name := fun heq => h (heq ▸ List.mem_map_of_mem he)
  rw [if_neg hne, id]

theorem erase_of_not_mem {r : Registry α} {name : String} (h : name ∉ names r) :
    erase r name = r :=
  List.filter_eq_self.mpr fun _ he => bne_iff_ne.mpr fun heq => h (heq ▸ List.mem_map_of_mem he)

/-- A new name comes last. -/
theorem insert_of_not_mem {r : Registry α} {name : String} (h : name ∉ names r) (value : α) :
    insert r name value = r ++ [(name, value)] := by
  rw [insert, erase_of_not_mem h]

/-- A name that stands in the tail is not the first one. -/
theorem fst_ne_of_getElem? {entry : String × α} {r : Registry α} (hnd : entry.1 ∉ names r)
    {name : String} {p : Nat} (hp : (names r)[p]? = some name) : entry.1 ≠ name :=
  fun h => hnd (h ▸ List.mem_of_getElem? hp)

theorem find?_eq_getElem? {r : Registry α} (hnd : (names r).Nodup) {name : String} {p : Nat}
    (hp : (names r)[p]? = some name) : r.find? name = (r.map Prod.snd)[p]? := by
  induction r generalizing p with
  | nil => simp [names] at hp
  | cons entry r ih =>
    rw [names, List.map_cons, List.nodup_cons] at hnd
    rw [find?_cons]
    cases p with
    | zero =>
      have hname : entry.1 = name := by simpa [names] using hp
      rw [if_pos hname]
      rfl
    | succ p =>
      have hp' : (names r)[p]? = some name := by simpa [names] using hp
      rw [if_neg (fst_ne_of_getElem? hnd.1 hp'), ih hnd.2 hp', List.map_cons,
        List.getElem?_cons_succ]

theorem map_modify {r : Registry α} (hnd : (names r).Nodup) {name : String} {p : Nat}
    (hp : (names r)[p]? = some name) (f : α → α) :
    (modify r name f).map Prod.snd = (r.map Prod.snd).modify p f := by
  induction r generalizing p with
  | nil => simp [names] at hp
  | cons entry r ih =>
    rw [names, List.map_cons, List.nodup_cons] at hnd
    rw [modify_cons]
    cases p with
    | zero =>
      have hname : entry.1 = name := by simpa [names] using hp
      rw [if_pos hname, modify_of_not_mem (hname ▸ hnd.1), List.map_cons, List.map_cons,
        List.modify_zero_cons]
    | succ p =>
      have hp' : (names r)[p]? = some name := by simpa [names] using hp
      rw [if_neg (fst_ne_of_getElem? hnd.1 hp'), List.map_cons, List.map_cons,
        List.modify_succ_cons, ih hnd.2 hp']

theorem erase_eq_eraseIdx {r : Registry α} (hnd : (names r).Nodup) {name : String} {p : Nat}
    (hp : (names r)[p]? = some name) : erase r name = r.eraseIdx p := by
  induction r generalizing p with
  | nil => simp [names] at hp
  | cons entry r ih =>
    rw [names, List.map_cons, List.nodup_cons] at hnd
    cases p with
    | zero =>
      have hname : entry.1 = name := by simpa [names] using hp
      rw [erase, List.filter_cons_of_neg (by simp [hname]), ← erase,
        erase_of_not_mem (hname ▸ hnd.1), List.eraseIdx_cons_zero]
    | succ p =>
      have hp' : (names r)[p]? = some name := by simpa [names] using hp
      have hkept := fst_ne_of_getElem? hnd.1 hp'
      rw [erase, List.filter_cons_of_pos (by simpa using hkept), List.eraseIdx_cons_succ, ← erase,
        ih hnd.2 hp']

theorem isSome_find?_iff {r : Registry α} {name : String} :
    (r.find? name).isSome ↔ name ∈ names r := by
  induction r with
  | nil => simp [names]
  | cons entry r ih =>
    rw [find?_cons, names, List.map_cons, List.mem_cons, ← names, ← ih]
    by_cases h : entry.1 = name
    · simp [h]
    · simp [h, Ne.symm h]

theorem length_erase {r : Registry α} (hnd : (names r).Nodup) {name : String}
    (hd : (r.find? name).isSome = true) : (erase r name).length + 1 = r.length := by
  obtain ⟨p, hp⟩ := List.mem_iff_getElem?.mp (isSome_find?_iff.mp hd)
  have hlt : p < r.length := by
    have hlt := (List.getElem?_eq_some_iff.mp hp).1
    rwa [names, List.length_map] at hlt
  rw [erase_eq_eraseIdx hnd hp, List.length_eraseIdx_of_lt hlt]
  exact Nat.succ_pred_eq_of_pos (Nat.zero_lt_of_lt hlt)

theorem length_insert {r : Registry α} {name : String} (hd : r.find? name = none) (value : α) :
    (insert r name value).length = r.length + 1 := by
  have hnew : name ∉ names r := by
    rw [← isSome_find?_iff, hd]
    exact Bool.false_ne_true
  rw [insert_of_not_mem hnew, List.length_append, List.length_singleton]

/-! ## §2 Closing a gap -/

@[simp] theorem names_closeGap (index : Registry Nat) (gap : Nat) :
    names (index.closeGap gap) = names index := by
  rw [names, closeGap, List.map_map, names]
  congr 1
  funext entry
  simp only [Function.comp]
  split <;> rfl

theorem find?_closeGap (index : Registry Nat) (gap : Nat) (name : String) :
    (index.closeGap gap).find? name =
      (index.find? name).map fun p => if gap < p then p - 1 else p := by
  induction index with
  | nil => rfl
  | cons entry index ih =>
    rw [closeGap] at ih ⊢
    -- only the position in the entry is corrected, not the name
    rw [List.map_cons, find?_cons, find?_cons, ih]
    by_cases hname : entry.1 = name <;> by_cases hlater : gap < entry.2 <;> simp [hname, hlater]

/-- **Positions after a removal.** The index of what is left leads to the position that each name has
among the names that are left. -/
theorem find?_erase_closeGap {index : Registry Nat} {keys : List String} (hnd : keys.Nodup)
    (hindex : ∀ key p, index.find? key = some p ↔ keys[p]? = some key) {gone : String} {gap : Nat}
    (hgone : keys[gap]? = some gone) (key : String) (p : Nat) :
    ((index.erase gone).closeGap gap).find? key = some p ↔ (keys.eraseIdx gap)[p]? = some key := by
  have hat {q : Nat} (hq : keys[q]? = some gone) : q = gap :=
    (List.getElem?_inj (List.getElem?_eq_some_iff.mp hq).1 hnd).mp (hq.trans hgone.symm)
  rw [find?_closeGap, find?_erase, List.getElem?_eraseIdx]
  by_cases hkey : key = gone
  · -- the key that went away stood at the gap and nowhere else
    rw [if_pos hkey, hkey]
    constructor
    · intro h
      cases h
    · intro h
      split at h
      · have := hat h
        omega
      · have := hat h
        omega
  · rw [if_neg hkey, Option.map_eq_some_iff]
    constructor
    · rintro ⟨q, hq, rfl⟩
      have hq' := (hindex key q).mp hq
      have hne : q ≠ gap := by
        rintro rfl
        exact hkey (Option.some.inj (hq'.symm.trans hgone))
      split
      · rw [if_neg (by omega), Nat.sub_add_cancel (by omega)]
        exact hq'
      · rw [if_pos (by omega)]
        exact hq'
    · intro h
      split at h
      · exact ⟨p, (hindex key p).mpr h, if_neg (by omega)⟩
      · exact ⟨p + 1, (hindex key (p + 1)).mpr h, if_pos (by omega)⟩

end Registry

end StyledScene
