import StyledScene.Cascade.Manager

/-!
# Orderly managers

The declarations of every manager that some run of edits leads to stand in the order of their
creation, each under a key of its own and with the weight of its selector (`orderly_run`). Removals
close the gaps and a text that is declared again goes to the end, so positions shift all the time; the
numbers that the manager gives out do not.
-/

namespace StyledScene

namespace StyleManager

/-! ## §1 The invariant -/

/-- The declarations are ordered by the numbers that the manager gave them. -/
structure Orderly (m : StyleManager) : Prop where
  names_nodup : (Registry.names m.declarations).Nodup
  orders_ascend : m.listed.Pairwise fun d e => d.order < e.order
  orders_lt : ∀ d ∈ m.listed, d.order < m.nextOrder
  weight_eq : ∀ d ∈ m.listed, d.weight = d.selector.weight

theorem orderly_new (config : ManagerConfig) : (new config).Orderly where
  names_nodup := List.nodup_nil
  orders_ascend := List.Pairwise.nil
  orders_lt := by simp [new, listed]
  weight_eq := by simp [new, listed]

/-! ## §2 What the changes do to the declarations -/

theorem mem_listed {m : StyleManager} {d : Declaration} :
    d ∈ m.listed ↔ ∃ key, (key, d) ∈ m.declarations := by
  simp [listed]

/-- The orders, weights and selectors of a registry survive a change of its stores. -/
theorem mem_setStore {m : StyleManager} {slot : Slot} {store : Store} {d : Declaration}
    (h : d ∈ (m.setStore slot store).listed) :
    ∃ e ∈ m.listed, d.order = e.order ∧ d.weight = e.weight ∧ d.selector = e.selector := by
  cases slot with
  | everywhere => exact ⟨d, h, rfl, rfl, rfl⟩
  | keyed key =>
    obtain ⟨name, hentry⟩ := mem_listed.mp h
    obtain ⟨⟨name', e⟩, he, heq⟩ := List.mem_map.mp hentry
    refine ⟨e, mem_listed.mpr ⟨name', he⟩, ?_⟩
    split at heq
    · obtain ⟨-, rfl⟩ := Prod.mk.inj heq
      exact ⟨rfl, rfl, rfl⟩
    · obtain ⟨-, rfl⟩ := Prod.mk.inj heq
      exact ⟨rfl, rfl, rfl⟩

namespace Orderly

variable {m : StyleManager}

/-- Whoever keeps some of the declarations, in their order, stays orderly. -/
theorem of_sublist {m' : StyleManager} (h : m.Orderly)
    (hsub : m'.declarations.Sublist m.declarations) (hnext : m.nextOrder ≤ m'.nextOrder) :
    m'.Orderly where
  names_nodup := (hsub.map Prod.fst).nodup h.names_nodup
  orders_ascend := h.orders_ascend.sublist (hsub.map Prod.snd)
  orders_lt d hd := Nat.lt_of_lt_of_le (h.orders_lt d ((hsub.map Prod.snd).subset hd)) hnext
  weight_eq d hd := h.weight_eq d ((hsub.map Prod.snd).subset hd)

theorem append (h : m.Orderly) (key : String) (selector : Selector) :
    (m.append key selector).Orderly := by
  -- an older entry under the key goes, and the others keep their order
  have hkept : ((m.declarations.erase key).map Prod.snd).Sublist m.listed :=
    List.filter_sublist.map Prod.snd
  have hlisted : (m.append key selector).listed =
      (m.declarations.erase key).map Prod.snd ++ [Declaration.new selector m.nextOrder true] := by
    simp [StyleManager.append, listed, Registry.insert]
  constructor
  · exact Registry.nodup_names_insert h.names_nodup _ _
  · rw [hlisted, List.pairwise_append]
    refine ⟨h.orders_ascend.sublist hkept, by simp, ?_⟩
    intro d hd e he
    rw [List.mem_singleton.mp he]
    exact h.orders_lt d (hkept.subset hd)
  · intro d hd
    rw [hlisted, List.mem_append, List.mem_singleton] at hd
    show d.order < m.nextOrder + 1
    rcases hd with hold | rfl
    · exact Nat.lt_succ_of_lt (h.orders_lt d (hkept.subset hold))
    · exact Nat.lt_succ_self _
  · intro d hd
    rw [hlisted, List.mem_append, List.mem_singleton] at hd
    rcases hd with hold | rfl
    · exact h.weight_eq d (hkept.subset hold)
    · rfl

theorem access? (h : m.Orderly) {text : String} {slot : Slot} {m' : StyleManager}
    (haccess : m.access? text = some (slot, m')) : m'.Orderly := by
  unfold StyleManager.access? at haccess
  simp only at haccess
  split at haccess
  · -- the declaration is there
    obtain ⟨-, rfl⟩ := Prod.mk.inj (Option.some.inj haccess)
    exact h
  · -- it is made: the one for every node takes no number, any other takes the next one
    split at haccess
    · obtain ⟨-, rfl⟩ := Prod.mk.inj (Option.some.inj haccess)
      exact h.of_sublist (List.Sublist.refl _) (Nat.le_refl _)
    · obtain ⟨selector, -, heq⟩ := Option.map_eq_some_iff.mp haccess
      obtain ⟨-, rfl⟩ := Prod.mk.inj heq
      exact h.append _ selector

theorem setStore (h : m.Orderly) (slot : Slot) (store : Store) : (m.setStore slot store).Orderly := by
  cases slot with
  | everywhere => exact h.of_sublist (List.Sublist.refl _) (Nat.le_refl _)
  | keyed key =>
    constructor
    · simp only [StyleManager.setStore, Registry.names_modify]
      exact h.names_nodup
    · have hascend := List.pairwise_map.mp h.orders_ascend
      simp only [StyleManager.setStore, listed, Registry.modify]
      rw [List.map_map, List.pairwise_map]
      refine hascend.imp fun {a b} hab => ?_
      -- a new store changes no number
      have horder (entry : String × Declaration) :
          (if entry.1 = key then (entry.1, { entry.2 with store := store }) else entry).2.order =
            entry.2.order := by
        split <;> rfl
      simp only [Function.comp, horder]
      exact hab
    · intro d hd
      obtain ⟨e, he, horder, -, -⟩ := mem_setStore hd
      rw [horder]
      exact h.orders_lt e he
    · intro d hd
      obtain ⟨e, he, -, hweight, hselector⟩ := mem_setStore hd
      rw [hweight, hselector]
      exact h.weight_eq e he

theorem change (h : m.Orderly) (slot : Slot) (c : StoreChange) : (m.change slot c).Orderly := by
  unfold StyleManager.change
  split
  · exact h
  · cases c with
    | edit e =>
      have hset := h.setStore slot (Store.edit ‹Declaration›.store e)
      simp only
      -- a report makes the manager invalid and touches no declaration
      split
      · exact hset.of_sublist (List.Sublist.refl _) (Nat.le_refl _)
      · exact hset
    | unwatch => exact h.setStore slot _

theorem removeStyle (h : m.Orderly) (text : String) : (m.removeStyle text).2.Orderly := by
  unfold StyleManager.removeStyle
  split
  · exact h
  · split
    · exact h.of_sublist (List.Sublist.refl _) (Nat.le_refl _)
    · exact h.of_sublist List.filter_sublist (Nat.le_refl _)

end Orderly

/-! ## §3 Every run -/

/-- **Every edit keeps a manager orderly.** -/
theorem Orderly.after {m : StyleManager} (h : m.Orderly) (e : ManagerEdit) : (m.after e).Orderly := by
  cases e with
  | access text =>
    show (((m.access? text).map Prod.snd).getD m).Orderly
    cases haccess : m.access? text with
    | none => exact h
    | some found => exact h.access? haccess
  | change slot c => exact h.change slot c
  | removeStyle text => exact h.removeStyle text
  | clear => exact h.of_sublist (List.nil_sublist _) (Nat.le_refl _)
  | invalidate => exact h.of_sublist (List.Sublist.refl _) (Nat.le_refl _)
  | markValid => exact h.of_sublist (List.Sublist.refl _) (Nat.le_refl _)
  | registerFont name font => exact h.of_sublist (List.Sublist.refl _) (Nat.le_refl _)
  | registerSkin name skin => exact h.of_sublist (List.Sublist.refl _) (Nat.le_refl _)

theorem Orderly.run {m : StyleManager} (h : m.Orderly) (edits : List ManagerEdit) :
    (m.run edits).Orderly := by
  induction edits generalizing m with
  | nil => exact h
  | cons e edits ih => exact ih (h.after e)

/-- **Every manager is orderly**, whatever its host did to it. -/
theorem orderly_run (config : ManagerConfig) (edits : List ManagerEdit) :
    ((new config).run edits).Orderly :=
  (orderly_new config).run edits

end StyleManager

end StyledScene
