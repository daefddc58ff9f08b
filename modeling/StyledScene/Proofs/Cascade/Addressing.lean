import StyledScene.Proofs.Cascade.Orderly
import StyledScene.Proofs.Cascade.Indexed

/-!
# Texts address slots

A text addresses the declaration under its key and no other one. So what an author finds in a slot is
told from the calls that went to that slot, and from the clearings, without a look at any other
declaration (`ManagerCall.held`); that a manager answers this way after every run is `store_run`.
-/

namespace StyledScene

/-! ## §1 What a call does to a slot -/

/-- The store after a change. -/
def StoreChange.apply (store : Store) : StoreChange → Store
  | .edit e => store.edit e
  | .unwatch => store.unwatch

namespace StyleManager

/-- The text stands for every node or has a selector. -/
def Readable (text : String) : Prop :=
  keyOf text = everywhereKey ∨ (Selector.parse? (keyOf text)).isSome = true

instance (text : String) : Decidable (Readable text) := inferInstanceAs (Decidable (_ ∨ _))

end StyleManager

open StyleManager (slotOf keyOf everywhereKey Readable)

namespace ManagerCall

/-- The edits that a call amounts to. -/
def edits : ManagerCall → List ManagerEdit
  | .style text changes => .access text :: changes.map fun c => .change (slotOf text) c
  | .tryStyle text changes => .access text :: changes.map fun c => .change (slotOf text) c
  | .lookUp _ => []
  | .removeStyle text => [.removeStyle text]
  | .clear => [.clear]
  | .invalidate => [.invalidate]
  | .markValid => [.markValid]
  | .registerFont name font => [.registerFont name font]
  | .registerSkin name skin => [.registerSkin name skin]

/-- The store in a slot after somebody asked for the store of a text and made changes. -/
def heldAfterChanges (slot : Slot) (before : Option Store) (text : String)
    (changes : List StoreChange) : Option Store :=
  if slotOf text = slot ∧ Readable text then
    some (changes.foldl StoreChange.apply (before.getD (Store.new true)))
  else before

/-- The store in a slot after a call, told from the store that was there before. -/
def held (slot : Slot) (before : Option Store) : ManagerCall → Option Store
  | .style text changes => heldAfterChanges slot before text changes
  | .tryStyle text changes => heldAfterChanges slot before text changes
  | .removeStyle text => if slotOf text = slot then none else before
  | .clear => none
  | _ => before

end ManagerCall

namespace StyleManager

/-! ## §2 Slots -/

theorem slotOf_eq_everywhere {text : String} :
    slotOf text = .everywhere ↔ keyOf text = everywhereKey := by
  unfold slotOf
  split <;> simp_all

theorem slotOf_eq_keyed {text key : String} :
    slotOf text = .keyed key ↔ keyOf text = key ∧ key ≠ everywhereKey := by
  unfold slotOf
  split
  · rename_i heverywhere
    refine ⟨fun h => Slot.noConfusion h, fun ⟨hkey, hne⟩ => absurd (hkey ▸ heverywhere) hne⟩
  · rename_i hne
    refine ⟨fun h => ?_, fun h => h.1 ▸ rfl⟩
    obtain rfl := Slot.keyed.inj h
    exact ⟨rfl, hne⟩

/-! ## §3 Finding or making a declaration -/

section Access

variable {m : StyleManager}

theorem access?_of_isSome {text : String} (hd : (m.at? (slotOf text)).isSome = true) :
    m.access? text = some (slotOf text, m) := by
  unfold access?
  simp only [hd, if_true]

theorem access?_everywhere {text : String} (hslot : slotOf text = .everywhere)
    (hnone : m.everywhere = none) :
    m.access? text =
      some (.everywhere, { m with everywhere := some (Declaration.new Selector.universal 0 true) }) := by
  unfold access?
  simp [hslot, at?, hnone]

theorem access?_keyed {text key : String} (hslot : slotOf text = .keyed key)
    (hnone : m.declarations.find? key = none) :
    m.access? text =
      (Selector.parse? key).map fun selector => (.keyed key, m.append key selector) := by
  unfold access?
  simp [hslot, at?, hnone]

/-- All that finding or making a declaration can do. -/
theorem access?_cases {text : String} {found : Slot × StyleManager}
    (haccess : m.access? text = some found) :
    ((m.at? (slotOf text)).isSome = true ∧ found = (slotOf text, m)) ∨
      (slotOf text = .everywhere ∧ m.everywhere = none ∧
        found = (.everywhere,
          { m with everywhere := some (Declaration.new Selector.universal 0 true) })) ∨
      ∃ key selector, slotOf text = .keyed key ∧ m.declarations.find? key = none ∧
        Selector.parse? key = some selector ∧ found = (.keyed key, m.append key selector) := by
  cases hd : m.at? (slotOf text) with
  | some d =>
    rw [access?_of_isSome (by rw [hd]; rfl)] at haccess
    exact .inl ⟨rfl, (Option.some.inj haccess).symm⟩
  | none =>
    cases hslot : slotOf text with
    | everywhere =>
      rw [hslot] at hd
      rw [access?_everywhere hslot hd] at haccess
      exact .inr (.inl ⟨rfl, hd, (Option.some.inj haccess).symm⟩)
    | keyed key =>
      rw [hslot] at hd
      rw [access?_keyed hslot hd] at haccess
      obtain ⟨selector, hparse, heq⟩ := Option.map_eq_some_iff.mp haccess
      exact .inr (.inr ⟨key, selector, rfl, hd, hparse, heq.symm⟩)

end Access

/-! ## §4 Declarations stand under their keys -/

/-- Every declaration stands under the key that its selector was read from. -/
structure Keyed (m : StyleManager) : Prop where
  selector : ∀ key d, (key, d) ∈ m.declarations → Selector.parse? key = some d.selector
  isKey : ∀ key ∈ Registry.names m.declarations, key ≠ everywhereKey ∧ ∃ text, key = keyOf text

theorem keyed_new (config : ManagerConfig) : (new config).Keyed where
  selector _ _ h := (List.not_mem_nil h).elim
  isKey _ h := (List.not_mem_nil h).elim

namespace Keyed

variable {m m' : StyleManager}

theorem of_subset (h : m.Keyed) (hsub : m'.declarations ⊆ m.declarations) : m'.Keyed where
  selector key d hd := h.selector key d (hsub hd)
  isKey key hkey := h.isKey key (List.map_subset _ hsub hkey)

theorem access? (h : m.Keyed) {text : String} {slot : Slot}
    (haccess : m.access? text = some (slot, m')) : m'.Keyed := by
  rcases access?_cases haccess with ⟨-, heq⟩ | ⟨-, -, heq⟩ | ⟨key, selector, hslot, -, hparse, heq⟩
  · obtain ⟨-, rfl⟩ := Prod.mk.inj heq
    exact h
  · obtain ⟨-, rfl⟩ := Prod.mk.inj heq
    exact h.of_subset (List.Subset.refl _)
  · obtain ⟨-, rfl⟩ := Prod.mk.inj heq
    obtain ⟨hkey, hne⟩ := slotOf_eq_keyed.mp hslot
    -- the new declaration stands under the key of the text, with the selector read from it
    refine ⟨fun name d hd => ?_, fun name hname => ?_⟩
    · rcases List.mem_append.mp hd with hold | hnew
      · exact h.selector name d (List.mem_filter.mp hold).1
      · obtain ⟨rfl, rfl⟩ := Prod.mk.inj (List.mem_singleton.mp hnew)
        exact hparse
    · obtain ⟨entry, hentry, rfl⟩ := List.mem_map.mp hname
      rcases List.mem_append.mp hentry with hold | hnew
      · exact h.isKey _ (List.mem_map_of_mem (List.mem_filter.mp hold).1)
      · rw [List.mem_singleton.mp hnew]
        exact ⟨hne, text, hkey.symm⟩

theorem setStore (h : m.Keyed) (slot : Slot) (store : Store) : (m.setStore slot store).Keyed := by
  cases slot with
  | everywhere => exact h.of_subset (List.Subset.refl _)
  | keyed key =>
    refine ⟨fun name d hd => ?_, fun name hname => ?_⟩
    · obtain ⟨⟨name', d'⟩, hmem, heq⟩ := List.mem_map.mp hd
      have hparse := h.selector name' d' hmem
      -- a new store changes neither the key nor the selector
      split at heq <;> obtain ⟨rfl, rfl⟩ := Prod.mk.inj heq <;> exact hparse
    · simp only [StyleManager.setStore, Registry.names_modify] at hname
      exact h.isKey name hname

theorem change (h : m.Keyed) (slot : Slot) (c : StoreChange) : (m.change slot c).Keyed := by
  unfold StyleManager.change
  split
  · exact h
  · rename_i d hd
    cases c with
    | edit e =>
      have hset := h.setStore slot (d.store.edit e)
      simp only
      split
      · exact hset.of_subset (List.Subset.refl _)
      · exact hset
    | unwatch => exact h.setStore slot _

theorem removeStyle (h : m.Keyed) (text : String) : (m.removeStyle text).2.Keyed := by
  unfold StyleManager.removeStyle
  split
  · exact h
  · split
    · exact h.of_subset (List.Subset.refl _)
    · exact h.of_subset List.filter_sublist.subset

/-- **Every edit keeps the declarations under their keys.** -/
theorem after (h : m.Keyed) (e : ManagerEdit) : (m.after e).Keyed := by
  cases e with
  | access text =>
    show (((m.access? text).map Prod.snd).getD m).Keyed
    cases haccess : m.access? text with
    | none => exact h
    | some found => exact h.access? haccess
  | change slot c => exact h.change slot c
  | removeStyle text => exact h.removeStyle text
  | clear => exact h.of_subset (List.nil_subset _)
  | invalidate => exact h.of_subset (List.Subset.refl _)
  | markValid => exact h.of_subset (List.Subset.refl _)
  | registerFont name font => exact h.of_subset (List.Subset.refl _)
  | registerSkin name skin => exact h.of_subset (List.Subset.refl _)

theorem run (h : m.Keyed) (edits : List ManagerEdit) : (m.run edits).Keyed := by
  induction edits generalizing m with
  | nil => exact h
  | cons e edits ih => exact ih (h.after e)

/-- A text that addresses a declaration can be read. -/
theorem readable (h : m.Keyed) {text : String} (hd : (m.at? (slotOf text)).isSome = true) :
    Readable text := by
  cases hslot : slotOf text with
  | everywhere => exact Or.inl (slotOf_eq_everywhere.mp hslot)
  | keyed key =>
    obtain ⟨d, hfind⟩ := Option.isSome_iff_exists.mp hd
    rw [hslot] at hfind
    have hparse := h.selector key d (Registry.mem_of_find? hfind)
    refine Or.inr ?_
    rw [(slotOf_eq_keyed.mp hslot).1, hparse]
    rfl

end Keyed

/-! ## §5 Look-ups after an edit -/

variable {m : StyleManager}

theorem at?_setStore (m : StyleManager) (slot : Slot) (store : Store) (other : Slot) :
    (m.setStore slot store).at? other =
      if other = slot then (m.at? slot).map fun d => { d with store := store } else m.at? other := by
  cases slot with
  | everywhere => cases other <;> rfl
  | keyed key =>
    cases other with
    | everywhere => rfl
    | keyed name =>
      show Registry.find? (Registry.modify m.declarations key fun d => { d with store := store })
        name = _
      rw [Registry.find?_modify]
      by_cases hname : name = key
      · rw [if_pos hname, if_pos (congrArg Slot.keyed hname), hname]
        rfl
      · rw [if_neg hname, if_neg fun h => hname (Slot.keyed.inj h)]
        rfl

@[simp] theorem at?_invalidate (m : StyleManager) (slot : Slot) :
    m.invalidate.at? slot = m.at? slot := by
  cases slot <;> rfl

theorem at?_change (m : StyleManager) (slot : Slot) (c : StoreChange) (other : Slot) :
    (m.change slot c).at? other =
      if other = slot then (m.at? slot).map fun d => { d with store := c.apply d.store }
      else m.at? other := by
  unfold change
  split
  · rename_i hnone
    by_cases hother : other = slot
    · rw [if_pos hother, hother, hnone]
      rfl
    · rw [if_neg hother]
  · rename_i d hd
    -- a report changes no declaration
    have hset (store : Store) : (m.setStore slot store).at? other =
        if other = slot then some { d with store := store } else m.at? other := by
      rw [at?_setStore, hd]
      rfl
    rw [hd]
    cases c with
    | edit e =>
      simp only
      split
      · rw [at?_invalidate, hset]
        rfl
      · exact hset _
    | unwatch => exact hset _

/-- Changes through a slot follow one another in its store. -/
theorem store_run_change (slot : Slot) (changes : List StoreChange) (other : Slot) :
    ((m.run (changes.map fun c => .change slot c)).at? other).map Declaration.store =
      if other = slot then
        ((m.at? other).map Declaration.store).map fun store =>
          changes.foldl StoreChange.apply store
      else (m.at? other).map Declaration.store := by
  -- on the changes: whether there is a declaration in the slot stays as it is all the time
  induction changes generalizing m with
  | nil =>
    show (m.at? other).map Declaration.store = _
    simp [Function.comp_def]
  | cons c changes ih =>
    show (((m.change slot c).run _).at? other).map Declaration.store = _
    rw [ih, at?_change]
    by_cases hother : other = slot
    · subst hother
      cases m.at? other <;> simp
    · simp [hother]

theorem access?_eq_none (h : m.Keyed) {text : String} : m.access? text = none ↔ ¬ Readable text := by
  cases hd : m.at? (slotOf text) with
  | some d =>
    have hsome : (m.at? (slotOf text)).isSome = true := by rw [hd]; rfl
    rw [access?_of_isSome hsome]
    exact iff_of_false (by simp) (not_not_intro (h.readable hsome))
  | none =>
    cases hslot : slotOf text with
    | everywhere =>
      -- the declaration for every node can always be made
      rw [hslot] at hd
      rw [access?_everywhere hslot hd]
      exact iff_of_false (by simp) (not_not_intro (Or.inl (slotOf_eq_everywhere.mp hslot)))
    | keyed key =>
      rw [hslot] at hd
      obtain ⟨hkey, hne⟩ := slotOf_eq_keyed.mp hslot
      rw [access?_keyed hslot hd, Option.map_eq_none_iff, Readable, hkey]
      simp [hne]

theorem access_of_some {text : String} {slot : Slot} {m' : StyleManager}
    (haccess : m.access? text = some (slot, m')) :
    m.access text = .ok (.declared slot, m') := by
  delta access
  rw [haccess]

theorem access_of_none {text : String} (haccess : m.access? text = none) :
    m.access text =
      if m.config.assertOnInvalid then .error (.assertionFailed text) else .ok (.scratch, m) := by
  delta access
  rw [haccess]

theorem tryAccess_of_some {text : String} {slot : Slot} {m' : StyleManager}
    (haccess : m.access? text = some (slot, m')) : m.tryAccess text = .ok (slot, m') := by
  delta tryAccess
  rw [haccess]

theorem tryAccess_of_none {text : String} (haccess : m.access? text = none) :
    m.tryAccess text = .error (.invalidSelector text) := by
  delta tryAccess
  rw [haccess]

section Asking

variable {text : String} {slot : Slot} {m' : StyleManager}

theorem valid_access? (haccess : m.access? text = some (slot, m')) : m'.valid = m.valid := by
  rcases access?_cases haccess with
    ⟨-, heq⟩ | ⟨-, -, heq⟩ | ⟨key, selector, -, -, -, heq⟩
  · rw [(Prod.mk.inj heq).2]
  · rw [(Prod.mk.inj heq).2]
  · rw [(Prod.mk.inj heq).2]
    rfl

theorem at?_append_of_ne {key : String} {other : Slot} (hother : other ≠ .keyed key)
    (selector : Selector) : (m.append key selector).at? other = m.at? other := by
  cases other with
  | everywhere => rfl
  | keyed name =>
    show Registry.find? (Registry.insert m.declarations key _) name = _
    rw [Registry.find?_insert, if_neg fun hname => hother (congrArg Slot.keyed hname)]
    rfl

/-- Whoever asks for the store of a text leaves the other slots alone. -/
theorem at?_access?_of_ne (haccess : m.access? text = some (slot, m')) {other : Slot}
    (hother : other ≠ slotOf text) : m'.at? other = m.at? other := by
  rcases access?_cases haccess with
    ⟨-, heq⟩ | ⟨hslot, -, heq⟩ | ⟨key, selector, hslot, -, -, heq⟩ <;>
    obtain ⟨-, rfl⟩ := Prod.mk.inj heq
  · rfl
  · cases other with
    | everywhere => exact absurd hslot.symm hother
    | keyed name => rfl
  · exact at?_append_of_ne (hslot ▸ hother) selector

/-- Whoever asks for the store of a text finds the one that is there or a new one. -/
theorem store_access?_self (haccess : m.access? text = some (slot, m')) :
    (m'.at? (slotOf text)).map Declaration.store =
      some (((m.at? (slotOf text)).map Declaration.store).getD (Store.new true)) := by
  rcases access?_cases haccess with
    ⟨hsome, heq⟩ | ⟨hslot, hnone, heq⟩ | ⟨key, selector, hslot, hnone, -, heq⟩ <;>
    obtain ⟨-, rfl⟩ := Prod.mk.inj heq
  · obtain ⟨d, hd⟩ := Option.isSome_iff_exists.mp hsome
    rw [hd]
    rfl
  · rw [hslot, at?, at?, hnone]
    rfl
  · rw [hslot, at?, at?, hnone, append, Registry.find?_insert, if_pos rfl]
    rfl

end Asking

theorem removeStyle_of_none {text : String} (hd : m.at? (slotOf text) = none) :
    m.removeStyle text = (false, m) := by
  rw [removeStyle, declaration?, hd]
  rfl

theorem removeStyle_everywhere {text : String} (hslot : slotOf text = .everywhere)
    {d : Declaration} (hd : m.everywhere = some d) :
    m.removeStyle text = (true, { m with everywhere := none }.invalidate) := by
  simp [removeStyle, declaration?, hslot, at?, hd]

theorem removeStyle_keyed {text key : String} (hslot : slotOf text = .keyed key)
    {d : Declaration} (hd : m.declarations.find? key = some d) :
    m.removeStyle text =
      (true, { m with declarations := m.declarations.erase key }.invalidate) := by
  simp [removeStyle, declaration?, hslot, at?, hd]

/-- All that a removal can do. -/
theorem removeStyle_cases (m : StyleManager) (text : String) :
    (m.at? (slotOf text) = none ∧ m.removeStyle text = (false, m)) ∨
      (slotOf text = .everywhere ∧ m.everywhere.isSome = true ∧
        m.removeStyle text = (true, { m with everywhere := none }.invalidate)) ∨
      ∃ key, slotOf text = .keyed key ∧ (m.declarations.find? key).isSome = true ∧
        m.removeStyle text =
          (true, { m with declarations := m.declarations.erase key }.invalidate) := by
  cases hd : m.at? (slotOf text) with
  | none => exact .inl ⟨rfl, removeStyle_of_none hd⟩
  | some d =>
    cases hslot : slotOf text with
    | everywhere =>
      rw [hslot] at hd
      exact .inr (.inl ⟨rfl, Option.isSome_of_mem hd, removeStyle_everywhere hslot hd⟩)
    | keyed key =>
      rw [hslot] at hd
      exact .inr (.inr ⟨key, rfl, Option.isSome_of_mem hd, removeStyle_keyed hslot hd⟩)

/-- The answer to a removal says whether there was a declaration, and the other slots stay. -/
theorem removeStyle_spec (m : StyleManager) (text : String) :
    (m.removeStyle text).1 = (m.at? (slotOf text)).isSome ∧
      ∀ other, (m.removeStyle text).2.at? other =
        if slotOf text = other then none else m.at? other := by
  rcases m.removeStyle_cases text with ⟨hnone, heq⟩ | ⟨hslot, hsome, heq⟩ | ⟨key, hslot, hsome, heq⟩
  · rw [heq, hnone]
    refine ⟨rfl, fun other => ?_⟩
    split
    · rename_i hother
      rw [← hother, hnone]
    · rfl
  · rw [heq, hslot]
    refine ⟨hsome.symm, fun other => ?_⟩
    cases other <;> rfl
  · rw [heq, hslot]
    refine ⟨hsome.symm, fun other => ?_⟩
    cases other with
    | everywhere => rfl
    | keyed name =>
      show Registry.find? (Registry.erase m.declarations key) name = _
      rw [Registry.find?_erase]
      by_cases hname : name = key
      · rw [if_pos hname, if_pos (congrArg Slot.keyed hname.symm)]
      · rw [if_neg hname, if_neg fun h => hname (Slot.keyed.inj h).symm]
        rfl

/-! ## §6 Runs of calls -/

theorem run_append (m : StyleManager) (edits more : List ManagerEdit) :
    m.run (edits ++ more) = (m.run edits).run more :=
  List.foldl_append

theorem run_cons (m : StyleManager) (e : ManagerEdit) (edits : List ManagerEdit) :
    m.run (e :: edits) = (m.after e).run edits := rfl

theorem after_access (m : StyleManager) (text : String) :
    m.after (.access text) = ((m.access? text).map Prod.snd).getD m := rfl

/-- Nothing can be written where there is no declaration. -/
theorem run_change_of_none {slot : Slot} (hd : m.at? slot = none) (changes : List StoreChange) :
    m.run (changes.map fun c => .change slot c) = m := by
  induction changes with
  | nil => rfl
  | cons c changes ih =>
    have hchange : m.after (.change slot c) = m := by
      show m.change slot c = m
      rw [change, hd]
    rw [List.map_cons, run_cons, hchange, ih]

/-- A text that cannot be read changes nothing, whatever is written. -/
theorem run_unreadable (h : m.Keyed) {text : String} (hunreadable : ¬ Readable text)
    (changes : List StoreChange) :
    m.run (.access text :: changes.map fun c => .change (slotOf text) c) = m := by
  have hd : m.at? (slotOf text) = none :=
    Option.not_isSome_iff_eq_none.mp fun hd => hunreadable (h.readable hd)
  rw [run_cons, after_access, (access?_eq_none h).mpr hunreadable]
  exact run_change_of_none hd changes

theorem store_asked (h : m.Keyed) (text : String) (changes : List StoreChange) (slot : Slot) :
    ((m.run (.access text :: changes.map fun c => .change (slotOf text) c)).at? slot).map
        Declaration.store =
      ManagerCall.heldAfterChanges slot ((m.at? slot).map Declaration.store) text changes := by
  rw [ManagerCall.heldAfterChanges]
  by_cases hreadable : Readable text
  · obtain ⟨found, haccess⟩ := Option.ne_none_iff_exists'.mp fun hnone =>
      (access?_eq_none h).mp hnone hreadable
    rw [run_cons, after_access, haccess, store_run_change, Option.map_some, Option.getD_some]
    -- in the slot of the text the changes follow what was found or made; elsewhere nothing happens
    by_cases hslot : slotOf text = slot
    · subst hslot
      rw [if_pos rfl, if_pos ⟨rfl, hreadable⟩, store_access?_self haccess, Option.map_some]
    · rw [if_neg (Ne.symm hslot), if_neg fun hboth => hslot hboth.1,
        at?_access?_of_ne haccess (Ne.symm hslot)]
  · rw [run_unreadable h hreadable, if_neg fun hboth => hreadable hboth.2]

/-- **One call.** What a slot holds after a call is told from what it held before. -/
theorem store_run_edits (h : m.Keyed) (call : ManagerCall) (slot : Slot) :
    ((m.run call.edits).at? slot).map Declaration.store =
      call.held slot ((m.at? slot).map Declaration.store) := by
  cases call with
  | style text changes => exact store_asked h text changes slot
  | tryStyle text changes => exact store_asked h text changes slot
  | removeStyle text =>
    show ((m.removeStyle text).2.at? slot).map Declaration.store = _
    rw [(removeStyle_spec m text).2, ManagerCall.held]
    split <;> rfl
  | clear => cases slot <;> rfl
  | lookUp text => rfl
  | invalidate => cases slot <;> rfl
  | markValid => cases slot <;> rfl
  | registerFont name font => cases slot <;> rfl
  | registerSkin name skin => cases slot <;> rfl

theorem store_run_calls (h : m.Keyed) (calls : List ManagerCall) (slot : Slot) :
    ((m.run (calls.flatMap ManagerCall.edits)).at? slot).map Declaration.store =
      calls.foldl (ManagerCall.held slot) ((m.at? slot).map Declaration.store) := by
  induction calls generalizing m with
  | nil => rfl
  | cons call calls ih =>
    rw [List.flatMap_cons, run_append, ih (h.run _), store_run_edits h, List.foldl_cons]

/-- **What a slot holds after a run of calls**: the store that the calls to the slot have built up. -/
theorem store_run (config : ManagerConfig) (calls : List ManagerCall) (slot : Slot) :
    (((new config).run (calls.flatMap ManagerCall.edits)).at? slot).map Declaration.store =
      calls.foldl (ManagerCall.held slot) none := by
  rw [store_run_calls (keyed_new config)]
  cases slot <;> rfl

/-! ## §7 Numbers -/

theorem nextOrder_le_after (m : StyleManager) (e : ManagerEdit) :
    m.nextOrder ≤ (m.after e).nextOrder := by
  cases e with
  | access text =>
    rw [after_access]
    cases haccess : m.access? text with
    | none => exact Nat.le_refl _
    | some found =>
      rcases access?_cases haccess with
        ⟨-, heq⟩ | ⟨-, -, heq⟩ | ⟨key, selector, -, -, -, heq⟩
      · rw [heq]
        exact Nat.le_refl _
      · rw [heq]
        exact Nat.le_refl _
      · -- a new declaration takes a number
        rw [heq]
        exact Nat.le_succ _
  | change slot c =>
    have hset (store : Store) : (m.setStore slot store).nextOrder = m.nextOrder := by
      cases slot <;> rfl
    show m.nextOrder ≤ (m.change slot c).nextOrder
    unfold change
    split
    · exact Nat.le_refl _
    · cases c with
      | edit e =>
        simp only
        split <;> exact Nat.le_of_eq (hset _).symm
      | unwatch => exact Nat.le_of_eq (hset _).symm
  | removeStyle text =>
    have hafter : m.after (.removeStyle text) = (m.removeStyle text).2 := rfl
    rw [hafter]
    rcases m.removeStyle_cases text with ⟨-, heq⟩ | ⟨-, -, heq⟩ | ⟨key, -, -, heq⟩ <;>
      rw [heq] <;>
      exact Nat.le_refl _
  | clear => exact Nat.le_refl _
  | invalidate => exact Nat.le_refl _
  | markValid => exact Nat.le_refl _
  | registerFont name font => exact Nat.le_refl _
  | registerSkin name skin => exact Nat.le_refl _

/-- The number of the next declaration never goes back. -/
theorem nextOrder_le_run (m : StyleManager) (edits : List ManagerEdit) :
    m.nextOrder ≤ (m.run edits).nextOrder := by
  induction edits generalizing m with
  | nil => exact Nat.le_refl _
  | cons e edits ih => exact Nat.le_trans (m.nextOrder_le_after e) (ih _)

end StyleManager

end StyledScene
