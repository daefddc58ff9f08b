import Mathlib.Data.List.InsertIdx
import StyledScene.Proofs.Cascade.Addressing
import StyledScene.Proofs.Cascade.Positions

/-!
# Keys and positions agree

The declarations of an indexed manager are those of the manager that keeps them under their keys, in the
same order, and its index leads every key to the position that the key has there (`Represents`). Every
call finds the two in agreement and leaves them so, and therefore no position is ever beyond the list.
Main statement: `Represents.run`.
-/

namespace StyledScene

open StyleManager (slotOf keyOf everywhereKey Readable slotOf_eq_everywhere slotOf_eq_keyed)

/-! ## §1 The two managers side by side -/

namespace IndexedManager

/-- The indexed manager has the declarations of the other one and the index that belongs to them. -/
structure Represents (m : IndexedManager) (s : StyleManager) : Prop where
  config_eq : m.config = s.config
  listed_eq : m.listed = s.listed
  everywhere_eq : m.everywhere = s.everywhere
  nextOrder_eq : m.nextOrder = s.nextOrder
  fonts_eq : m.fonts = s.fonts
  skins_eq : m.skins = s.skins
  valid_eq : m.valid = s.valid
  index_iff : ∀ key p,
    m.index.find? key = some p ↔ (Registry.names s.declarations)[p]? = some key
  index_nodup : (Registry.names m.index).Nodup

/-- The declaration in a slot of the one manager is kept at a place of the other. -/
inductive StandsAt (s : StyleManager) : Slot → Place → Prop where
  | everywhere : StandsAt s .everywhere .everywhere
  | position {key : String} {p : Nat} (hp : (Registry.names s.declarations)[p]? = some key) :
    StandsAt s (.keyed key) (.position p)

theorem represents_new (config : ManagerConfig) : (new config).Represents (.new config) where
  config_eq := rfl
  listed_eq := rfl
  everywhere_eq := rfl
  nextOrder_eq := rfl
  fonts_eq := rfl
  skins_eq := rfl
  valid_eq := rfl
  index_iff := by simp [new, StyleManager.new, Registry.names]
  index_nodup := List.nodup_nil

variable {m m' : IndexedManager} {s s' : StyleManager} {text key : String} {slot : Slot}
  {place : Place} {p : Nat}

theorem names_setStore (s : StyleManager) (slot : Slot) (store : Store) :
    Registry.names (s.setStore slot store).declarations = Registry.names s.declarations := by
  cases slot with
  | everywhere => rfl
  | keyed key => simp only [StyleManager.setStore, Registry.names_modify]

theorem length_names (s : StyleManager) :
    (Registry.names s.declarations).length = s.listed.length := by
  rw [Registry.names, StyleManager.listed, List.length_map, List.length_map]

namespace Represents

theorem lt_length (h : m.Represents s) (hp : (Registry.names s.declarations)[p]? = some key) :
    p < m.listed.length := by
  rw [h.listed_eq, ← length_names]
  exact (List.getElem?_eq_some_iff.mp hp).1

theorem find?_index_eq_none (h : m.Represents s) :
    m.index.find? key = none ↔ s.declarations.find? key = none := by
  rw [← Option.not_isSome_iff_eq_none, ← Option.not_isSome_iff_eq_none,
    Registry.isSome_find?_iff (r := s.declarations), List.mem_iff_getElem?,
    Option.isSome_iff_exists]
  exact not_congr (exists_congr fun p => h.index_iff key p)

theorem find?_eq_listed (h : m.Represents s) (ho : s.Orderly)
    (hp : (Registry.names s.declarations)[p]? = some key) :
    s.declarations.find? key = m.listed[p]? := by
  rw [Registry.find?_eq_getElem? ho.names_nodup hp, h.listed_eq, StyleManager.listed]

/-- Other stores or another validity disturb no index. -/
theorem of_names (h : m.Represents s)
    (hnames : Registry.names s'.declarations = Registry.names s.declarations)
    (hindex : m'.index = m.index) (hconfig : m'.config = s'.config)
    (hlisted : m'.listed = s'.listed) (heverywhere : m'.everywhere = s'.everywhere)
    (hnext : m'.nextOrder = s'.nextOrder) (hfonts : m'.fonts = s'.fonts)
    (hskins : m'.skins = s'.skins) (hvalid : m'.valid = s'.valid) : m'.Represents s' where
  config_eq := hconfig
  listed_eq := hlisted
  everywhere_eq := heverywhere
  nextOrder_eq := hnext
  fonts_eq := hfonts
  skins_eq := hskins
  valid_eq := hvalid
  index_iff key p := by
    rw [hindex, hnames]
    exact h.index_iff key p
  index_nodup := hindex ▸ h.index_nodup

theorem invalidate (h : m.Represents s) : m.invalidate.Represents s.invalidate :=
  h.of_names rfl rfl h.config_eq h.listed_eq h.everywhere_eq h.nextOrder_eq h.fonts_eq h.skins_eq rfl

/-! ## §2 Looking up -/

theorem declaration (h : m.Represents s) (ho : s.Orderly) (text : String) :
    m.declaration text = some (s.declaration? text) := by
  rw [StyleManager.declaration?]
  cases hslot : slotOf text with
  | everywhere =>
    rw [IndexedManager.declaration, if_pos (slotOf_eq_everywhere.mp hslot), h.everywhere_eq]
    rfl
  | keyed key =>
    obtain ⟨rfl, hne⟩ := slotOf_eq_keyed.mp hslot
    rw [m.declaration_keyed hne, StyleManager.at?]
    cases hfind : m.index.find? (keyOf text) with
    | none => rw [h.find?_index_eq_none.mp hfind]
    | some p =>
      have hp := (h.index_iff _ p).mp hfind
      show m.listed[p]?.map some = _
      rw [h.find?_eq_listed ho hp, List.getElem?_eq_getElem (h.lt_length hp), Option.map_some]

theorem store?_kept (h : m.Represents s) (ho : s.Orderly) (hat : StandsAt s slot place) :
    m.store? (.kept place) = (s.at? slot).map Declaration.store := by
  cases hat with
  | everywhere =>
    show m.everywhere.map _ = s.everywhere.map _
    rw [h.everywhere_eq]
  | @position key p hp =>
    show m.listed[p]?.map _ = (s.declarations.find? key).map _
    rw [h.find?_eq_listed ho hp]

/-! ## §3 Writing -/

theorem putStore (h : m.Represents s) (ho : s.Orderly) (hat : StandsAt s slot place)
    (store : Store) : (m.putStore (.kept place) store).Represents (s.setStore slot store) := by
  cases hat with
  | everywhere =>
    refine h.of_names (names_setStore ..) rfl h.config_eq h.listed_eq ?_ h.nextOrder_eq h.fonts_eq
      h.skins_eq h.valid_eq
    show m.everywhere.map _ = s.everywhere.map _
    rw [h.everywhere_eq]
  | @position key p hp =>
    refine h.of_names (names_setStore ..) rfl h.config_eq ?_ h.everywhere_eq h.nextOrder_eq
      h.fonts_eq h.skins_eq h.valid_eq
    -- changing at the position of a key is changing under the key
    simp only [IndexedManager.putStore, StyleManager.setStore, StyleManager.listed,
      Registry.map_modify ho.names_nodup hp, h.listed_eq]

theorem write (h : m.Represents s) (ho : s.Orderly) (hat : StandsAt s slot place) {d : Declaration}
    (hd : s.at? slot = some d) (c : StoreChange) :
    ∃ m', m.write (.kept place) c = some m' ∧ m'.Represents (s.change slot c) := by
  have hstore : m.store? (.kept place) = some d.store := by
    rw [h.store?_kept ho hat, hd]
    rfl
  unfold IndexedManager.write StyleManager.change
  rw [hstore, hd]
  cases c with
  | edit e =>
    refine ⟨_, rfl, ?_⟩
    have hput := h.putStore ho hat (d.store.edit e)
    simp only
    split
    · exact hput.invalidate
    · exact hput
  | unwatch => exact ⟨_, rfl, h.putStore ho hat d.store.unwatch⟩

end Represents

theorem names_change (s : StyleManager) (slot : Slot) (c : StoreChange) :
    Registry.names (s.change slot c).declarations = Registry.names s.declarations := by
  unfold StyleManager.change
  split
  · rfl
  · cases c with
    | edit e =>
      simp only
      split <;> exact names_setStore ..
    | unwatch => exact names_setStore ..

theorem StandsAt.change (hat : StandsAt s slot place) (c : StoreChange) :
    StandsAt (s.change slot c) slot place := by
  cases hat with
  | everywhere => exact .everywhere
  | position hp => exact .position (by rw [names_change]; exact hp)

namespace Represents

theorem writeAll (h : m.Represents s) (ho : s.Orderly) (hat : StandsAt s slot place)
    (hd : (s.at? slot).isSome = true) (changes : List StoreChange) :
    ∃ m', m.writeAll (.kept place) changes = some m' ∧
      m'.Represents (s.run (changes.map fun c => .change slot c)) := by
  induction changes generalizing m s with
  | nil => exact ⟨m, rfl, h⟩
  | cons c changes ih =>
    obtain ⟨d, hd⟩ := Option.isSome_iff_exists.mp hd
    obtain ⟨m₁, hwrite, h₁⟩ := h.write ho hat hd c
    -- the declaration stays where it is, so the same handle serves for the other changes
    have hd₁ : ((s.change slot c).at? slot).isSome = true := by
      rw [StyleManager.at?_change, if_pos rfl, hd]
      rfl
    obtain ⟨m', hrest, h'⟩ := ih h₁ (ho.change slot c) (hat.change c) hd₁
    refine ⟨m', ?_, h'⟩
    show ((m.write (.kept place) c).bind fun current => current.writeAll (.kept place) changes) = _
    rw [hwrite]
    exact hrest

/-! ## §4 Asking -/

/-- A declaration that is there is found, and nothing else happens. -/
theorem ask_found (h : m.Represents s) (hd : (s.at? (slotOf text)).isSome = true) :
    ∃ place, m.ensure text = (some place, m) ∧ m.goTo place = some m ∧
      StandsAt s (slotOf text) place := by
  cases hslot : slotOf text with
  | everywhere =>
    rw [hslot] at hd
    refine ⟨.everywhere, by rw [ensure, if_pos (slotOf_eq_everywhere.mp hslot)], ?_, .everywhere⟩
    obtain ⟨d, hd⟩ := Option.isSome_iff_exists.mp hd
    have hsome : m.everywhere = some d := h.everywhere_eq.trans hd
    simp only [goTo, hsome]
  | keyed key =>
    obtain ⟨rfl, hne⟩ := slotOf_eq_keyed.mp hslot
    rw [hslot] at hd
    cases hfind : m.index.find? (keyOf text) with
    | none =>
      have hnone : s.at? (.keyed (keyOf text)) = none := h.find?_index_eq_none.mp hfind
      rw [hnone] at hd
      cases hd
    | some p =>
      have hp := (h.index_iff _ p).mp hfind
      refine ⟨.position p, by rw [m.ensure_keyed hne, hfind], ?_, .position hp⟩
      rw [goTo, if_pos (h.lt_length hp)]

theorem ask_everywhere (h : m.Represents s) (hslot : slotOf text = .everywhere)
    (hnone : s.everywhere = none) :
    ∃ m', m.ensure text = (some .everywhere, m) ∧ m.goTo .everywhere = some m' ∧
      m'.Represents { s with everywhere := some (Declaration.new Selector.universal 0 true) } := by
  refine ⟨{ m with everywhere := some (Declaration.new Selector.universal 0 true) }, ?_, ?_, ?_⟩
  · rw [ensure, if_pos (slotOf_eq_everywhere.mp hslot)]
  · have hnone' : m.everywhere = none := h.everywhere_eq.trans hnone
    simp only [goTo, hnone']
  · exact h.of_names rfl rfl h.config_eq h.listed_eq rfl h.nextOrder_eq h.fonts_eq h.skins_eq
      h.valid_eq

theorem push (h : m.Represents s) (hnone : s.declarations.find? key = none) (selector : Selector) :
    (m.push key selector).Represents (s.append key selector) := by
  have hnew : key ∉ Registry.names s.declarations := by
    rw [← Registry.isSome_find?_iff, hnone]
    exact Bool.false_ne_true
  have hdeclarations : (s.append key selector).declarations =
      s.declarations ++ [(key, Declaration.new selector s.nextOrder true)] :=
    Registry.insert_of_not_mem hnew _
  constructor
  · exact h.config_eq
  · rw [StyleManager.listed, hdeclarations, List.map_append, ← StyleManager.listed, ← h.listed_eq,
      ← h.nextOrder_eq]
    rfl
  · exact h.everywhere_eq
  · exact congrArg (· + 1) h.nextOrder_eq
  · exact h.fonts_eq
  · exact h.skins_eq
  · exact h.valid_eq
  · intro name p
    have hlength : m.listed.length = (Registry.names s.declarations).length := by
      rw [h.listed_eq, length_names]
    show Registry.find? (Registry.insert m.index key m.listed.length) name = some p ↔ _
    rw [Registry.find?_insert, hdeclarations, Registry.names, List.map_append, ← Registry.names,
      List.map_singleton, hlength]
    by_cases hname : name = key
    · -- the new key stands at the end and nowhere else
      subst hname
      rw [if_pos rfl, Option.some.injEq]
      constructor
      · rintro rfl
        rw [List.getElem?_concat_length]
      · intro hp
        have hlt := (List.getElem?_eq_some_iff.mp hp).1
        rw [List.length_append, List.length_singleton] at hlt
        refine Decidable.byContradiction fun hne => ?_
        rw [List.getElem?_append_left (by omega)] at hp
        exact hnew (List.mem_of_getElem? hp)
    · rw [if_neg hname, h.index_iff, List.getElem?_append]
      split
      · rfl
      · rename_i hlt
        rw [List.getElem?_eq_none (by omega)]
        refine iff_of_false (by simp) fun hp => ?_
        have hmem := List.mem_of_getElem? hp
        exact hname (List.mem_singleton.mp hmem)
  · exact Registry.nodup_names_insert h.index_nodup _ _

theorem ask_keyed (h : m.Represents s) (hslot : slotOf text = .keyed key)
    (hnone : s.declarations.find? key = none) {selector : Selector}
    (hparse : Selector.parse? key = some selector) :
    m.ensure text = (some (.position m.listed.length), m.push key selector) ∧
      (m.push key selector).goTo (.position m.listed.length) = some (m.push key selector) ∧
      StandsAt (s.append key selector) (.keyed key) (.position m.listed.length) := by
  obtain ⟨rfl, hne⟩ := slotOf_eq_keyed.mp hslot
  have hpush := h.push hnone selector
  have hp : (Registry.names (s.append (keyOf text) selector).declarations)[m.listed.length]? =
      some (keyOf text) := by
    rw [← hpush.index_iff]
    show Registry.find? (Registry.insert m.index (keyOf text) m.listed.length) (keyOf text) = _
    rw [Registry.find?_insert, if_pos rfl]
  refine ⟨?_, ?_, .position hp⟩
  · rw [m.ensure_keyed hne, h.find?_index_eq_none.mpr hnone, hparse]
  · rw [goTo, if_pos (hpush.lt_length hp)]

theorem ask_unreadable (h : m.Represents s) (hk : s.Keyed) (hunreadable : ¬ Readable text) :
    m.ensure text = (none, m) := by
  have hne : keyOf text ≠ everywhereKey := fun heq => hunreadable (Or.inl heq)
  have hslot : slotOf text = .keyed (keyOf text) := slotOf_eq_keyed.mpr ⟨rfl, hne⟩
  have hparse : Selector.parse? (keyOf text) = none :=
    Option.not_isSome_iff_eq_none.mp fun hsome => hunreadable (Or.inr hsome)
  have hnone : s.declarations.find? (keyOf text) = none := by
    refine Option.not_isSome_iff_eq_none.mp fun hsome => hunreadable (hk.readable ?_)
    rw [hslot]
    exact hsome
  rw [m.ensure_keyed hne, h.find?_index_eq_none.mpr hnone, hparse]

/-- A text that can be read leads both managers to the same declaration. -/
theorem ask_readable (h : m.Represents s) (hreadable : Readable text) :
    ∃ place m₁ m' s', m.ensure text = (some place, m₁) ∧ m₁.goTo place = some m' ∧
      s.access? text = some (slotOf text, s') ∧ m'.Represents s' ∧
      StandsAt s' (slotOf text) place := by
  cases hd : s.at? (slotOf text) with
  | some d =>
    have hsome : (s.at? (slotOf text)).isSome = true := by rw [hd]; rfl
    obtain ⟨place, hensure, hgo, hat⟩ := h.ask_found hsome
    exact ⟨place, m, m, s, hensure, hgo, StyleManager.access?_of_isSome hsome, h, hat⟩
  | none =>
    cases hslot : slotOf text with
    | everywhere =>
      rw [hslot] at hd
      obtain ⟨m', hensure, hgo, h'⟩ := h.ask_everywhere hslot hd
      exact ⟨_, m, m', _, hensure, hgo, StyleManager.access?_everywhere hslot hd, h', .everywhere⟩
    | keyed key =>
      rw [hslot] at hd
      obtain ⟨hkey, hne⟩ := slotOf_eq_keyed.mp hslot
      have hsome : (Selector.parse? key).isSome = true := by
        rcases hreadable with heverywhere | hsome
        · exact absurd (hkey ▸ heverywhere) hne
        · exact hkey ▸ hsome
      obtain ⟨selector, hparse⟩ := Option.isSome_iff_exists.mp hsome
      obtain ⟨hensure, hgo, hat⟩ := h.ask_keyed hslot hd hparse
      refine ⟨_, _, _, _, hensure, hgo, ?_, h.push hd selector, hat⟩
      rw [StyleManager.access?_keyed hslot hd, hparse]
      rfl

/-- The answers of the two managers to somebody who asks for a store. -/
inductive SameAnswer (s : StyleManager) : Except StyleError Handle × IndexedManager →
    Except StyleError (StyleManager.Target × StyleManager) → Prop where
  /-- The same declaration, wherever it is kept. -/
  | declared {m' : IndexedManager} {s' : StyleManager} {slot : Slot} {place : Place}
    (h' : m'.Represents s') (hat : StandsAt s' slot place) :
    SameAnswer s (.ok (.kept place), m') (.ok (.declared slot, s'))
  /-- A store that no node reads, without values. -/
  | scratch {m' : IndexedManager} (h' : m'.Represents s) (hempty : m'.scratch = Store.new false) :
    SameAnswer s (.ok .scratch, m') (.ok (.scratch, s))
  /-- The same refusal. -/
  | refused {m' : IndexedManager} {e : StyleError} (h' : m'.Represents s) :
    SameAnswer s (.error e, m') (.error e)

/-- The scratch store belongs to no declaration. -/
theorem with_scratch (h : m.Represents s) (store : Store) :
    Represents { m with scratch := store } s :=
  h.of_names rfl rfl h.config_eq h.listed_eq h.everywhere_eq h.nextOrder_eq h.fonts_eq h.skins_eq
    h.valid_eq

theorem style_kept {m₁ : IndexedManager} (hensure : m.ensure text = (some place, m₁))
    (hgo : m₁.goTo place = some m') : m.style text = some (.ok (.kept place), m') := by
  simp only [IndexedManager.style, hensure, hgo, Option.map_some]

theorem tryStyle_kept {m₁ : IndexedManager} (hensure : m.ensure text = (some place, m₁))
    (hgo : m₁.goTo place = some m') : m.tryStyle text = some (.ok (.kept place), m') := by
  simp only [IndexedManager.tryStyle, hensure, hgo, Option.map_some]

/-- Only the scratch store makes a difference for whoever has no selector. -/
theorem style_unreadable (h : m.Represents s) (hk : s.Keyed) (hunreadable : ¬ Readable text) :
    m.style text =
      if m.config.assertOnInvalid then some (.error (.assertionFailed text), m)
      else some (.ok .scratch, { m with scratch := Store.new false }) := by
  simp only [IndexedManager.style, h.ask_unreadable hk hunreadable]

theorem tryStyle_unreadable (h : m.Represents s) (hk : s.Keyed) (hunreadable : ¬ Readable text) :
    m.tryStyle text = some (.error (.invalidSelector text), m) := by
  simp only [IndexedManager.tryStyle, h.ask_unreadable hk hunreadable]

theorem style (h : m.Represents s) (hk : s.Keyed) (text : String) :
    ∃ answer, m.style text = some answer ∧ SameAnswer s answer (s.access text) := by
  by_cases hreadable : Readable text
  · obtain ⟨place, m₁, m', s', hensure, hgo, haccess, h', hat⟩ := h.ask_readable hreadable
    refine ⟨_, style_kept hensure hgo, ?_⟩
    rw [StyleManager.access_of_some haccess]
    exact .declared h' hat
  · rw [h.style_unreadable hk hreadable]
    rw [StyleManager.access_of_none ((StyleManager.access?_eq_none hk).mpr hreadable), ← h.config_eq]
    split
    · exact ⟨_, rfl, .refused h⟩
    · exact ⟨_, rfl, .scratch (h.with_scratch _) rfl⟩

theorem tryStyle (h : m.Represents s) (hk : s.Keyed) (text : String) :
    ∃ answer, m.tryStyle text = some answer ∧
      SameAnswer s answer ((s.tryAccess text).map fun found => (.declared found.1, found.2)) := by
  by_cases hreadable : Readable text
  · obtain ⟨place, m₁, m', s', hensure, hgo, haccess, h', hat⟩ := h.ask_readable hreadable
    refine ⟨_, tryStyle_kept hensure hgo, ?_⟩
    rw [StyleManager.tryAccess_of_some haccess]
    simp only [Except.map]
    exact .declared h' hat
  · refine ⟨_, h.tryStyle_unreadable hk hreadable, ?_⟩
    rw [StyleManager.tryAccess_of_none ((StyleManager.access?_eq_none hk).mpr hreadable), Except.map]
    exact .refused h

/-! ## §5 Removing -/

/-- Closing the gap in the index corrects every position that the removal shifts. -/
theorem erase (h : m.Represents s) (ho : s.Orderly)
    (hp : (Registry.names s.declarations)[p]? = some key) :
    Represents
      { m with
        index := Registry.closeGap (Registry.erase m.index key) p
        listed := m.listed.eraseIdx p }.invalidate
      { s with declarations := Registry.erase s.declarations key }.invalidate where
  config_eq := h.config_eq
  listed_eq := by
    show m.listed.eraseIdx p = (Registry.erase s.declarations key).map Prod.snd
    rw [Registry.erase_eq_eraseIdx ho.names_nodup hp, h.listed_eq, StyleManager.listed,
      List.eraseIdx_map]
  everywhere_eq := h.everywhere_eq
  nextOrder_eq := h.nextOrder_eq
  fonts_eq := h.fonts_eq
  skins_eq := h.skins_eq
  valid_eq := rfl
  index_iff name q := by
    have hnames : Registry.names (Registry.erase s.declarations key) =
        (Registry.names s.declarations).eraseIdx p := by
      rw [Registry.erase_eq_eraseIdx ho.names_nodup hp, Registry.names, Registry.names,
        List.eraseIdx_map]
    show Registry.find? (Registry.closeGap (Registry.erase m.index key) p) name = some q ↔
      (Registry.names (Registry.erase s.declarations key))[q]? = some name
    rw [hnames]
    exact Registry.find?_erase_closeGap ho.names_nodup h.index_iff hp name q
  index_nodup := by
    show (Registry.names (Registry.closeGap (Registry.erase m.index key) p)).Nodup
    rw [Registry.names_closeGap]
    exact Registry.nodup_names_erase h.index_nodup key

theorem removeStyle (h : m.Represents s) (ho : s.Orderly) (text : String) :
    ∃ m', m.removeStyle text = some ((s.removeStyle text).1, m') ∧
      m'.Represents (s.removeStyle text).2 := by
  cases hslot : slotOf text with
  | everywhere =>
    have hkey := slotOf_eq_everywhere.mp hslot
    cases hd : s.everywhere with
    | none =>
      have hnone : m.everywhere = none := h.everywhere_eq.trans hd
      have hat : s.at? (slotOf text) = none := by rw [hslot]; exact hd
      rw [StyleManager.removeStyle_of_none hat]
      refine ⟨m, ?_, h⟩
      rw [m.removeStyle_everywhere hkey, hnone]
      rfl
    | some d =>
      have hsome : m.everywhere = some d := h.everywhere_eq.trans hd
      rw [StyleManager.removeStyle_everywhere hslot hd]
      refine ⟨{ m with everywhere := none }.invalidate, ?_, ?_⟩
      · rw [m.removeStyle_everywhere hkey, hsome]
        rfl
      · exact h.of_names rfl rfl h.config_eq h.listed_eq rfl h.nextOrder_eq h.fonts_eq h.skins_eq rfl
  | keyed key =>
    obtain ⟨rfl, hne⟩ := slotOf_eq_keyed.mp hslot
    cases hfind : m.index.find? (keyOf text) with
    | none =>
      have hat : s.at? (slotOf text) = none := by
        rw [hslot]
        exact h.find?_index_eq_none.mp hfind
      rw [StyleManager.removeStyle_of_none hat]
      exact ⟨m, by rw [m.removeStyle_keyed hne, hfind], h⟩
    | some p =>
      have hp := (h.index_iff _ p).mp hfind
      have hlt := h.lt_length hp
      have hd : s.declarations.find? (keyOf text) = some m.listed[p] := by
        rw [h.find?_eq_listed ho hp, List.getElem?_eq_getElem hlt]
      rw [StyleManager.removeStyle_keyed hslot hd]
      refine ⟨_, ?_, h.erase ho hp⟩
      rw [m.removeStyle_keyed hne, hfind]
      exact if_pos hlt

theorem clear (h : m.Represents s) : m.clear.Represents s.clear where
  config_eq := h.config_eq
  listed_eq := rfl
  everywhere_eq := rfl
  nextOrder_eq := h.nextOrder_eq
  fonts_eq := h.fonts_eq
  skins_eq := h.skins_eq
  valid_eq := rfl
  index_iff key p := by simp [IndexedManager.clear, StyleManager.clear, IndexedManager.invalidate,
    StyleManager.invalidate, Registry.names]
  index_nodup := List.nodup_nil

/-! ## §6 Calls -/

/-- Nobody hears of what is written to the scratch store. -/
theorem writeAll_scratch (h : m.Represents s) (hquiet : m.scratch.watched = false)
    (changes : List StoreChange) :
    ∃ m', m.writeAll .scratch changes = some m' ∧ m'.Represents s := by
  induction changes generalizing m with
  | nil => exact ⟨m, rfl, h⟩
  | cons c changes ih =>
    have hwrite : ∃ store, store.watched = false ∧
        m.write .scratch c = some { m with scratch := store } := by
      cases c with
      | edit e =>
        have hreports : m.scratch.reports e = false := by rw [Store.reports, hquiet]; rfl
        refine ⟨m.scratch.edit e, hquiet, ?_⟩
        simp [IndexedManager.write, IndexedManager.store?, IndexedManager.putStore, hreports]
      | unwatch => exact ⟨m.scratch.unwatch, rfl, rfl⟩
    obtain ⟨store, hstill, hwrite⟩ := hwrite
    obtain ⟨m', hrest, h'⟩ := ih (h.with_scratch store) hstill
    refine ⟨m', ?_, h'⟩
    show ((m.write .scratch c).bind fun current => current.writeAll .scratch changes) = _
    rw [hwrite]
    exact hrest

/-- A text that can be read: the same changes in the same store. -/
theorem written (h : m.Represents s) (ho : s.Orderly) (hreadable : Readable text)
    (changes : List StoreChange) :
    ∃ place m₁ m', m.style text = some (.ok (.kept place), m₁) ∧
      m.tryStyle text = some (.ok (.kept place), m₁) ∧
      m₁.writeAll (.kept place) changes = some m' ∧
      m'.Represents (s.run (.access text :: changes.map fun c => .change (slotOf text) c)) := by
  obtain ⟨place, m₀, m₁, s', hensure, hgo, haccess, h₁, hat⟩ := h.ask_readable hreadable
  have hd : (s'.at? (slotOf text)).isSome = true := by
    rw [← Option.isSome_map, StyleManager.store_access?_self haccess]
    rfl
  obtain ⟨m', hwrite, h'⟩ := h₁.writeAll (ho.access? haccess) hat hd changes
  refine ⟨place, m₁, m', style_kept hensure hgo, tryStyle_kept hensure hgo, hwrite, ?_⟩
  rw [StyleManager.run_cons, StyleManager.after_access, haccess]
  exact h'

/-- **One call.** An indexed manager that has the declarations of another one follows no position beyond
its list, and has the declarations of the other one again after the same edits. -/
theorem after (h : m.Represents s) (ho : s.Orderly) (hk : s.Keyed) (call : ManagerCall) :
    ∃ m', m.after call = some m' ∧ m'.Represents (s.run call.edits) := by
  cases call with
  | style text changes =>
    show ∃ m', (m.style text).bind (IndexedManager.writeTo changes) = some m' ∧ _
    by_cases hreadable : Readable text
    · obtain ⟨place, m₁, m', hstyle, -, hwrite, h'⟩ := h.written ho hreadable changes
      rw [hstyle]
      exact ⟨m', hwrite, h'⟩
    · rw [ManagerCall.edits, StyleManager.run_unreadable hk hreadable,
        h.style_unreadable hk hreadable]
      split
      · exact ⟨m, rfl, h⟩
      · exact (h.with_scratch (Store.new false)).writeAll_scratch rfl changes
  | tryStyle text changes =>
    show ∃ m', (m.tryStyle text).bind (IndexedManager.writeTo changes) = some m' ∧ _
    by_cases hreadable : Readable text
    · obtain ⟨place, m₁, m', -, hstyle, hwrite, h'⟩ := h.written ho hreadable changes
      rw [hstyle]
      exact ⟨m', hwrite, h'⟩
    · rw [ManagerCall.edits, StyleManager.run_unreadable hk hreadable,
        h.tryStyle_unreadable hk hreadable]
      exact ⟨m, rfl, h⟩
  | lookUp text =>
    refine ⟨m, ?_, h⟩
    rw [IndexedManager.after, h.declaration ho text]
    rfl
  | removeStyle text =>
    obtain ⟨m', hremove, h'⟩ := h.removeStyle ho text
    refine ⟨m', ?_, h'⟩
    rw [IndexedManager.after, hremove]
    rfl
  | clear => exact ⟨_, rfl, h.clear⟩
  | invalidate => exact ⟨_, rfl, h.invalidate⟩
  | markValid =>
    exact ⟨_, rfl, h.of_names rfl rfl h.config_eq h.listed_eq h.everywhere_eq h.nextOrder_eq
      h.fonts_eq h.skins_eq rfl⟩
  | registerFont name font =>
    refine ⟨_, rfl, h.of_names rfl rfl h.config_eq h.listed_eq h.everywhere_eq h.nextOrder_eq ?_
      h.skins_eq h.valid_eq⟩
    exact congrArg (Registry.insert · (Text.lowercase name) font) h.fonts_eq
  | registerSkin name skin =>
    refine ⟨_, rfl, h.of_names rfl rfl h.config_eq h.listed_eq h.everywhere_eq h.nextOrder_eq
      h.fonts_eq ?_ h.valid_eq⟩
    exact congrArg (Registry.insert · (Text.lowercase name) skin) h.skins_eq

/-- **Every run of calls.** No call follows a position beyond the list. -/
theorem run (h : m.Represents s) (ho : s.Orderly) (hk : s.Keyed) (calls : List ManagerCall) :
    ∃ m', m.run calls = some m' ∧
      m'.Represents (s.run (calls.flatMap ManagerCall.edits)) := by
  induction calls generalizing m s with
  | nil => exact ⟨m, rfl, h⟩
  | cons call calls ih =>
    obtain ⟨m₁, hcall, h₁⟩ := h.after ho hk call
    obtain ⟨m', hrest, h'⟩ := ih h₁ (ho.run _) (hk.run _)
    refine ⟨m', ?_, ?_⟩
    · show ((m.after call).bind fun current => current.run calls) = _
      rw [hcall]
      exact hrest
    · rw [List.flatMap_cons, StyleManager.run_append]
      exact h'

end Represents

end IndexedManager

end StyledScene
