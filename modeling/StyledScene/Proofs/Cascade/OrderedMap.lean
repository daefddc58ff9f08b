import StyledScene.Proofs.Cascade.Agreement

/-!
# An indexed manager is an ordered map

Whatever authors did to it, an indexed manager is an ordered map from keys to declarations. Its index is
one to one onto the positions of the list (`IsIndexed`), every text reaches the store that the calls to
its own slot have built up and no other (`Serves`), and the answers are those of the manager that keeps
its declarations under their keys (`Mirrors`). Main statement: `indexed_run`.
-/

namespace StyledScene

open StyleManager (slotOf keyOf everywhereKey Readable slotOf_eq_everywhere slotOf_eq_keyed)

namespace IndexedManager

/-! ## §1 What it means -/

/-- The index leads one to one from keys to positions, and the list is in the order of creation. -/
structure IsIndexed (m : IndexedManager) : Prop where
  keys_nodup : (Registry.names m.index).Nodup
  /-- A key is the small form of some text and does not stand for every node. -/
  isKey : ∀ key ∈ Registry.names m.index, key ≠ everywhereKey ∧ ∃ text, key = keyOf text
  lt_length : ∀ key p, m.index.find? key = some p → p < m.listed.length
  injective : ∀ key other p,
    m.index.find? key = some p → m.index.find? other = some p → key = other
  onto : ∀ p < m.listed.length, ∃ key, m.index.find? key = some p
  /-- The declaration at the position of a key has the selector that the key spells. -/
  selector : ∀ key p d,
    m.index.find? key = some p → m.listed[p]? = some d → Selector.parse? key = some d.selector
  weight_eq : ∀ d ∈ m.listed, d.weight = d.selector.weight
  orders_ascend : m.listed.Pairwise fun d e => d.order < e.order
  /-- The next declaration comes after all others. -/
  orders_lt : ∀ d ∈ m.listed, d.order < m.nextOrder

/-- What the calls with a text do, told from the stores that the slots hold. -/
structure Serves (m : IndexedManager) (held : Slot → Option Store) (text : String) : Prop where
  /-- Looking up finds the store in the slot of the text. -/
  declaration : ∃ found, m.declaration text = some found ∧
    found.map Declaration.store = held (slotOf text)
  /-- Asking for a store that is there gives it, and nothing changes. -/
  found : (held (slotOf text)).isSome = true →
    ∃ place, m.style text = some (.ok (.kept place), m) ∧
      m.tryStyle text = some (.ok (.kept place), m) ∧
      m.store? (.kept place) = held (slotOf text)
  /-- Asking for a store that is not there makes an empty one; other texts find what they found. -/
  created : Readable text → held (slotOf text) = none →
    ∃ place m', m.style text = some (.ok (.kept place), m') ∧
      m.tryStyle text = some (.ok (.kept place), m') ∧
      m'.store? (.kept place) = some (Store.new true) ∧
      m'.valid = m.valid ∧
      m'.declarationCount = m.declarationCount + 1 ∧
      ∀ other, slotOf other ≠ slotOf text → m'.declaration other = m.declaration other
  /-- A new declaration other than the one for every node goes to the end, with the next number. -/
  created_last : keyOf text ≠ everywhereKey → held (slotOf text) = none →
    ∀ selector, Selector.parse? (keyOf text) = some selector →
      ∃ place m', m.style text = some (.ok (.kept place), m') ∧
        m'.listed = m.listed ++ [Declaration.new selector m.nextOrder true] ∧
        m'.nextOrder = m.nextOrder + 1
  /-- A text that cannot be read changes nothing but the scratch store, which nobody reads. -/
  unreadable : ¬ Readable text →
    m.tryStyle text = some (.error (.invalidSelector text), m) ∧
      m.style text =
        if m.config.assertOnInvalid then some (.error (.assertionFailed text), m)
        else some (.ok .scratch, { m with scratch := Store.new false })
  /-- Removing says whether there was a store, takes this one declaration away, and other texts find
  what they found. -/
  removed : ∃ m', m.removeStyle text = some ((held (slotOf text)).isSome, m') ∧
    m'.declarationCount + (if (held (slotOf text)).isSome then 1 else 0) = m.declarationCount ∧
    ∀ other, m'.declaration other =
      if slotOf text = slotOf other then some none else m.declaration other

/-- The calls with a text answer what the other manager answers. -/
structure Mirrors (m : IndexedManager) (s : StyleManager) (text : String) : Prop where
  declaration : m.declaration text = some (s.declaration? text)
  style : ∃ answer, m.style text = some answer ∧ Represents.SameAnswer s answer (s.access text)
  tryStyle : ∃ answer, m.tryStyle text = some answer ∧
    Represents.SameAnswer s answer
      ((s.tryAccess text).map fun found => (.declared found.1, found.2))
  removeStyle : ∃ m', m.removeStyle text = some ((s.removeStyle text).1, m') ∧
    m'.Represents (s.removeStyle text).2

end IndexedManager

/-! ## §2 Counting -/

namespace StyleManager

variable {m m' : StyleManager} {text : String} {slot : Slot}

theorem declarationCount_access? (haccess : m.access? text = some (slot, m'))
    (hnone : m.at? (slotOf text) = none) : m'.declarationCount = m.declarationCount + 1 := by
  rcases access?_cases haccess with
    ⟨hsome, -⟩ | ⟨-, heverywhere, heq⟩ | ⟨key, selector, -, hnew, -, heq⟩
  · rw [hnone] at hsome
    cases hsome
  · rw [(Prod.mk.inj heq).2, declarationCount, declarationCount, heverywhere]
    rfl
  · rw [(Prod.mk.inj heq).2, declarationCount, declarationCount, append,
      Registry.length_insert hnew, Nat.add_right_comm]

theorem declarationCount_removeStyle (ho : m.Orderly) (text : String) :
    (m.removeStyle text).2.declarationCount + (if (m.at? (slotOf text)).isSome then 1 else 0) =
      m.declarationCount := by
  rcases m.removeStyle_cases text with ⟨hnone, heq⟩ | ⟨hslot, hsome, heq⟩ | ⟨key, hslot, hsome, heq⟩
  · rw [heq, hnone]
    rfl
  · have hat : (m.at? (slotOf text)).isSome = true := by rw [hslot]; exact hsome
    rw [heq, if_pos hat, declarationCount, declarationCount, if_pos hsome]
    rfl
  · have hat : (m.at? (slotOf text)).isSome = true := by rw [hslot]; exact hsome
    rw [heq, if_pos hat, declarationCount, declarationCount,
      ← Registry.length_erase ho.names_nodup hsome, Nat.add_right_comm]
    rfl

end StyleManager

namespace IndexedManager

/-! ## §3 From the manager that keeps declarations under their keys -/

namespace Represents

variable {m : IndexedManager} {s : StyleManager}

theorem mem_names_index (h : m.Represents s) {key : String} :
    key ∈ Registry.names m.index ↔ key ∈ Registry.names s.declarations := by
  rw [← Registry.isSome_find?_iff, ← Registry.isSome_find?_iff, ← not_iff_not,
    Option.not_isSome_iff_eq_none, Option.not_isSome_iff_eq_none]
  exact h.find?_index_eq_none

theorem isIndexed (h : m.Represents s) (ho : s.Orderly) (hk : s.Keyed) : m.IsIndexed where
  keys_nodup := h.index_nodup
  isKey key hkey := hk.isKey key (h.mem_names_index.mp hkey)
  lt_length key p hp := h.lt_length ((h.index_iff key p).mp hp)
  injective key other p hkey hother := by
    have hkey := (h.index_iff key p).mp hkey
    exact Option.some.inj (hkey.symm.trans ((h.index_iff other p).mp hother))
  onto p hp := by
    rw [h.listed_eq, ← length_names] at hp
    exact ⟨_, (h.index_iff _ p).mpr (List.getElem?_eq_getElem hp)⟩
  selector key p d hp hd := by
    have hfind : s.declarations.find? key = some d :=
      (h.find?_eq_listed ho ((h.index_iff key p).mp hp)).trans hd
    exact hk.selector key d (Registry.mem_of_find? hfind)
  weight_eq d hd := ho.weight_eq d (h.listed_eq ▸ hd)
  orders_ascend := h.listed_eq ▸ ho.orders_ascend
  orders_lt d hd := h.nextOrder_eq ▸ ho.orders_lt d (h.listed_eq ▸ hd)

theorem declarationCount_eq (h : m.Represents s) : m.declarationCount = s.declarationCount := by
  rw [declarationCount, StyleManager.declarationCount, h.listed_eq, h.everywhere_eq,
    StyleManager.listed, List.length_map]

theorem mirrors (h : m.Represents s) (ho : s.Orderly) (hk : s.Keyed) (text : String) :
    m.Mirrors s text where
  declaration := h.declaration ho text
  style := h.style hk text
  tryStyle := h.tryStyle hk text
  removeStyle := h.removeStyle ho text

/-- Making a declaration changes no other one and no validity. -/
theorem created (h : m.Represents s) (ho : s.Orderly) {text : String} (hreadable : Readable text)
    (hnone : (s.at? (slotOf text)).map Declaration.store = none) :
    ∃ place m', m.style text = some (.ok (.kept place), m') ∧
      m.tryStyle text = some (.ok (.kept place), m') ∧
      m'.store? (.kept place) = some (Store.new true) ∧
      m'.valid = m.valid ∧
      m'.declarationCount = m.declarationCount + 1 ∧
      ∀ other, slotOf other ≠ slotOf text → m'.declaration other = m.declaration other := by
  obtain ⟨place, m₁, m', s', hensure, hgo, haccess, h', hat⟩ := h.ask_readable hreadable
  have ho' := ho.access? haccess
  -- what is said of the places and the list is read off the slots of the other manager
  refine ⟨place, m', style_kept hensure hgo, tryStyle_kept hensure hgo, ?_, ?_, ?_, ?_⟩
  · rw [h'.store?_kept ho' hat, StyleManager.store_access?_self haccess, hnone]
    rfl
  · rw [h'.valid_eq, h.valid_eq]
    exact StyleManager.valid_access? haccess
  · rw [h'.declarationCount_eq, h.declarationCount_eq]
    exact StyleManager.declarationCount_access? haccess (Option.map_eq_none_iff.mp hnone)
  · intro other hother
    rw [h'.declaration ho', h.declaration ho]
    exact congrArg some (StyleManager.at?_access?_of_ne haccess hother)

/-- What the slots of the other manager hold decides what the calls do. -/
theorem serves (h : m.Represents s) (ho : s.Orderly) (hk : s.Keyed) {held : Slot → Option Store}
    (hheld : ∀ slot, (s.at? slot).map Declaration.store = held slot) (text : String) :
    m.Serves held text where
  declaration := ⟨s.declaration? text, h.declaration ho text, hheld _⟩
  found hsome := by
    rw [← hheld, Option.isSome_map] at hsome
    obtain ⟨place, hensure, hgo, hat⟩ := h.ask_found hsome
    refine ⟨place, style_kept hensure hgo, tryStyle_kept hensure hgo, ?_⟩
    rw [h.store?_kept ho hat, hheld]
  created hreadable hnone := h.created ho hreadable ((hheld _).trans hnone)
  created_last hne hnone selector hparse := by
    have hslot : slotOf text = .keyed (keyOf text) := slotOf_eq_keyed.mpr ⟨rfl, hne⟩
    rw [← hheld, hslot, Option.map_eq_none_iff] at hnone
    obtain ⟨hensure, hgo, -⟩ := h.ask_keyed hslot hnone hparse
    exact ⟨_, _, style_kept hensure hgo, rfl, rfl⟩
  unreadable hunreadable :=
    ⟨h.tryStyle_unreadable hk hunreadable, h.style_unreadable hk hunreadable⟩
  removed := by
    obtain ⟨hanswer, hothers⟩ := StyleManager.removeStyle_spec s text
    obtain ⟨m', hremove, h'⟩ := h.removeStyle ho text
    have hsome : (s.at? (slotOf text)).isSome = (held (slotOf text)).isSome := by
      rw [← hheld, Option.isSome_map]
    rw [hanswer, hsome] at hremove
    refine ⟨m', hremove, ?_, fun other => ?_⟩
    · rw [h'.declarationCount_eq, h.declarationCount_eq, ← hsome]
      exact StyleManager.declarationCount_removeStyle ho text
    · rw [h'.declaration (ho.removeStyle text), h.declaration ho, StyleManager.declaration?, hothers]
      split <;> rfl

end Represents

/-! ## §4 Every run -/

/-- **Every indexed manager is an ordered map.** No call follows a position beyond the list, and after
any run of calls the index is one to one onto the positions, every text is served from the store that
the calls to its slot have built up, the answers are those of the manager that keeps its declarations
under their keys, and the next declaration gets a larger number than every declaration that was there
at any time before. -/
theorem indexed_run (config : ManagerConfig) (calls : List ManagerCall) :
    ∃ m, (new config).run calls = some m ∧
      m.Represents ((StyleManager.new config).run (calls.flatMap ManagerCall.edits)) ∧
      m.IsIndexed ∧
      (∀ text, m.Serves (fun slot => calls.foldl (ManagerCall.held slot) none) text) ∧
      (∀ text, m.Mirrors
        ((StyleManager.new config).run (calls.flatMap ManagerCall.edits)) text) ∧
      ∀ n, ∃ m₀, (new config).run (calls.take n) = some m₀ ∧
        ∀ d ∈ m₀.listed, d.order < m.nextOrder := by
  have hrun (calls : List ManagerCall) := (represents_new config).run
    (StyleManager.orderly_new config) (StyleManager.keyed_new config) calls
  obtain ⟨m, hm, h⟩ := hrun calls
  have ho := StyleManager.orderly_run config (calls.flatMap ManagerCall.edits)
  have hk := (StyleManager.keyed_new config).run (calls.flatMap ManagerCall.edits)
  refine ⟨m, hm, h, h.isIndexed ho hk, fun text => ?_, h.mirrors ho hk, fun n => ?_⟩
  · exact h.serves ho hk (StyleManager.store_run config calls) text
  · obtain ⟨m₀, hm₀, h₀⟩ := hrun (calls.take n)
    refine ⟨m₀, hm₀, fun d hd => ?_⟩
    have hlt := (StyleManager.orderly_run config _).orders_lt d (h₀.listed_eq ▸ hd)
    -- the numbers never go back
    have hle := StyleManager.nextOrder_le_run
      ((StyleManager.new config).run ((calls.take n).flatMap ManagerCall.edits))
      ((calls.drop n).flatMap ManagerCall.edits)
    rw [← StyleManager.run_append, ← List.flatMap_append, List.take_append_drop] at hle
    rw [h.nextOrder_eq]
    exact Nat.lt_of_lt_of_le hlt hle

/-- The declaration at position 0 goes away, the other ones move up, and the text that is declared again
goes to the end. -/
example : ((new .usual).run [.style "a" [], .style "b" [], .style " C" [], .removeStyle "A",
    .tryStyle "a" []]).map (fun m => (m.index, m.listed.map Declaration.order)) =
    some ([("b", 0), ("c", 1), ("a", 2)], [1, 2, 3]) := by
  decide

end IndexedManager

end StyledScene
