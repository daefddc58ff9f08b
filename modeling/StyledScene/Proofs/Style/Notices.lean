import StyledScene.Proofs.Cascade.Validity
import StyledScene.Proofs.Style.MappedStyle

/-!
# Exact notices

A store calls its callback from within its operations, each of which decides by a test of its own whether
to do so: whether the value is new, whether the property is there, whether anything was copied, whether
there is anything to clear. These tests agree with the comparison of the maps before and after
(`MappedEdit.same_apply_eq_not_fires`), so that apart from the two merges a callback is called exactly when something
has changed.

Clones and copies start without a callback. In a run over a store and its copies the callback of the store
is therefore called by its own edits only, each time exactly as it should (`exact_trace`).
-/

namespace StyledScene

/-! ## §1 Edits that change something -/

theorem Style.isEmpty_iff {s : Style} :
    s.isEmpty = true ↔ ∀ (c : Category) (k : Key c), s.get? k = none := by
  constructor
  · intro h c k
    exact Style.get?_of_isEmpty h k
  · intro h
    have hkeys (c : Category) : s.keys c = [] := by simp [Style.keys, Style.has, h c]
    have hsize : s.size = 0 := by
      simp only [Style.size, hkeys]
      rfl
    simp [Style.isEmpty, hsize]

theorem MappedStyle.isEmpty_style (s : MappedStyle) : s.style.isEmpty = s.isEmpty := by
  rw [Bool.eq_iff_iff, Style.isEmpty_iff, MappedStyle.isEmpty_iff]
  simp

namespace MappedEdit

/-- Whether the edit lays another style over, in whole or in part. -/
def lays : MappedEdit → Bool
  | overlay _ => true
  | overlayInherited _ _ => true
  | _ => false

/-- The test by which the edit decides whether to notify. -/
def fires (s : MappedStyle) : MappedEdit → Bool
  | set k v => !s.alreadySet k v
  | remove k => s.has k
  | overlay _ => true
  | overlayInherited _ _ => true
  | fillFrom other => (s.fillFrom other).2
  | clear => !s.isEmpty

variable {s : MappedStyle} {e : MappedEdit}

/-- An edit whose test fails leaves the maps as they are, entry by entry. -/
theorem apply_of_not_fires (h : e.fires s = false) : e.apply s = s := by
  cases e with
  | set k v =>
    have hset : s.alreadySet k v = true := by simpa [fires] using h
    simp [apply, hset]
  | remove k => exact MappedStyle.erase_of_not_has (by simpa [fires] using h)
  | overlay other => cases h
  | overlayInherited other table => cases h
  | fillFrom other => exact MappedStyle.fillFrom_of_not_copied h
  | clear =>
    have hempty : s.isEmpty = true := by simpa [fires] using h
    simp [apply, hempty]

/-- An edit whose test succeeds makes some entry another one, unless it lays a style over. -/
theorem exists_changed (hlays : e.lays = false) (h : e.fires s = true) :
    ∃ (c : Category) (k : Key c), Style.sameEntry c ((s.get? k).map c.read)
      (((e.apply s).get? k).map c.read) = false := by
  cases e with
  | @set c k v =>
    have hset : s.alreadySet k v = false := by simpa [fires] using h
    refine ⟨c, k, ?_⟩
    simp only [apply, hset, Bool.false_eq_true, if_false, MappedStyle.get?_put_self]
    -- what is there does not count as the new value
    simp only [MappedStyle.alreadySet] at hset
    cases hk : s.get? k with
    | none => rfl
    | some current => simpa [hk, Category.sameStored, Style.sameEntry] using hset
  | @remove c k =>
    obtain ⟨v, hv⟩ := Option.isSome_iff_exists.mp h
    exact ⟨c, k, by simp [apply, MappedStyle.get?_erase_self, hv, Style.sameEntry]⟩
  | overlay other => cases hlays
  | overlayInherited other table => cases hlays
  | fillFrom other =>
    obtain ⟨c, k, hother, hlacks⟩ := (MappedStyle.copied_iff s other).mp h
    obtain ⟨v, hv⟩ := Option.isSome_iff_exists.mp hother
    have hnone : s.get? k = none := by simpa [MappedStyle.has] using hlacks
    exact ⟨c, k, by simp [apply, hv, hnone, Style.sameEntry]⟩
  | clear =>
    have hfull : ¬ s.isEmpty = true := by simpa [fires] using h
    obtain ⟨c, k, hk⟩ : ∃ (c : Category) (k : Key c), s.get? k ≠ none := by
      simpa [MappedStyle.isEmpty_iff] using hfull
    obtain ⟨v, hv⟩ := Option.ne_none_iff_exists'.mp hk
    exact ⟨c, k, by simp [apply, hfull, hv, Style.sameEntry]⟩

/-- **The tests agree with the comparison.** -/
theorem same_apply_eq_not_fires (hlays : e.lays = false) : s.same (e.apply s) = !e.fires s := by
  cases h : e.fires s with
  | false =>
    rw [apply_of_not_fires h, MappedStyle.same_eq]
    exact Style.same_equivalence.refl s.style
  | true =>
    obtain ⟨c, k, hk⟩ := exists_changed hlays h
    apply Bool.eq_false_iff.mpr
    intro hsame
    simp [MappedStyle.same_iff.mp hsame c k] at hk

/-- The test is the one of the style that the maps hold. -/
theorem fires_read (s : MappedStyle) (e : MappedEdit) : e.read.fires s.style = e.fires s := by
  cases e with
  | set k v => simp [read, Edit.fires, fires, MappedStyle.alreadySet_style]
  | remove k => simp [read, Edit.fires, fires]
  | overlay other => rfl
  | overlayInherited other table => rfl
  | fillFrom other =>
    rw [Bool.eq_iff_iff, fires, MappedStyle.copied_iff]
    simp [read, Edit.fires, Category.mem_all, Key.mem_all]
  | clear => simp [read, Edit.fires, fires, MappedStyle.isEmpty_style]

end MappedEdit

/-! ## §2 Stores -/

/-- A store: its maps, and the callback that is installed, by its number. -/
structure MappedStore where
  maps : MappedStyle
  callback : Option Nat

namespace MappedStore

/-- Calls the callback, if there is one. The list tells which callbacks are called. -/
def notify (s : MappedStore) : List Nat := s.callback.toList

/-- Carries out an edit, and tells which callbacks are called. -/
def perform (s : MappedStore) : MappedEdit → MappedStore × List Nat
  | .set k v =>
    if s.maps.alreadySet k v then (s, []) else ({ s with maps := s.maps.put k v }, s.notify)
  | .remove k => ({ s with maps := s.maps.erase k }, if s.maps.has k then s.notify else [])
  -- these two notify even if every value stays
  | .overlay other => ({ s with maps := s.maps.overlay other }, s.notify)
  | .overlayInherited other table =>
    ({ s with maps := s.maps.overlayInherited other table }, s.notify)
  | .fillFrom other =>
    let filled := s.maps.fillFrom other
    ({ s with maps := filled.1 }, if filled.2 then s.notify else [])
  | .clear => if s.maps.isEmpty then (s, []) else ({ s with maps := .empty }, s.notify)

/-- A store with the same values and no callback. -/
def clone (s : MappedStore) : MappedStore := { s with callback := none }

/-- A new store over which the values of another one are laid. -/
def copy (s : MappedStore) : MappedStore × List Nat :=
  MappedStore.perform ⟨.empty, none⟩ (.overlay s.maps)

theorem perform_eq (s : MappedStore) (e : MappedEdit) :
    s.perform e = ({ s with maps := e.apply s.maps }, if e.fires s.maps then s.notify else []) := by
  cases e with
  | set k v | clear =>
    simp only [perform, MappedEdit.apply, MappedEdit.fires]
    split <;> simp [*]
  | remove | overlay | overlayInherited | fillFrom => rfl

end MappedStore

/-! ## §3 Runs -/

/-- What is done with the stores of a list. -/
inductive StoreCall where
  /-- Edits a store. A text is written like any other value. -/
  | edit (i : Nat) (e : MappedEdit)
  /-- Adds a clone of a store at the end. -/
  | clone (i : Nat)
  /-- Adds a new store at the end that takes its values from a store. -/
  | copy (i : Nat)
  /-- Installs a callback at a store, or takes its callback away. -/
  | install (i : Nat) (callback : Option Nat)

namespace StoreCall

/-- The stores after the call, and the callbacks that are called. -/
def perform (stores : List MappedStore) : StoreCall → List MappedStore × List Nat
  | edit i e =>
    match stores[i]? with
    | some s => (stores.set i (s.perform e).1, (s.perform e).2)
    | none => (stores, [])
  | clone i =>
    match stores[i]? with
    | some s => (stores ++ [s.clone], [])
    | none => (stores, [])
  | copy i =>
    match stores[i]? with
    | some s => (stores ++ [s.copy.1], s.copy.2)
    | none => (stores, [])
  | install i callback =>
    match stores[i]? with
    | some s => (stores.set i { s with callback }, [])
    | none => (stores, [])

/-- A callback stays with the first store, and with it alone. -/
def Keeps (callback : Nat) : StoreCall → Prop
  | install i other => i ≠ 0 ∧ other ≠ some callback
  | _ => True

end StoreCall

/-- One call of a run. -/
structure CallRecord where
  call : StoreCall
  before : List MappedStore
  after : List MappedStore
  /-- The callbacks that were called. -/
  called : List Nat

/-- The calls of a run, one after the other. -/
def trace (stores : List MappedStore) : List StoreCall → List CallRecord
  | [] => []
  | call :: rest =>
    let next := call.perform stores
    ⟨call, stores, next.1, next.2⟩ :: trace next.1 rest

namespace CallRecord

/-- What an edit does to a store that has a callback installed. -/
structure Noticed (callback : Nat) (e : MappedEdit) (before after : MappedStyle) (called : List Nat) :
    Prop where
  /-- The edit is carried out. -/
  result : after = e.apply before
  lays : e.lays = true → called = [callback]
  changed : e.lays = false → before.same after = false → called = [callback]
  /-- What counts as unchanged has not been touched. -/
  unchanged : e.lays = false → before.same after = true → called = [] ∧ after = before
  /-- A watched store with the style that the maps hold does the same. -/
  watched : (Store.mk before.style true).edit e.read = ⟨after.style, true⟩ ∧
    ((Store.mk before.style true).reports e.read = true ↔ called = [callback])

/-- Whether a call is about a callback as it should be: an edit of the first store has been noticed, and
every other call leaves that store and its callback alone. -/
def Exact (callback : Nat) (r : CallRecord) : Prop :=
  match r.call with
  | .edit 0 e => ∃ before after, r.before[0]? = some ⟨before, some callback⟩ ∧
      r.after[0]? = some ⟨after, some callback⟩ ∧ Noticed callback e before after r.called
  | _ => r.after[0]? = r.before[0]? ∧ callback ∉ r.called

end CallRecord

/-- The callback is installed at the first store and at no other. -/
inductive WatchedAlone (callback : Nat) : List MappedStore → Prop where
  | intro (maps : MappedStyle) {others : List MappedStore}
      (hothers : ∀ s ∈ others, s.callback ≠ some callback) :
      WatchedAlone callback (⟨maps, some callback⟩ :: others)

open CallRecord

theorem noticed_perform (callback : Nat) (maps : MappedStyle) (e : MappedEdit) :
    Noticed callback e maps (e.apply maps) (MappedStore.perform ⟨maps, some callback⟩ e).2 where
  result := rfl
  lays h := by
    cases e <;> simp_all [MappedEdit.lays, MappedStore.perform, MappedStore.notify]
  changed hlays h := by
    have hfires : e.fires maps = true := by simpa [MappedEdit.same_apply_eq_not_fires hlays] using h
    simp [MappedStore.perform_eq, hfires, MappedStore.notify]
  unchanged hlays h := by
    have hfires : e.fires maps = false := by simpa [MappedEdit.same_apply_eq_not_fires hlays] using h
    exact ⟨by simp [MappedStore.perform_eq, hfires], MappedEdit.apply_of_not_fires hfires⟩
  watched := by
    refine ⟨by simp [Store.edit, MappedEdit.style_apply], ?_⟩
    simp [Store.reports, MappedEdit.fires_read, MappedStore.perform_eq, MappedStore.notify]

namespace WatchedAlone

variable {callback : Nat} {stores : List MappedStore}

theorem push (h : WatchedAlone callback stores) {s : MappedStore} (hs : s.callback = none) :
    WatchedAlone callback (stores ++ [s]) := by
  obtain ⟨maps, hothers⟩ := h
  apply intro
  intro t ht
  obtain ht | ht := List.mem_append.mp ht
  · exact hothers t ht
  · simp [List.mem_singleton.mp ht, hs]

theorem set (h : WatchedAlone callback stores) {i : Nat} {s : MappedStore}
    (hs : s.callback ≠ some callback) : WatchedAlone callback (stores.set (i + 1) s) := by
  obtain ⟨maps, hothers⟩ := h
  apply intro
  intro t ht
  obtain ht | rfl := List.mem_or_eq_of_mem_set ht
  · exact hothers t ht
  · exact hs

theorem callback_ne (h : WatchedAlone callback stores) {i : Nat} {s : MappedStore}
    (hs : stores[i + 1]? = some s) : s.callback ≠ some callback := by
  obtain ⟨maps, hothers⟩ := h
  exact hothers s (List.mem_of_getElem? hs)

/-- The stores keep their callbacks through a call. -/
theorem perform (h : WatchedAlone callback stores) {call : StoreCall} (hcall : call.Keeps callback) :
    WatchedAlone callback (call.perform stores).1 := by
  cases call with
  | edit i e =>
    cases i with
    | zero =>
      obtain ⟨maps, hothers⟩ := h
      simpa [StoreCall.perform, MappedStore.perform_eq] using intro _ hothers
    | succ i =>
      cases hs : stores[i + 1]? with
      | none => simpa [StoreCall.perform, hs] using h
      | some s =>
        have hother : (s.perform e).1.callback ≠ some callback := by
          simpa [MappedStore.perform_eq] using h.callback_ne hs
        simpa [StoreCall.perform, hs] using h.set hother
  | clone i =>
    cases hs : stores[i]? with
    | none => simpa [StoreCall.perform, hs] using h
    | some s => simpa [StoreCall.perform, hs] using h.push rfl
  | copy i =>
    cases hs : stores[i]? with
    | none => simpa [StoreCall.perform, hs] using h
    | some s => simpa [StoreCall.perform, hs] using h.push rfl
  | install i other =>
    obtain ⟨hi, hother⟩ := hcall
    obtain ⟨i, rfl⟩ := Nat.exists_eq_succ_of_ne_zero hi
    cases hs : stores[i + 1]? with
    | none => simpa [StoreCall.perform, hs] using h
    | some s => simpa [StoreCall.perform, hs] using h.set hother

/-- The callback is called by a call exactly as it should be. -/
theorem exact (h : WatchedAlone callback stores) {call : StoreCall} (hcall : call.Keeps callback) :
    Exact callback ⟨call, stores, (call.perform stores).1, (call.perform stores).2⟩ := by
  cases call with
  | edit i e =>
    cases i with
    | zero =>
      obtain ⟨maps, hothers⟩ := h
      have hnoticed := noticed_perform callback maps e
      exact ⟨maps, e.apply maps, rfl, by simp [StoreCall.perform, MappedStore.perform_eq], hnoticed⟩
    | succ i =>
      cases hs : stores[i + 1]? with
      | none => simp [Exact, StoreCall.perform, hs]
      | some s =>
        -- this store calls a callback of its own, or none
        have hnotify : callback ∉ s.notify := by
          simpa [MappedStore.notify] using h.callback_ne hs
        refine ⟨by simp [StoreCall.perform, hs], ?_⟩
        simp only [StoreCall.perform, hs, MappedStore.perform_eq]
        split <;> simp [hnotify]
  | clone i =>
    obtain ⟨maps, hothers⟩ := h
    simp only [Exact, StoreCall.perform]
    split <;> simp
  | copy i =>
    obtain ⟨maps, hothers⟩ := h
    simp only [Exact, StoreCall.perform]
    split <;> simp [MappedStore.copy, MappedStore.perform_eq, MappedStore.notify]
  | install i other =>
    obtain ⟨i, rfl⟩ := Nat.exists_eq_succ_of_ne_zero hcall.1
    simp only [Exact, StoreCall.perform]
    split <;> simp

theorem exact_trace (h : WatchedAlone callback stores) {calls : List StoreCall}
    (hcalls : ∀ call ∈ calls, call.Keeps callback) :
    ∀ r ∈ trace stores calls, Exact callback r := by
  induction calls generalizing stores with
  | nil => simp [trace]
  | cons call rest ih =>
    obtain ⟨hcall, hrest⟩ := List.forall_mem_cons.mp hcalls
    intro r hr
    obtain rfl | hr := List.mem_cons.mp hr
    · exact h.exact hcall
    · exact ih (h.perform hcall) hrest r hr

end WatchedAlone

/-- **Notices are exact.** Start with a store at which a callback is installed, and edit, clone and copy it
and what comes of it, as long as the callback is neither taken away nor installed elsewhere. Each call of
the run calls the callback as it should. -/
theorem exact_of_mem_trace (maps : MappedStyle) (callback : Nat) {calls : List StoreCall}
    (hcalls : ∀ call ∈ calls, call.Keeps callback) {r : CallRecord}
    (hr : r ∈ trace [⟨maps, some callback⟩] calls) : Exact callback r := by
  have hstart : WatchedAlone callback [⟨maps, some callback⟩] := .intro maps (by simp)
  exact hstart.exact_trace hcalls r hr

/-- A set width, set once more with another undefined value, a clone, and an edit of the clone. -/
def idleWidth : List StoreCall :=
  [.edit 0 (.set Key.width 0x7FC00000), .edit 0 (.set Key.width 0xFF800001), .clone 0, .edit 1 .clear]

theorem exact_idleWidth : (trace [⟨.empty, some 7⟩] idleWidth).map CallRecord.called = [[7], [], [], []] ∧
    (∀ call ∈ idleWidth, call.Keeps 7) ∧ ∀ r ∈ trace [⟨.empty, some 7⟩] idleWidth, Exact 7 r := by
  have hkeeps : ∀ call ∈ idleWidth, call.Keeps 7 := by simp [idleWidth, StoreCall.Keeps]
  exact ⟨by decide, hkeeps, fun r hr => exact_of_mem_trace .empty 7 hkeeps hr⟩

end StyledScene
