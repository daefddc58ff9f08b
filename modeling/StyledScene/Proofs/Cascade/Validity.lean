import StyledScene.Proofs.Cascade.Precedence

/-!
# What a valid manager promises

As long as its stores are watched and nobody calls it valid by hand, a manager that is valid computes
the same styles as when it was last marked so. The step of this is `valid_after`: an edit that leaves a
manager valid found it valid, and has changed no style. Most edits that leave it valid change nothing at
all; the exception is a declaration that is made without values, which no property can notice. A store
that was cut off before the mark reports nothing after it either (`computeStyle_run_of_silenced`).
-/

namespace StyledScene

/-! ## §1 Edits that do not fire -/

namespace Style

theorem get?_of_isEmpty {s : Style} (h : s.isEmpty = true) {c : Category} (k : Key c) :
    s.get? k = none := by
  -- a sum that is zero has no summand that is not
  have hsize : (Category.all.map fun c => (s.keys c).length).sum = 0 := beq_iff_eq.mp h
  have hkeys : (s.keys c).length = 0 :=
    List.sum_eq_zero_iff_forall_eq_nat.mp hsize _ (List.mem_map_of_mem (Category.mem_all c))
  have hnot : k ∉ s.keys c := by
    rw [List.length_eq_zero_iff.mp hkeys]
    exact List.not_mem_nil
  rw [keys, List.mem_filter, not_and] at hnot
  exact Option.not_isSome_iff_eq_none.mp (hnot (Key.mem_all k))

theorem put_of_get? {s : Style} {c : Category} {k : Key c} {v : Option c.Value}
    (h : s.get? k = v) : s.put k v = s := by
  apply ext_get?
  intro c' k'
  by_cases hc : c' = c
  · subst hc
    by_cases hk : k' = k
    · rw [hk, get?_put_self, h]
    · exact get?_put_of_ne s v hk
  · exact get?_put_of_category_ne s k k' v hc

end Style

/-- **An edit that does not fire changes nothing.** -/
theorem Edit.apply_of_not_fires {s : Style} {e : Edit} (h : e.fires s = false) : e.apply s = s := by
  cases e with
  | set k v =>
    have hset : alreadySet s k v = true := by simpa [fires] using h
    rw [apply, if_pos hset]
  | remove k =>
    have hnone : ¬ (s.get? k).isSome = true := by simpa [fires, Style.has] using h
    exact Style.put_of_get? (Option.not_isSome_iff_eq_none.mp hnone)
  | overlay other => cases h
  | overlayInherited other table => cases h
  | fillFrom other =>
    -- filling changes only what is absent
    apply Style.ext_get?
    intro c k
    rw [apply, Style.get?_fillFrom]
    cases hs : s.get? k with
    | some v => rfl
    | none =>
      -- a value that the other style could fill in would have made the edit fire
      rw [Option.none_or]
      apply Option.not_isSome_iff_eq_none.mp
      intro hother
      have hfires : (Edit.fillFrom other).fires s = true := by
        refine List.any_eq_true.mpr ⟨c, Category.mem_all c, ?_⟩
        refine List.any_eq_true.mpr ⟨k, Key.mem_all k, ?_⟩
        simp [Style.has, hother, hs]
      rw [h] at hfires
      cases hfires
  | clear =>
    have hempty : s.isEmpty = true := by simpa [fires] using h
    apply Style.ext_get?
    intro c k
    rw [apply, Style.get?_empty, Style.get?_of_isEmpty hempty]

/-! ## §2 Stores that are watched -/

/-- The edit neither calls the manager valid nor cuts a store off from it. -/
def ManagerEdit.Tracked : ManagerEdit → Prop
  | .markValid => False
  | .change _ .unwatch => False
  | _ => True

namespace StyleManager

/-- The manager hears of every edit of a declaration. -/
structure Watched (m : StyleManager) : Prop where
  listed : ∀ d ∈ m.listed, d.store.watched = true
  everywhere : ∀ d, m.everywhere = some d → d.store.watched = true

theorem watched_new (config : ManagerConfig) : (new config).Watched where
  listed := by simp [new, StyleManager.listed]
  everywhere := by simp [new]

theorem mem_listed_of_at? {m : StyleManager} {key : String} {d : Declaration}
    (h : m.at? (.keyed key) = some d) : (key, d) ∈ m.declarations :=
  Registry.mem_of_find? h

namespace Watched

variable {m : StyleManager}

theorem at? (h : m.Watched) {slot : Slot} {d : Declaration} (hd : m.at? slot = some d) :
    d.store.watched = true := by
  cases slot with
  | everywhere => exact h.everywhere d hd
  | keyed key => exact h.listed d (mem_listed.mpr ⟨key, mem_listed_of_at? hd⟩)

theorem setStore (h : m.Watched) (slot : Slot) {store : Store} (hstore : store.watched = true) :
    (m.setStore slot store).Watched := by
  cases slot with
  | everywhere =>
    refine ⟨h.listed, fun d hd => ?_⟩
    obtain ⟨d', -, rfl⟩ := Option.map_eq_some_iff.mp hd
    exact hstore
  | keyed key =>
    refine ⟨fun d hd => ?_, h.everywhere⟩
    obtain ⟨name, hentry⟩ := mem_listed.mp hd
    obtain ⟨⟨name', d'⟩, hmem, heq⟩ := List.mem_map.mp hentry
    split at heq
    · obtain ⟨-, rfl⟩ := Prod.mk.inj heq
      exact hstore
    · obtain ⟨-, rfl⟩ := Prod.mk.inj heq
      exact h.listed _ (mem_listed.mpr ⟨name', hmem⟩)

theorem access? (h : m.Watched) {text : String} {slot : Slot} {m' : StyleManager}
    (haccess : m.access? text = some (slot, m')) : m'.Watched := by
  unfold StyleManager.access? at haccess
  simp only at haccess
  split at haccess
  · obtain ⟨-, rfl⟩ := Prod.mk.inj (Option.some.inj haccess)
    exact h
  · split at haccess
    · obtain ⟨-, rfl⟩ := Prod.mk.inj (Option.some.inj haccess)
      refine ⟨h.listed, fun d hd => ?_⟩
      rw [← Option.some.inj hd]
      rfl
    · obtain ⟨selector, -, heq⟩ := Option.map_eq_some_iff.mp haccess
      obtain ⟨-, rfl⟩ := Prod.mk.inj heq
      refine ⟨fun d hd => ?_, h.everywhere⟩
      obtain ⟨name, hentry⟩ := mem_listed.mp hd
      -- a new declaration is watched from the start
      rcases List.mem_append.mp hentry with hold | hnew
      · exact h.listed d (mem_listed.mpr ⟨name, (List.mem_filter.mp hold).1⟩)
      · obtain ⟨-, rfl⟩ := Prod.mk.inj (List.mem_singleton.mp hnew)
        rfl

/-- **Tracked edits keep the stores watched.** -/
theorem after (h : m.Watched) {e : ManagerEdit} (he : e.Tracked) : (m.after e).Watched := by
  cases e with
  | access text =>
    show (((m.access? text).map Prod.snd).getD m).Watched
    cases haccess : m.access? text with
    | none => exact h
    | some found => exact h.access? haccess
  | change slot c =>
    show (m.change slot c).Watched
    unfold change
    split
    · exact h
    · rename_i d hd
      cases c with
      | edit e =>
        have hset : (m.setStore slot (d.store.edit e)).Watched := h.setStore slot (h.at? hd)
        simp only
        split
        · exact ⟨hset.listed, hset.everywhere⟩
        · exact hset
      | unwatch => exact he.elim
  | removeStyle text =>
    show (m.removeStyle text).2.Watched
    unfold removeStyle
    split
    · exact h
    · split
      · exact ⟨h.listed, fun d hd => absurd hd.symm (Option.some_ne_none d)⟩
      · refine ⟨fun d hd => h.listed d ?_, h.everywhere⟩
        exact (List.filter_sublist.map Prod.snd).subset hd
  | clear =>
    exact ⟨fun _ hd => (List.not_mem_nil hd).elim,
      fun d hd => absurd hd.symm (Option.some_ne_none d)⟩
  | invalidate => exact ⟨h.listed, h.everywhere⟩
  | markValid => exact he.elim
  | registerFont name font => exact ⟨h.listed, h.everywhere⟩
  | registerSkin name skin => exact ⟨h.listed, h.everywhere⟩

end Watched

/-! ## §3 One edit -/

theorem find?_of_mem {r : Registry Declaration} (hnd : r.names.Nodup) {key : String}
    {d : Declaration} (h : (key, d) ∈ r) : r.find? key = some d := by
  induction r with
  | nil => cases h
  | cons entry r ih =>
    rw [Registry.names, List.map_cons, List.nodup_cons] at hnd
    rw [Registry.find?_cons]
    rcases List.mem_cons.mp h with rfl | hlater
    · rw [if_pos rfl]
    · have hne : entry.1 ≠ key := fun heq => hnd.1 (heq ▸ List.mem_map_of_mem hlater)
      rw [if_neg hne]
      exact ih hnd.2 hlater

/-- Putting back the store that is there changes nothing. -/
theorem setStore_self {m : StyleManager} (h : m.Orderly) {slot : Slot} {d : Declaration}
    (hd : m.at? slot = some d) : m.setStore slot d.store = m := by
  cases slot with
  | everywhere =>
    have hd' : m.everywhere = some d := hd
    simp only [setStore, hd', Option.map_some]
    rw [← hd']
  | keyed key =>
    have hsame : m.declarations.modify key (fun d' => { d' with store := d.store }) =
        m.declarations := by
      refine (List.map_congr_left fun entry hentry => ?_).trans (List.map_id m.declarations)
      split
      · rename_i hkey
        -- a key has one declaration
        have hfind := find?_of_mem h.names_nodup (hkey ▸ hentry : (key, entry.2) ∈ m.declarations)
        obtain rfl := Option.some.inj (hfind.symm.trans hd)
        rfl
      · rfl
    simp only [setStore, hsame]

/-- Two managers with the same candidates and the same values for every node give the same. -/
theorem Gives.congr {m m' : StyleManager} {lineage : Lineage} {context : StyleContext}
    {c : Category} {k : Key c} {v : Option c.Value}
    (hcandidate : ∀ d, m'.Candidate lineage k d ↔ m.Candidate lineage k d)
    (heverywhere : m'.everywhere? k = m.everywhere? k) (h : m.Gives lineage context k v) :
    m'.Gives lineage context k v := by
  have hnobody (hnone : ∀ d, ¬ m.Candidate lineage k d) (d : Declaration) :
      ¬ m'.Candidate lineage k d := fun hd => hnone d ((hcandidate d).mp hd)
  cases h with
  | own hown => exact .own hown
  | @declared d v hown hprevails hv =>
    refine .declared hown ⟨(hcandidate d).mpr hprevails.1, fun e he => ?_⟩ hv
    exact hprevails.2 e ((hcandidate e).mp he)
  | inherited hown hnone hv => exact .inherited hown (hnobody hnone) hv
  | everywhere hown hnone hinherited hv =>
    exact .everywhere hown (hnobody hnone) hinherited (heverywhere.trans hv)
  | default hown hnone hinherited hev hv =>
    exact .default hown (hnobody hnone) hinherited (heverywhere.trans hev) hv
  | absent hown hnone hinherited hev hdefault =>
    exact .absent hown (hnobody hnone) hinherited (heverywhere.trans hev) hdefault

theorem computeStyle_congr {m m' : StyleManager} (h : m.Orderly) (h' : m'.Orderly)
    {lineage : Lineage} {context : StyleContext}
    (hcandidate : ∀ (c : Category) (k : Key c) (d : Declaration),
      m'.Candidate lineage k d ↔ m.Candidate lineage k d)
    (heverywhere : ∀ (c : Category) (k : Key c), m'.everywhere? k = m.everywhere? k) :
    m'.computeStyle lineage context = m.computeStyle lineage context := by
  apply Style.ext_get?
  intro c k
  -- the precedence rule is told from the candidates alone
  exact ((gives_computeStyle h).congr (hcandidate c k) (heverywhere c k)).eq h'

theorem has_new (selector : Selector) (order : Nat) {c : Category} (k : Key c) :
    (Declaration.new selector order true).style.has k = false := by
  show (Style.empty.get? k).isSome = false
  rw [Style.get?_empty]
  rfl

/-- A declaration without values makes no difference. -/
theorem computeStyle_access? {m m' : StyleManager} (h : m.Orderly) {text : String} {slot : Slot}
    (haccess : m.access? text = some (slot, m')) (lineage : Lineage) (context : StyleContext) :
    m'.valid = m.valid ∧ m'.computeStyle lineage context = m.computeStyle lineage context := by
  have h' := h.access? haccess
  unfold access? at haccess
  simp only at haccess
  split at haccess
  · obtain ⟨-, rfl⟩ := Prod.mk.inj (Option.some.inj haccess)
    exact ⟨rfl, rfl⟩
  · rename_i hnone
    split at haccess
    · rename_i hslot
      obtain ⟨-, rfl⟩ := Prod.mk.inj (Option.some.inj haccess)
      refine ⟨rfl, computeStyle_congr h h' (fun c k d => Iff.rfl) fun c k => ?_⟩
      -- neither no declaration nor an empty one has anything to say
      have hbefore : m.everywhere = none := by
        rw [hslot] at hnone
        exact Option.not_isSome_iff_eq_none.mp hnone
      have hnew := has_new Selector.universal 0 k
      rw [everywhere?, everywhere?, hbefore]
      exact Option.not_isSome_iff_eq_none.mp (by simpa [Style.has] using hnew)
    · rename_i key hslot
      obtain ⟨selector, -, heq⟩ := Option.map_eq_some_iff.mp haccess
      obtain ⟨-, rfl⟩ := Prod.mk.inj heq
      refine ⟨rfl, computeStyle_congr h h' (fun c k d => ?_) fun c k => rfl⟩
      constructor
      · -- the new declaration has no property, so it is no candidate
        rintro ⟨hlisted, haccepts, hhas⟩
        obtain ⟨name, hentry⟩ := mem_listed.mp hlisted
        rcases List.mem_append.mp hentry with hold | hnew
        · exact ⟨mem_listed.mpr ⟨name, (List.mem_filter.mp hold).1⟩, haccepts, hhas⟩
        · obtain ⟨-, rfl⟩ := Prod.mk.inj (List.mem_singleton.mp hnew)
          rw [has_new] at hhas
          cases hhas
      · rintro ⟨hlisted, haccepts, hhas⟩
        obtain ⟨name, hentry⟩ := mem_listed.mp hlisted
        refine ⟨mem_listed.mpr ⟨name, List.mem_append_left _ (List.mem_filter.mpr ⟨hentry, ?_⟩)⟩,
          haccepts, hhas⟩
        -- the key is new, so nothing was dropped for it
        refine bne_iff_ne.mpr fun (hname : name = key) => hnone ?_
        rw [hslot, at?, find?_of_mem h.names_nodup (hname ▸ hentry)]
        rfl

theorem after_change (m : StyleManager) (slot : Slot) (c : StoreChange) :
    m.after (.change slot c) = m.change slot c := rfl

theorem after_removeStyle (m : StyleManager) (text : String) :
    m.after (.removeStyle text) = (m.removeStyle text).2 := rfl

/-- A change of a watched store that leaves the manager valid changes nothing. -/
theorem change_edit_of_valid {m : StyleManager} (h : m.Orderly) (hw : m.Watched) {slot : Slot}
    {e : Edit} (hvalid : (m.change slot (.edit e)).valid = true) : m.change slot (.edit e) = m := by
  unfold change at hvalid ⊢
  split at hvalid
  · rfl
  · rename_i d hd
    simp only at hvalid ⊢
    split at hvalid
    · cases hvalid
    · rename_i hquiet
      -- the store is watched and did not report, so the edit did not fire
      have hfires : e.fires d.store.style = false := by
        simpa [Store.reports, hw.at? hd] using hquiet
      have hstore : d.store.edit e = d.store := by
        rw [Store.edit, Edit.apply_of_not_fires hfires]
      rw [if_neg hquiet, hstore, setStore_self h hd]

theorem removeStyle_of_valid {m : StyleManager} {text : String}
    (hvalid : (m.removeStyle text).2.valid = true) : (m.removeStyle text).2 = m := by
  unfold removeStyle at hvalid ⊢
  by_cases hnone : (m.declaration? text).isNone = true
  · rw [if_pos hnone]
  · rw [if_neg hnone] at hvalid
    split at hvalid <;> exact absurd hvalid Bool.false_ne_true

/-- **An edit that leaves a manager valid found it valid and changed no style.** -/
theorem valid_after {m : StyleManager} (h : m.Orderly) (hw : m.Watched) {e : ManagerEdit}
    (he : e.Tracked) (hvalid : (m.after e).valid = true) :
    m.valid = true ∧ ∀ lineage context,
      (m.after e).computeStyle lineage context = m.computeStyle lineage context := by
  cases e with
  | access text =>
    unfold after at hvalid ⊢
    simp only at hvalid ⊢
    cases haccess : m.access? text with
    | none =>
      rw [haccess] at hvalid
      exact ⟨hvalid, fun _ _ => rfl⟩
    | some found =>
      rw [haccess] at hvalid
      have hsame := computeStyle_access? h haccess
      exact ⟨(hsame [] ⟨none, none, none, .empty⟩).1 ▸ hvalid, fun l c => (hsame l c).2⟩
  | change slot c =>
    cases c with
    | unwatch => exact he.elim
    | edit e =>
      rw [after_change] at hvalid ⊢
      have hsame := change_edit_of_valid h hw hvalid
      rw [hsame] at hvalid ⊢
      exact ⟨hvalid, fun _ _ => rfl⟩
  | removeStyle text =>
    rw [after_removeStyle] at hvalid ⊢
    have hsame := removeStyle_of_valid hvalid
    rw [hsame] at hvalid ⊢
    exact ⟨hvalid, fun _ _ => rfl⟩
  | clear => cases hvalid
  | invalidate => cases hvalid
  | markValid => exact he.elim
  | registerFont name font => exact ⟨hvalid, fun _ _ => rfl⟩
  | registerSkin name skin => exact ⟨hvalid, fun _ _ => rfl⟩

/-! ## §4 Runs of edits -/

variable {m : StyleManager} {edits : List ManagerEdit}

theorem Watched.run (h : m.Watched) (hedits : ∀ e ∈ edits, e.Tracked) : (m.run edits).Watched := by
  induction edits generalizing m with
  | nil => exact h
  | cons e edits ih =>
    obtain ⟨he, hrest⟩ := List.forall_mem_cons.mp hedits
    exact ih (h.after he) hrest

/-- **A tracked run that leaves a manager valid found it valid and changed no style.** -/
theorem valid_run (h : m.Orderly) (hw : m.Watched) (hedits : ∀ e ∈ edits, e.Tracked)
    (hvalid : (m.run edits).valid = true) :
    m.valid = true ∧ ∀ lineage context,
      (m.run edits).computeStyle lineage context = m.computeStyle lineage context := by
  induction edits generalizing m with
  | nil => exact ⟨hvalid, fun _ _ => rfl⟩
  | cons e edits ih =>
    obtain ⟨he, hrest⟩ := List.forall_mem_cons.mp hedits
    -- the manager is valid at the end, so the rest of the run found it valid too
    obtain ⟨hmiddle, hlater⟩ := ih (h.after e) (hw.after he) hrest hvalid
    obtain ⟨hstart, hfirst⟩ := valid_after h hw he hmiddle
    exact ⟨hstart, fun lineage context =>
      (hlater lineage context).trans (hfirst lineage context)⟩

/-- **The valid flag never hides a change of a watched store.** Mark any manager whose stores are watched
as valid, after whatever run, and ask whether it was valid or do not; if a run that neither marks it again
nor cuts a store off finds it valid at the end, then every node gets the style that it got at the start, in
every context. -/
theorem computeStyle_run_of_valid (config : ManagerConfig) (before later : List ManagerEdit)
    {marked : StyleManager}
    (hmarked : marked = ((new config).run before).markValid ∨
      marked = ((new config).run before).swapValid.2)
    (hwatched : ((new config).run before).Watched) (hlater : ∀ e ∈ later, e.Tracked)
    (hvalid : (marked.run later).valid = true) (lineage : Lineage) (context : StyleContext) :
    (marked.run later).computeStyle lineage context = marked.computeStyle lineage context := by
  -- both ways to mark a manager leave the same one
  obtain rfl : marked = ((new config).run before).markValid := or_self_iff.mp hmarked
  have horderly : ((new config).run before).markValid.Orderly :=
    (orderly_run config before).after .markValid
  have hstores : ((new config).run before).markValid.Watched :=
    ⟨hwatched.listed, hwatched.everywhere⟩
  exact (valid_run horderly hstores hlater hvalid).2 lineage context

/-- Heavy labels, in a manager that has just been made. -/
def heavyLabels : List ManagerEdit :=
  [.access "*", .access "Label", .change (.keyed "label") (.edit (.set .fontWeight 700))]

/-- Edits that leave those labels as they are: the weight is set to what it is, a property that nobody
set is removed, and two more declarations stay without values. -/
def idleEdits : List ManagerEdit :=
  [.access " LABEL ", .change (.keyed "label") (.edit (.set .fontWeight 700)),
    .change (.keyed "label") (.edit (.remove .opacity)), .access "Label:hover", .access "..",
    .change .everywhere (.edit .clear), .removeStyle "Button", .registerFont "Body" 3]

/-- A label on its own. -/
def loneLabel : NodeView := ⟨["label"], none, "node-1", [], false, false, false, false, 0, none, 0⟩

/-- Idle edits keep the manager valid, and a label stays heavy. -/
theorem heavyLabels_idle :
    (((new .usual).run heavyLabels).markValid.run idleEdits).valid = true ∧
      ((((new .usual).run heavyLabels).markValid.run idleEdits).computeStyle [loneLabel]
        ⟨none, none, none, .empty⟩).get? .fontWeight = some 700 := by
  have hheavy : ∀ e ∈ heavyLabels, e.Tracked := by
    simp [heavyLabels, ManagerEdit.Tracked]
  have hidle : ∀ e ∈ idleEdits, e.Tracked := by
    simp [idleEdits, ManagerEdit.Tracked]
  have hvalid : (((new .usual).run heavyLabels).markValid.run idleEdits).valid = true := by
    decide
  have hstart : (((new .usual).run heavyLabels).markValid.computeStyle [loneLabel]
      ⟨none, none, none, .empty⟩).get? .fontWeight = some 700 := by
    decide +kernel
  have hsame := computeStyle_run_of_valid .usual heavyLabels idleEdits (Or.inl rfl)
    ((watched_new .usual).run hheavy) hidle hvalid [loneLabel] ⟨none, none, none, .empty⟩
  rw [hsame]
  exact ⟨hvalid, hstart⟩

/-- Labels whose store was cut off, in a manager that has just been made. -/
def silencedLabels : List ManagerEdit := [.access "Label", .change (.keyed "label") .unwatch]

/-- Makes the labels heavy. -/
def thickening : List ManagerEdit := [.change (.keyed "label") (.edit (.set .fontWeight 700))]

/-- Of a store that was cut off before the mark, the flag hides a change: the manager stays valid, and a
label that had no weight is heavy. -/
theorem computeStyle_run_of_silenced :
    (∀ e ∈ thickening, e.Tracked) ∧
      (((new .usual).run silencedLabels).markValid.run thickening).valid = true ∧
      (((new .usual).run silencedLabels).markValid.computeStyle [loneLabel]
        ⟨none, none, none, .empty⟩).get? .fontWeight = none ∧
      ((((new .usual).run silencedLabels).markValid.run thickening).computeStyle [loneLabel]
        ⟨none, none, none, .empty⟩).get? .fontWeight = some 700 := by
  refine ⟨?_, by decide, by decide +kernel, by decide +kernel⟩
  simp [thickening, ManagerEdit.Tracked]

end StyleManager

end StyledScene
