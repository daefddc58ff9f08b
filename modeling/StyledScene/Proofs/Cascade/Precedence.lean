import StyledScene.Proofs.Cascade.Orderly

/-!
# The precedence rule

The cascade lays one style over the other in a certain order. What comes out of it is decided for each
property on its own, by a rule that mentions neither sorting nor overlaying (`Gives`): the strongest
source that has the property gives its value, and of the declarations that match and have it the one
with the greatest pair of weight and number counts. Main statement: `get?_computeStyle_iff`.
-/

namespace StyledScene

/-! ## §1 The rule -/

/-- The declaration gives way to another: its selector weighs less or, at equal weights, it is
older. -/
def Declaration.Below (d e : Declaration) : Prop :=
  d.selector.weight < e.selector.weight ∨
    d.selector.weight = e.selector.weight ∧ d.order < e.order

theorem Declaration.Below.asymm {d e : Declaration} (h : d.Below e) : ¬ e.Below d := by
  unfold Declaration.Below at *
  omega

@[simp] theorem Style.get?_overlayOption {c : Category} (k : Key c) (s : Style) (other : Option Style) :
    (s.overlayOption other).get? k = (other.bind fun o => o.get? k).or (s.get? k) := by
  cases other <;> simp [Style.overlayOption]

namespace StyleContext

variable (context : StyleContext) {c : Category} (k : Key c)

/-- What the node itself says about a property. -/
def own? : Option c.Value := context.ownValues.bind fun s => s.get? k

/-- What the parent passes on about a property. -/
def inherited? : Option c.Value :=
  if context.inherits.contains k then context.parent.bind fun s => s.get? k else none

/-- The default of a property. -/
def default? : Option c.Value := context.defaults.bind fun s => s.get? k

end StyleContext

namespace StyleManager

section Rule

variable (m : StyleManager) (lineage : Lineage) (context : StyleContext) {c : Category} (k : Key c)

/-- The declaration matches the node and has the property. -/
def Candidate (d : Declaration) : Prop :=
  d ∈ m.listed ∧ m.matcher.accepts d.selector lineage = true ∧ d.style.has k = true

/-- Every other candidate gives way to the declaration. -/
def Prevails (d : Declaration) : Prop :=
  m.Candidate lineage k d ∧ ∀ e, m.Candidate lineage k e → e ≠ d → e.Below d

/-- What the declaration for every node says about a property. -/
def everywhere? : Option c.Value := m.everywhere.bind fun d => d.style.get? k

/-- The value that a node gets for a property, if it gets any. -/
inductive Gives : Option c.Value → Prop where
  | own {v : c.Value} (hown : context.own? k = some v) : Gives (some v)
  | declared {d : Declaration} {v : c.Value} (hown : context.own? k = none)
      (hprevails : m.Prevails lineage k d) (hv : d.style.get? k = some v) : Gives (some v)
  | inherited {v : c.Value} (hown : context.own? k = none)
      (hnone : ∀ d, ¬ m.Candidate lineage k d) (hv : context.inherited? k = some v) :
      Gives (some v)
  | everywhere {v : c.Value} (hown : context.own? k = none)
      (hnone : ∀ d, ¬ m.Candidate lineage k d) (hinherited : context.inherited? k = none)
      (hv : m.everywhere? k = some v) : Gives (some v)
  | default {v : c.Value} (hown : context.own? k = none)
      (hnone : ∀ d, ¬ m.Candidate lineage k d) (hinherited : context.inherited? k = none)
      (heverywhere : m.everywhere? k = none) (hv : context.default? k = some v) : Gives (some v)
  | absent (hown : context.own? k = none)
      (hnone : ∀ d, ¬ m.Candidate lineage k d) (hinherited : context.inherited? k = none)
      (heverywhere : m.everywhere? k = none) (hdefault : context.default? k = none) : Gives none

end Rule

/-! ## §2 The order of the declarations -/

theorem weight_trans (a b c : Declaration) (hab : decide (a.weight ≤ b.weight) = true)
    (hbc : decide (b.weight ≤ c.weight) = true) : decide (a.weight ≤ c.weight) = true :=
  decide_eq_true (Nat.le_trans (of_decide_eq_true hab) (of_decide_eq_true hbc))

theorem weight_total (a b : Declaration) :
    (decide (a.weight ≤ b.weight) || decide (b.weight ≤ a.weight)) = true := by
  rw [Bool.or_eq_true, decide_eq_true_iff, decide_eq_true_iff]
  exact Nat.le_total a.weight b.weight

theorem pairwise_weight_byWeight (ds : List Declaration) :
    (byWeight ds).Pairwise fun d e => d.weight ≤ e.weight := by
  have hsorted := List.pairwise_mergeSort weight_trans weight_total ds
  exact hsorted.imp of_decide_eq_true

/-- Sorting by weight keeps the order within one weight. -/
theorem filter_byWeight (ds : List Declaration) (w : Nat) :
    (byWeight ds).filter (fun d => d.weight == w) = ds.filter fun d => d.weight == w := by
  -- the one list is a sublist of the other, and they are equally long
  have hlen : (ds.filter fun d => d.weight == w).length =
      ((byWeight ds).filter fun d => d.weight == w).length :=
    ((List.mergeSort_perm ds _).symm.filter _).length_eq
  have hsame : (ds.filter fun d => d.weight == w).Pairwise
      fun d e => decide (d.weight ≤ e.weight) = true := by
    refine List.pairwise_iff_forall_sublist.mpr fun {d e} hsub => ?_
    have hd := (List.mem_filter.mp (hsub.subset (by simp : d ∈ [d, e]))).2
    have he := (List.mem_filter.mp (hsub.subset (by simp : e ∈ [d, e]))).2
    exact decide_eq_true (Nat.le_of_eq ((beq_iff_eq.mp hd).trans (beq_iff_eq.mp he).symm))
  have hsub : (ds.filter fun d => d.weight == w).Sublist (byWeight ds) :=
    List.sublist_mergeSort weight_trans weight_total hsame List.filter_sublist
  have hsub' := hsub.filter fun d => d.weight == w
  simp only [List.filter_filter, Bool.and_self] at hsub'
  exact (hsub'.eq_of_length hlen).symm

/-- Sorted declarations ascend strictly by weight and, within a weight, by number. -/
theorem pairwise_below_byWeight {ds : List Declaration}
    (hascend : ds.Pairwise fun d e => d.order < e.order)
    (hweight : ∀ d ∈ ds, d.weight = d.selector.weight) :
    (byWeight ds).Pairwise Declaration.Below := by
  have hmem : ∀ d ∈ byWeight ds, d.weight = d.selector.weight := fun d hd =>
    hweight d ((List.mergeSort_perm ds _).mem_iff.mp hd)
  refine List.pairwise_iff_forall_sublist.mpr fun {d e} hsub => ?_
  have hle : d.weight ≤ e.weight :=
    List.pairwise_iff_forall_sublist.mp (pairwise_weight_byWeight ds) hsub
  have hd := hmem d (hsub.subset (by simp))
  have he := hmem e (hsub.subset (by simp))
  rcases Nat.lt_or_eq_of_le hle with hlt | heq
  · exact Or.inl (hd ▸ he ▸ hlt)
  · -- at equal weights the two stand as they stood before sorting
    refine Or.inr ⟨hd ▸ he ▸ heq, ?_⟩
    have hpair := hsub.filter fun x => x.weight == e.weight
    rw [filter_byWeight] at hpair
    simp only [List.filter_cons, heq, beq_self_eq_true, if_true, List.filter_nil] at hpair
    exact List.pairwise_iff_forall_sublist.mp hascend (hpair.trans List.filter_sublist)

/-! ## §3 The last word -/

/-- Of styles laid over each other, the last that has a property decides. -/
theorem get?_foldl_overlay_of_last {c : Category} (k : Key c) (base : Style)
    (before after : List Declaration) (d : Declaration) {v : c.Value} (hv : d.style.get? k = some v)
    (hafter : ∀ e ∈ after, e.style.get? k = none) :
    ((before ++ d :: after).foldl (fun s e => s.overlay e.style) base).get? k = some v := by
  -- what was laid down before the declaration does not matter
  rw [List.foldl_append, List.foldl_cons]
  generalize before.foldl (fun s e => s.overlay e.style) base = s
  have hlaid : (s.overlay d.style).get? k = some v := by rw [Style.get?_overlay, hv, Option.some_or]
  generalize s.overlay d.style = t at hlaid
  induction after generalizing t with
  | nil => exact hlaid
  | cons e after ih =>
    rw [List.foldl_cons]
    refine ih (fun e' he' => hafter e' (List.mem_cons_of_mem _ he')) _ ?_
    rw [Style.get?_overlay, hafter e List.mem_cons_self, Option.none_or, hlaid]

theorem get?_foldl_overlay_of_none {c : Category} (k : Key c) (base : Style)
    {ds : List Declaration} (hnone : ∀ e ∈ ds, e.style.get? k = none) :
    (ds.foldl (fun s e => s.overlay e.style) base).get? k = base.get? k := by
  induction ds generalizing base with
  | nil => rfl
  | cons e ds ih =>
    rw [List.foldl_cons, ih _ fun e' he' => hnone e' (List.mem_cons_of_mem _ he'),
      Style.get?_overlay, hnone e List.mem_cons_self, Option.none_or]

section Cascade

variable {m : StyleManager} {lineage : Lineage} {c : Category} {k : Key c}

theorem mem_matching {d : Declaration} :
    d ∈ byWeight (matchingDeclarations m.matcher m.listed lineage) ↔
      d ∈ m.listed ∧ m.matcher.accepts d.selector lineage = true := by
  rw [byWeight, (List.mergeSort_perm _ _).mem_iff, matchingDeclarations, List.mem_filter]

theorem pairwise_below_matching (h : m.Orderly) :
    (byWeight (matchingDeclarations m.matcher m.listed lineage)).Pairwise Declaration.Below := by
  apply pairwise_below_byWeight (h.orders_ascend.sublist List.filter_sublist)
  intro d hd
  exact h.weight_eq d (List.mem_filter.mp hd).1

/-- The declarations leave a property alone, or the one that prevails has the last word on it. -/
theorem get?_declared (h : m.Orderly) (base : Style) :
    (∀ d, ¬ m.Candidate lineage k d) ∧
        ((byWeight (matchingDeclarations m.matcher m.listed lineage)).foldl
          (fun s d => s.overlay d.style) base).get? k = base.get? k ∨
      ∃ d, m.Prevails lineage k d ∧
        ((byWeight (matchingDeclarations m.matcher m.listed lineage)).foldl
          (fun s d => s.overlay d.style) base).get? k = d.style.get? k := by
  have hbelow := @pairwise_below_matching m lineage h
  have hmem := fun d => @mem_matching m lineage d
  generalize byWeight (matchingDeclarations m.matcher m.listed lineage) = ds at hbelow hmem
  -- the last declaration that has the property, if there is one
  cases hlast : ds.reverse.find? fun d => d.style.has k with
  | none =>
    have hnone : ∀ d ∈ ds, d.style.has k = false := fun d hd => by
      simpa using List.find?_eq_none.mp hlast d (List.mem_reverse.mpr hd)
    refine Or.inl ⟨?_, ?_⟩
    · rintro d ⟨hlisted, haccepts, hhas⟩
      rw [hnone d ((hmem d).mpr ⟨hlisted, haccepts⟩)] at hhas
      cases hhas
    · refine get?_foldl_overlay_of_none k base fun d hd => ?_
      exact Option.not_isSome_iff_eq_none.mp (by simpa [Style.has] using hnone d hd)
  | some d =>
    obtain ⟨hhas, after, before, hsplit, hafter⟩ := List.find?_eq_some_iff_append.mp hlast
    obtain rfl : ds = before.reverse ++ d :: after.reverse := by
      rw [← List.reverse_reverse ds, hsplit]
      simp
    obtain ⟨v, hv⟩ := Option.isSome_iff_exists.mp hhas
    have hcandidate : m.Candidate lineage k d := by
      obtain ⟨hlisted, haccepts⟩ := (hmem d).mp (by simp)
      exact ⟨hlisted, haccepts, hhas⟩
    refine Or.inr ⟨d, ⟨hcandidate, ?_⟩, ?_⟩
    · rintro e ⟨hlisted, haccepts, hhas'⟩ hne
      have he := (hmem e).mpr ⟨hlisted, haccepts⟩
      rw [List.mem_append, List.mem_cons] at he
      rcases he with hbefore | rfl | hlater
      · -- whatever stands before it gives way, as the list ascends
        exact (List.pairwise_append.mp hbelow).2.2 e hbefore d List.mem_cons_self
      · exact absurd rfl hne
      · -- nothing after the last declaration has the property
        have hnot := hafter e (List.mem_reverse.mp hlater)
        rw [hhas'] at hnot
        cases hnot
    · rw [hv]
      refine get?_foldl_overlay_of_last k base _ _ d hv fun e he => ?_
      have hnot := hafter e (List.mem_reverse.mp he)
      exact Option.not_isSome_iff_eq_none.mp (by simpa [Style.has] using hnot)

/-! ## §4 The rule decides -/

/-- At most one declaration prevails. -/
theorem Prevails.unique {d e : Declaration} (hd : m.Prevails lineage k d)
    (he : m.Prevails lineage k e) : d = e := by
  by_cases hne : d = e
  · exact hne
  · exact absurd (hd.2 e he.1 (Ne.symm hne)) (he.2 d hd.1 hne).asymm

/-- The cascade of one property: what the node says, what is declared, and the default. -/
theorem get?_computeStyle (m : StyleManager) (lineage : Lineage) (context : StyleContext)
    (k : Key c) :
    ∃ base : Style, base.get? k = (context.inherited? k).or (m.everywhere? k) ∧
      (m.computeStyle lineage context).get? k =
        ((context.own? k).or
          (((byWeight (matchingDeclarations m.matcher m.listed lineage)).foldl
            (fun s d => s.overlay d.style) base).get? k)).or (context.default? k) := by
  obtain ⟨parent, ownValues, defaults, inherits⟩ := context
  have hbase : (Style.empty.overlayOption (m.everywhere.map Declaration.style)).get? k =
      m.everywhere? k := by
    unfold everywhere?
    cases m.everywhere <;> simp
  unfold computeStyle StyledScene.computeStyle StyleContext.own? StyleContext.default?
  -- without a parent there is nothing to inherit, whatever the table says
  cases parent with
  | none =>
    refine ⟨_, ?_, by cases defaults <;> simp <;> rfl⟩
    rw [hbase]
    simp [StyleContext.inherited?]
  | some p =>
    refine ⟨_, ?_, by cases defaults <;> simp <;> rfl⟩
    rw [Style.get?_overlayInherited, hbase]
    unfold StyleContext.inherited?
    split <;> simp

variable {context : StyleContext}

/-- The rule gives nothing but what the cascade computes. -/
theorem Gives.eq (h : m.Orderly) {v : Option c.Value} (hv : m.Gives lineage context k v) :
    (m.computeStyle lineage context).get? k = v := by
  obtain ⟨base, hbase, hget⟩ := get?_computeStyle m lineage context k
  rw [hget]
  rcases get?_declared h base with ⟨hnone, hfold⟩ | ⟨d, hprevails, hfold⟩
  · -- nobody declares the property
    rw [hfold, hbase]
    cases hv with
    | own hown => simp [hown]
    | declared _ hprevails _ => exact absurd hprevails.1 (hnone _)
    | inherited hown _ hv => simp [hown, hv]
    | everywhere hown _ hinherited hv => simp [hown, hinherited, hv]
    | default hown _ hinherited heverywhere hv => simp [hown, hinherited, heverywhere, hv]
    | absent hown _ hinherited heverywhere hdefault =>
      simp [hown, hinherited, heverywhere, hdefault]
  · -- somebody prevails, so that nothing weaker is asked
    rw [hfold]
    cases hv with
    | own hown => simp [hown]
    | declared hown hprevails' hv =>
      obtain rfl := hprevails.unique hprevails'
      simp [hown, hv]
    | inherited _ hnone _ => exact absurd hprevails.1 (hnone d)
    | everywhere _ hnone _ _ => exact absurd hprevails.1 (hnone d)
    | default _ hnone _ _ _ => exact absurd hprevails.1 (hnone d)
    | absent _ hnone _ _ _ => exact absurd hprevails.1 (hnone d)

/-- The rule gives what the cascade computes. -/
theorem gives_computeStyle (h : m.Orderly) :
    m.Gives lineage context k ((m.computeStyle lineage context).get? k) := by
  obtain ⟨base, hbase, hget⟩ := get?_computeStyle m lineage context k
  rw [hget]
  cases hown : context.own? k with
  | some v => exact .own hown
  | none =>
    rw [Option.none_or]
    rcases get?_declared h base with ⟨hnone, hfold⟩ | ⟨d, hprevails, hfold⟩
    · -- the sources are asked from the strongest to the weakest
      rw [hfold, hbase]
      cases hinherited : context.inherited? k with
      | some v => exact .inherited hown hnone hinherited
      | none =>
        cases heverywhere : m.everywhere? k with
        | some v => exact .everywhere hown hnone hinherited heverywhere
        | none =>
          cases hdefault : context.default? k with
          | some v => exact .default hown hnone hinherited heverywhere hdefault
          | none => exact .absent hown hnone hinherited heverywhere hdefault
    · obtain ⟨v, hv⟩ := Option.isSome_iff_exists.mp hprevails.1.2.2
      rw [hfold, hv]
      exact .declared hown hprevails hv

end Cascade

/-- **The cascade is the rule.** Whatever a host did to a manager, the value that a computed style has
for a property, or its absence, is what the rule gives. -/
theorem get?_computeStyle_iff (config : ManagerConfig) (edits : List ManagerEdit)
    (lineage : Lineage) (context : StyleContext) {c : Category} (k : Key c) (v : Option c.Value) :
    (((new config).run edits).computeStyle lineage context).get? k = v ↔
      ((new config).run edits).Gives lineage context k v := by
  have horderly := orderly_run config edits
  constructor
  · rintro rfl
    exact gives_computeStyle horderly
  · intro hv
    exact hv.eq horderly

end StyleManager

end StyledScene
