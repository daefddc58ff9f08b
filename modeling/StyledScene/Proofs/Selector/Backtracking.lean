import Mathlib.Logic.Relation
import StyledScene.Proofs.Selector.Hosts

/-!
# Matching with and without a way back

A chain matches a node in the sense of style sheets if its compounds can be given to the node and some of
its ancestors, each above the one before and right above it where the compound is a direct-child condition
(`NodeTree.CssMatches`). The matcher looks for such ancestors from the node upward and never takes a choice
back.

What the matcher finds is such a choice (`Matcher.fits_of_climb`). It misses one only where a direct-child
condition hangs on an ancestor that was chosen too low. So it misses none if all direct-child conditions
stand to the right of all others: once a compound may be sought further up, so may all that are left of it,
and the lowest ancestor leaves them the most room (`Matcher.climb_of_fits`).
-/

namespace StyledScene

/-! ## §1 Choices on a lineage -/

/-- The compounds can be given to the first node of the lineage and nodes above it. -/
inductive Fits : Compound → List Compound → Lineage → Prop where
  | subject {c : Compound} {v : NodeView} {above : Lineage} (haccepts : c.accepts v = true) :
      Fits c [] (v :: above)
  | next {c next : Compound} {rest : List Compound} {v : NodeView} {below up : Lineage}
      (haccepts : c.accepts v = true) (hdirect : next.directChild = true → below = [])
      (hnext : Fits next rest up) : Fits c (next :: rest) (v :: (below ++ up))

/-- No direct-child condition stands further left than a compound that is none. -/
def DirectFirst (left : List Compound) : Prop :=
  left.Pairwise fun near far => far.directChild = true → near.directChild = true

instance : DecidablePred DirectFirst := fun left =>
  inferInstanceAs (Decidable (left.Pairwise _))

namespace Matcher

variable {c : Compound} {left : List Compound} {climbing : Bool} {lineage : Lineage}

/-- What the search accepts fits from the first node on, or from one further up if the search may climb. -/
theorem fits_of_climb {m : Matcher} (h : m.climb c left climbing lineage = true) :
    ∃ below up, lineage = below ++ up ∧ (climbing = false ∨ c.directChild = true → below = []) ∧
      Fits c left up := by
  induction lineage generalizing c left climbing with
  | nil => simp at h
  | cons v above ih =>
    rw [climb_cons] at h
    split at h
    · simp at h
    by_cases haccepts : c.accepts v = true
    · -- the node is taken
      refine ⟨[], v :: above, rfl, fun _ => rfl, ?_⟩
      cases left with
      | nil => exact .subject haccepts
      | cons next rest =>
        simp only [haccepts, if_true] at h
        obtain ⟨below, up, rfl, hdirect, hfits⟩ := ih h
        exact .next haccepts (fun hnext => hdirect (.inr hnext)) hfits
    · -- the node is left out, which only a climbing search does
      rw [if_neg haccepts] at h
      split at h
      · rename_i hclimbs
        obtain ⟨below, up, rfl, -, hfits⟩ := ih h
        refine ⟨v :: below, up, rfl, ?_, hfits⟩
        rintro (hstays | hdirect)
        · simp [hstays] at hclimbs
        · simp [hdirect] at hclimbs
      · simp at h

/-- The exchange: if a chain fits further up, and nothing but a free choice was made on the way there, the
lowest node that the search takes instead leaves at least as much room for the rest. -/
theorem climb_of_fits {below up : Lineage} (hlineage : lineage = below ++ up)
    (hstay : climbing = false ∨ c.directChild = true → below = [])
    (hfree : below = [] ∨ ∀ far ∈ left, far.directChild = false) (hleft : DirectFirst left)
    (hfits : Fits c left up) : (Matcher.mk false).climb c left climbing lineage = true := by
  induction lineage generalizing c left climbing below up with
  | nil =>
    have hnil : up = [] := (List.append_eq_nil_iff.mp hlineage.symm).2
    subst hnil
    cases hfits
  | cons v above ih =>
    rw [climb_cons]
    cases below with
    | nil =>
      -- the chain fits right here
      obtain rfl : v :: above = up := hlineage
      cases hfits with
      | subject haccepts => simp [haccepts]
      | @next _ next rest _ below up haccepts hdirect hnext =>
        have htail := List.pairwise_cons.mp hleft
        have hrest : (Matcher.mk false).climb next rest true (below ++ up) = true := by
          apply ih rfl (fun h => hdirect (by simpa using h)) _ htail.2 hnext
          cases hnextDirect : next.directChild with
          | true => exact .inl (hdirect hnextDirect)
          | false =>
            refine .inr fun far hfar => ?_
            by_contra hfarDirect
            have hnear := htail.1 far hfar (by simpa using hfarDirect)
            simp [hnextDirect] at hnear
        simpa [haccepts] using hrest
    | cons w below =>
      -- the chain fits above this node
      obtain ⟨rfl, rfl⟩ : v = w ∧ above = below ++ up := List.cons.inj hlineage
      have hclimbing : climbing = true := by
        by_contra hstays
        simpa using hstay (.inl (by simpa using hstays))
      have hc : c.directChild = false := by
        by_contra hdirect
        simpa using hstay (.inr (by simpa using hdirect))
      have hall : ∀ far ∈ left, far.directChild = false := by simpa using hfree
      by_cases haccepts : c.accepts v = true
      · cases hfits with
        | subject => simp [haccepts]
        | @next _ next rest u below' up' _ _ hnext =>
          have hnextFree := hall next List.mem_cons_self
          have hsplit : below ++ u :: (below' ++ up') = (below ++ u :: below') ++ up' := by simp
          have hrest : (Matcher.mk false).climb next rest true (below ++ u :: (below' ++ up')) =
              true := by
            apply ih hsplit (by simp [hnextFree]) _ (List.pairwise_cons.mp hleft).2 hnext
            exact .inr fun far hfar => hall far (List.mem_cons_of_mem next hfar)
          simpa [haccepts] using hrest
      · have hup : (Matcher.mk false).climb c left true (below ++ up) = true :=
          ih rfl (by simp [hc]) (.inr hall) hleft hfits
        simpa [haccepts, hclimbing, hc] using hup

end Matcher

/-! ## §2 Choices in a tree -/

namespace NodeTree

/-- The node lives, and the compound accepts it. -/
def Accepts (t : NodeTree) (c : Compound) (id : NodeId) : Prop :=
  ∃ v above, t.lineage id = v :: above ∧ c.accepts v = true

/-- One or more steps from a node to its parent lead from `id` to `ancestor`. -/
def IsAncestor (t : NodeTree) (ancestor id : NodeId) : Prop :=
  Relation.TransGen (fun child parent => t.parentId? child = some parent) id ancestor

/-- Matching as in style sheets: the compounds of the selector, from right to left, accept nodes that
start with the given one; each is an ancestor of the one before, and its parent where the compound is a
direct-child condition. -/
def CssMatches (t : NodeTree) (s : Selector) (id : NodeId) : Prop :=
  ∃ place : Nat → NodeId, place 0 = id ∧
    (∀ i c, s.compounds[i]? = some c → t.Accepts c (place i)) ∧
    ∀ i c, s.left[i]? = some c →
      t.IsAncestor (place (i + 1)) (place i) ∧
        (c.directChild = true → t.parentId? (place i) = some (place (i + 1)))

variable {t : NodeTree} {id : NodeId} {n : Node} {above : List Node}

theorem cssMatches_subject {c : Compound} : t.CssMatches ⟨c, []⟩ id ↔ t.Accepts c id := by
  constructor
  · rintro ⟨place, rfl, haccepts, -⟩
    exact haccepts 0 c rfl
  · intro haccepts
    refine ⟨fun _ => id, rfl, fun i c' hc' => ?_, by simp⟩
    cases i with
    | zero => simpa using Option.some.inj hc' ▸ haccepts
    | succ i => simp [Selector.compounds] at hc'

/-- A choice for a chain is a choice for its subject and one for the rest of the chain further up. -/
theorem cssMatches_next {c next : Compound} {rest : List Compound} :
    t.CssMatches ⟨c, next :: rest⟩ id ↔
      t.Accepts c id ∧ ∃ a, t.IsAncestor a id ∧
        (next.directChild = true → t.parentId? id = some a) ∧ t.CssMatches ⟨next, rest⟩ a := by
  constructor
  · rintro ⟨place, rfl, haccepts, hplaces⟩
    obtain ⟨hancestor, hdirect⟩ := hplaces 0 next rfl
    refine ⟨haccepts 0 c rfl, place 1, hancestor, hdirect, fun i => place (i + 1), rfl,
      fun i c' hc' => haccepts (i + 1) c' hc', fun i c' hc' => hplaces (i + 1) c' hc'⟩
  · rintro ⟨haccepts, a, hancestor, hdirect, place, rfl, haccepts', hplaces⟩
    refine ⟨fun i => if i = 0 then id else place (i - 1), rfl, fun i c' hc' => ?_,
      fun i c' hc' => ?_⟩
    · cases i with
      | zero => simpa using Option.some.inj hc' ▸ haccepts
      | succ i => simpa using haccepts' i c' hc'
    · cases i with
      | zero =>
        obtain rfl := Option.some.inj hc'
        simpa using ⟨hancestor, hdirect⟩
      | succ i => simpa using hplaces i c' hc'

theorem accepts_iff_of_path? (hp : t.path? id = some (n :: above)) {c : Compound} :
    t.Accepts c id ↔ c.accepts (t.view n above.length) = true := by
  have hlineage : t.lineage id = t.view n above.length :: t.lineageOf above := by
    simp [lineage, lineage?, hp, lineageOf]
  simp [Accepts, hlineage]

/-- The ancestors of a node are the nodes further up on its path. -/
theorem isAncestor_iff (hnd : t.forest.ids.Nodup) (hp : t.path? id = some (n :: above))
    {a : NodeId} :
    t.IsAncestor a id ↔ ∃ below up, above = below ++ up ∧ t.path? a = some up := by
  constructor
  · intro h
    induction h with
    | single hparent =>
      obtain ⟨n', m, up, hp', rfl⟩ := parentId?_eq_some_iff.mp hparent
      obtain ⟨-, rfl⟩ := List.cons.inj (Option.some.inj (hp.symm.trans hp'))
      exact ⟨[], m :: up, rfl, Forest.path?_above hnd hp⟩
    | tail _ hparent ih =>
      obtain ⟨below, up, rfl, hup⟩ := ih
      obtain ⟨k, m, up', hup', rfl⟩ := parentId?_eq_some_iff.mp hparent
      obtain rfl := Option.some.inj (hup.symm.trans hup')
      exact ⟨below ++ [k], m :: up', by simp, Forest.path?_above hnd hup'⟩
  · rintro ⟨below, up, rfl, hup⟩
    induction below generalizing id n with
    | nil =>
      obtain ⟨m, up', rfl, rfl⟩ := Forest.path?_head hup
      exact .single (parentId?_of_path? hp)
    | cons k below ih =>
      exact .head (parentId?_of_path? hp) (ih (Forest.path?_above hnd hp))

theorem drop_lineageOf (t : NodeTree) (k : Nat) (path : List Node) :
    (t.lineageOf path).drop k = t.lineageOf (path.drop k) := by
  induction path generalizing k with
  | nil => simp [lineageOf]
  | cons n above ih =>
    cases k with
    | zero => rfl
    | succ k => simpa [lineageOf] using ih k

/-- Every part at the end of a path shows its lineage at the end of the lineage of the path. -/
theorem lineageOf_append (t : NodeTree) (lower upper : List Node) :
    ∃ below, t.lineageOf (lower ++ upper) = below ++ t.lineageOf upper ∧
      below.length = lower.length := by
  refine ⟨(t.lineageOf (lower ++ upper)).take lower.length, ?_, by simp⟩
  have hsplit := List.take_append_drop lower.length (t.lineageOf (lower ++ upper))
  rw [drop_lineageOf, List.drop_left] at hsplit
  exact hsplit.symm

/-- Every part at the end of a lineage is the lineage of a part at the end of the path. -/
theorem exists_of_lineageOf_eq_append {path : List Node} {below up : Lineage}
    (h : t.lineageOf path = below ++ up) :
    ∃ lower upper, path = lower ++ upper ∧ lower.length = below.length ∧
      t.lineageOf upper = up := by
  have hlen : path.length = below.length + up.length := by
    simpa using congrArg List.length h
  refine ⟨path.take below.length, path.drop below.length, by simp, by simp [hlen], ?_⟩
  rw [← drop_lineageOf, h, List.drop_left]

/-- A node further up on a path has the rest of the path as its own. -/
theorem path?_of_append_path (hnd : t.forest.ids.Nodup) {lower up : List Node} {m : Node}
    (hp : t.path? id = some (n :: (lower ++ m :: up))) : t.path? m.id = some (m :: up) := by
  rw [← List.cons_append] at hp
  exact Forest.path?_of_append hnd hp

/-- Between a node and its parent on a path there is nothing. -/
theorem eq_nil_of_parentId? (hnd : t.forest.ids.Nodup) {lower up : List Node} {m : Node}
    (hp : t.path? id = some (n :: (lower ++ m :: up))) (hparent : t.parentId? id = some m.id) :
    lower = [] := by
  obtain ⟨n', m', up', hp', hid⟩ := parentId?_eq_some_iff.mp hparent
  have habove := Forest.path?_above hnd hp'
  have hm := path?_of_append_path hnd hp
  rw [hid] at habove
  have hsame : m' :: up' = m :: up := Option.some.inj (habove.symm.trans hm)
  have htail : lower ++ m :: up = m' :: up' :=
    (List.cons.inj (Option.some.inj (hp.symm.trans hp'))).2
  rw [hsame] at htail
  simpa using congrArg List.length htail

/-- The choices in a tree are the choices on the lineages of its nodes. -/
theorem cssMatches_iff_fits (hnd : t.forest.ids.Nodup) (hp : t.path? id = some (n :: above))
    {c : Compound} {left : List Compound} :
    t.CssMatches ⟨c, left⟩ id ↔ Fits c left (t.lineageOf (n :: above)) := by
  induction left generalizing c id n above with
  | nil =>
    rw [cssMatches_subject, accepts_iff_of_path? hp]
    exact ⟨.subject, fun | .subject haccepts => haccepts⟩
  | cons next rest ih =>
    rw [cssMatches_next, accepts_iff_of_path? hp]
    constructor
    · rintro ⟨haccepts, a, hancestor, hdirect, hrest⟩
      obtain ⟨lower, upper, rfl, hup⟩ := (isAncestor_iff hnd hp).mp hancestor
      obtain ⟨m, up, rfl, rfl⟩ := Forest.path?_head hup
      obtain ⟨below, hbelow, hlen⟩ := t.lineageOf_append lower (m :: up)
      rw [lineageOf, hbelow]
      refine .next haccepts (fun hnext => ?_) ((ih hup).mp hrest)
      have hlower := eq_nil_of_parentId? hnd hp (hdirect hnext)
      simpa [hlower] using hlen
    · intro hfits
      generalize hlineage : t.lineageOf (n :: above) = lineage at hfits
      cases hfits with
      | @next _ _ _ v below up haccepts hdirect hnext =>
        obtain ⟨rfl, habove⟩ := List.cons.inj hlineage
        obtain ⟨lower, upper, rfl, hlen, rfl⟩ := exists_of_lineageOf_eq_append habove
        cases upper with
        | nil => cases hnext
        | cons m up =>
          have hm := path?_of_append_path hnd hp
          refine ⟨haccepts, m.id, (isAncestor_iff hnd hp).mpr ⟨lower, _, rfl, hm⟩, fun h => ?_,
            (ih hm).mpr hnext⟩
          have hlower : lower = [] := by simpa [hdirect h] using hlen
          subst hlower
          exact parentId?_of_path? hp

/-- What a selector matches as in style sheets can be read off the lineage; a dead node has none. -/
theorem cssMatches_iff (hnd : t.forest.ids.Nodup) (s : Selector) (id : NodeId) :
    t.CssMatches s id ↔ Fits s.subject s.left (t.lineage id) := by
  obtain ⟨c, left⟩ := s
  cases hp : t.path? id with
  | none =>
    have hdead : t.lineage id = [] := by simp [lineage, lineage?, hp]
    rw [hdead]
    constructor
    · rintro ⟨place, rfl, haccepts, -⟩
      obtain ⟨v, above, hlineage, -⟩ := haccepts 0 c rfl
      simp [hdead] at hlineage
    · intro hfits
      cases hfits
  | some p =>
    obtain ⟨n, above, rfl, -⟩ := Forest.path?_head hp
    have hlineage : t.lineage id = t.lineageOf (n :: above) := by simp [lineage, lineage?, hp]
    rw [hlineage]
    exact cssMatches_iff_fits hnd hp

/-! ## §3 The matcher in a tree -/

theorem honest_lineage (t : NodeTree) (id : NodeId) : (t.lineage id).Honest := by
  unfold lineage lineage?
  cases t.path? id with
  | none => trivial
  | some p => exact honest_lineageOf t p

/-- **What a matcher without a way back finds.** Take any selector, any node of a reachable tree and either
matcher. If the matcher accepts the node, the selector matches it as in style sheets. If no direct-child
condition left of the subject stands further left than a compound that is none, the matcher accepts exactly
the nodes that the selector matches as in style sheets. -/
theorem accepts_cssMatches {t : NodeTree} (hreach : t.Reachable) (m : Matcher) (s : Selector)
    (id : NodeId) :
    (m.accepts s (t.lineage id) = true → t.CssMatches s id) ∧
      (DirectFirst s.left → (m.accepts s (t.lineage id) = true ↔ t.CssMatches s id)) := by
  have hnd := (wellFormed_of_reachable hreach).nodup_ids
  rw [cssMatches_iff hnd]
  have hsound : m.accepts s (t.lineage id) = true → Fits s.subject s.left (t.lineage id) := by
    intro haccepts
    obtain ⟨below, up, hlineage, hstay, hfits⟩ := Matcher.fits_of_climb haccepts
    obtain rfl := hstay (.inl rfl)
    exact hlineage ▸ hfits
  refine ⟨hsound, fun hfirst => ⟨hsound, fun hfits => ?_⟩⟩
  rw [Matcher.accepts_of_honest (honest_lineage t id) m ⟨false⟩]
  exact Matcher.climb_of_fits rfl (fun _ => rfl) (.inl rfl) hfirst hfits

/-- A window of class `a` with two nested panels and a label in the inner one. -/
def nestedPanels : NodeTree :=
  empty.run [.create "window", .addClass ⟨1, 1⟩ "a", .createChild ⟨1, 1⟩ "panel",
    .createChild ⟨2, 1⟩ "panel", .createChild ⟨3, 1⟩ "label"]

/-- The matcher finds the label below the window, and there is the choice that style sheets ask for. -/
theorem accepts_nestedPanels :
    nestedPanels.Reachable ∧ ∃ s, Selector.parse? "Window.a Panel > Label" = some s ∧
      DirectFirst s.left ∧ (Matcher.mk true).accepts s (nestedPanels.lineage ⟨4, 1⟩) = true ∧
      nestedPanels.CssMatches s ⟨4, 1⟩ := by
  have hreach : nestedPanels.Reachable := ⟨_, rfl⟩
  obtain ⟨s, hs⟩ : ∃ s, Selector.parse? "Window.a Panel > Label" = some s :=
    Option.isSome_iff_exists.mp (by decide)
  have hboth : (Selector.parse? "Window.a Panel > Label").all fun s =>
      decide (DirectFirst s.left) &&
        (Matcher.mk true).accepts s (nestedPanels.lineage ⟨4, 1⟩) := by decide
  rw [hs, Option.all_some, Bool.and_eq_true, decide_eq_true_iff] at hboth
  obtain ⟨hleft, haccepts⟩ := hboth
  exact ⟨hreach, s, hs, hleft, haccepts,
    ((accepts_cssMatches hreach ⟨true⟩ s ⟨4, 1⟩).2 hleft).mp haccepts⟩

-- the inner panel is taken for good, although only the outer one has the window as its parent
example : (Selector.parse? "Window.a > Panel Label").map (fun s =>
    (Matcher.mk true).accepts s (nestedPanels.lineage ⟨4, 1⟩)) = some false := by
  decide

end NodeTree

end StyledScene
