import StyledScene.Proofs.Selector.Linked
import StyledScene.Proofs.Tree.Marking

/-!
# Hosts

Selectors can be matched in any tree whose nodes show themselves and their parents. `Host.matchLink` does
so link by link and asks for one parent at a time, so that it goes on for ever where the parents never
end. Where they end, its verdict is the one that a matcher gives on the lineage of the node
(`Host.matchLink_eq`).

The depth fast path trusts the depth that a node reports. As long as no node reports less than the number
of its ancestors, it rejects nothing that would have been accepted (`Matcher.climb_fast`), and so the two
matchers agree (`accepts_fast_eq_slow`). The nodes of a tree report exactly that number, because a node
reference is given the depth of its node and loses one with every step to a parent.
-/

namespace StyledScene

/-! ## §1 Matching link by link -/

/-- Nodes of some tree: what a selector sees of each, and the parent of each. -/
structure Host (N : Type) where
  view : N → NodeView
  parent? : N → Option N

namespace Host

variable {N : Type}

/-- Tries a link at a node and, if `climbing` allows it, at the nodes above; where it fits, the next link
goes on from the parent. -/
def matchLink (h : Host N) (fast : Bool) (link : ChainLink) (n : N) (climbing : Bool) : Option Bool :=
  if fast && decide ((h.view n).depth < link.depth) then some false
  else if link.compound.accepts (h.view n) then
    match link.next? with
    | none => some true
    | some next =>
      match h.parent? n with
      | none => some false
      | some parent => h |>.matchLink fast next parent true
  else if !climbing || link.compound.directChild then some false
  else
    match h.parent? n with
    | none => some false
    | some parent => h |>.matchLink fast link parent climbing
partial_fixpoint

variable (h : Host N)

/-- Whether the chain matches the node; none if the search never ends. -/
def accepts (fast : Bool) (link : ChainLink) (n : N) : Option Bool := h.matchLink fast link n false

/-- The ancestors of the node are the listed ones, from its parent up to a node without a parent. -/
inductive Leads : N → List N → Prop where
  | root {n : N} (hparent : h.parent? n = none) : Leads n []
  | step {n parent : N} {above : List N} (hparent : h.parent? n = some parent)
      (habove : Leads parent above) : Leads n (parent :: above)

variable {h} {n : N} {above : List N}

/-- A node has one list of ancestors. -/
theorem Leads.unique (hn : h.Leads n above) {above' : List N} (hn' : h.Leads n above') :
    above = above' := by
  induction hn generalizing above' with
  | root hparent =>
    cases hn' with
    | root => rfl
    | step hparent' _ => simp [hparent] at hparent'
  | step hparent _ ih =>
    cases hn' with
    | root hparent' => simp [hparent] at hparent'
    | step hparent' habove' =>
      obtain rfl := Option.some.inj (hparent.symm.trans hparent')
      rw [ih habove']

/-- What a search that goes on from the parent answers, and one that stops below it if there is none. -/
def matchAbove (h : Host N) (fast : Bool) (link : ChainLink) (n : N) (climbing : Bool) : Option Bool :=
  match h.parent? n with
  | none => some false
  | some parent => h.matchLink fast link parent climbing

/-- One step of the search: if it agrees with the matcher above the node, it agrees at the node. -/
theorem matchLink_of_above {fast : Bool} {above : Lineage}
    (habove : ∀ c left climbing, h.matchAbove fast (ChainLink.ofCompounds c left) n climbing =
      some ((Matcher.mk fast).climb c left climbing above))
    (c : Compound) (left : List Compound) (climbing : Bool) :
    h.matchLink fast (ChainLink.ofCompounds c left) n climbing =
      some ((Matcher.mk fast).climb c left climbing (h.view n :: above)) := by
  rw [matchLink, Matcher.climb_cons, ChainLink.depth_ofCompounds, ChainLink.compound_ofCompounds]
  by_cases hfew : (fast && decide ((h.view n).depth < left.length)) = true
  · rw [if_pos hfew, if_pos hfew]
  rw [if_neg hfew, if_neg hfew]
  by_cases haccepts : c.accepts (h.view n) = true
  · -- the node is taken, and the next link goes on above it
    rw [if_pos haccepts, if_pos haccepts]
    cases left with
    | nil => rfl
    | cons next rest => exact habove next rest true
  rw [if_neg haccepts, if_neg haccepts]
  cases climbing with
  | false => rfl
  | true =>
    cases hdirect : c.directChild with
    | true => rfl
    | false => exact habove c left true

/-- Where the ancestors end, so does the search, with the verdict of the matcher on the lineage. -/
theorem matchLink_eq (hn : h.Leads n above) (fast : Bool) (c : Compound) (left : List Compound)
    (climbing : Bool) :
    h.matchLink fast (ChainLink.ofCompounds c left) n climbing =
      some ((Matcher.mk fast).climb c left climbing ((n :: above).map h.view)) := by
  induction hn generalizing c left climbing with
  | root hparent =>
    refine matchLink_of_above (fun c left climbing => ?_) c left climbing
    simp [matchAbove, hparent]
  | step hparent _ ih =>
    refine matchLink_of_above (fun c left climbing => ?_) c left climbing
    simpa [matchAbove, hparent] using ih c left climbing

end Host

/-! ## §2 The depth fast path -/

/-- No node of the lineage reports fewer ancestors than it has. -/
def Lineage.Honest : Lineage → Prop
  | [] => True
  | v :: above => above.length ≤ v.depth ∧ Lineage.Honest above

namespace Matcher

/-- A chain that matches somewhere in a lineage finds a node for each of its compounds. -/
theorem length_lt_of_climb {m : Matcher} {c : Compound} {left : List Compound} {climbing : Bool}
    {lineage : Lineage} (h : m.climb c left climbing lineage = true) :
    left.length < lineage.length := by
  induction lineage generalizing c left climbing with
  | nil => simp at h
  | cons v above ih =>
    rw [climb_cons] at h
    split at h
    · simp at h
    split at h
    · cases left with
      | nil => simp
      | cons next rest => simpa using ih h
    split at h
    · exact Nat.lt_succ_of_lt (ih h)
    · simp at h

/-- Where no node reports too small a depth, the early rejection changes nothing: a rejected node has too
few ancestors for the compounds that are left. -/
theorem climb_fast {lineage : Lineage} (honest : lineage.Honest) (c : Compound)
    (left : List Compound) (climbing : Bool) :
    (Matcher.mk true).climb c left climbing lineage =
      (Matcher.mk false).climb c left climbing lineage := by
  induction lineage generalizing c left climbing with
  | nil => rfl
  | cons v above ih =>
    obtain ⟨hdepth, habove⟩ := honest
    by_cases hfew : v.depth < left.length
    · have hslow : (Matcher.mk false).climb c left climbing (v :: above) = false := by
        by_contra hmatch
        have hlen := length_lt_of_climb (Bool.not_eq_false _ ▸ hmatch)
        simp only [List.length_cons] at hlen
        omega
      rw [hslow, climb_cons]
      simp [hfew]
    · have hmany : decide (v.depth < left.length) = false := by simpa using hfew
      rw [climb_cons, climb_cons, hmany, Bool.and_false, Bool.and_false, ih habove]
      cases left with
      | nil => rfl
      | cons next rest => simp only [ih habove]

/-- On an honest lineage any two matchers agree. -/
theorem accepts_of_honest {lineage : Lineage} (honest : lineage.Honest) (m m' : Matcher)
    (s : Selector) : m.accepts s lineage = m'.accepts s lineage := by
  have hfast := climb_fast honest s.subject s.left false
  obtain ⟨_ | _⟩ := m <;> obtain ⟨_ | _⟩ := m'
  · rfl
  · exact hfast.symm
  · exact hfast
  · rfl

end Matcher

namespace Host

variable {N : Type} {h : Host N} {n : N} {above : List N}

/-- A host whose nodes report their ancestors shows honest lineages. -/
theorem Leads.honest (hn : h.Leads n above)
    (hdepth : ∀ m ∈ n :: above, ∀ up, h.Leads m up → up.length ≤ (h.view m).depth) :
    Lineage.Honest ((n :: above).map h.view) := by
  induction hn with
  | root hparent => simp [Lineage.Honest]
  | @step n parent above hparent habove ih =>
    have hself := hdepth n List.mem_cons_self _ (.step hparent habove)
    refine ⟨by simpa using hself, ih fun m hm => hdepth m (List.mem_cons_of_mem n hm)⟩

end Host

/-! ## §3 References to the nodes of a tree -/

/-- A node on the way from some node to its root, with the number of ancestors that was counted for it. -/
structure NodeRef where
  node : Node
  depth : Nat

namespace NodeTree

/-- A reference to a living node; its ancestors are counted here and never again. -/
def ref? (t : NodeTree) (id : NodeId) : Option NodeRef :=
  match t.node id, t.depth id with
  | .ok n, .ok depth => some ⟨n, depth⟩
  | _, _ => none

/-- The nodes of a tree as a host. A parent has one ancestor less than its child. -/
def host (t : NodeTree) : Host NodeRef where
  view r := t.view r.node r.depth
  parent? r :=
    match t.parentId? r.node.id with
    | none => none
    | some parent =>
      match t.node parent with
      | .ok n => some ⟨n, r.depth - 1⟩
      | .error _ => none

/-- References to the nodes of a path, each with the number of nodes above it. -/
def refsOf : List Node → List NodeRef
  | [] => []
  | n :: above => ⟨n, above.length⟩ :: refsOf above

variable {t : NodeTree} {id : NodeId} {n : Node} {above : List Node}

theorem node_of_path? (hp : t.path? id = some (n :: above)) : t.node id = .ok n := by
  obtain ⟨below, hsub⟩ := subtree?_of_path? hp
  simp [node, ask, hsub]

theorem depth_of_path? (hp : t.path? id = some (n :: above)) : t.depth id = .ok above.length := by
  obtain ⟨below, hsub⟩ := subtree?_of_path? hp
  simp [depth, ask, hsub, hp]

theorem ref?_of_path? (hp : t.path? id = some (n :: above)) :
    t.ref? id = some ⟨n, above.length⟩ := by
  rw [ref?, node_of_path? hp, depth_of_path? hp]

/-- What references show to selectors is the lineage. -/
theorem map_view_refsOf (t : NodeTree) (path : List Node) :
    (refsOf path).map t.host.view = t.lineageOf path := by
  induction path with
  | nil => rfl
  | cons n above ih => simpa [refsOf, lineageOf] using ⟨rfl, ih⟩

/-- The parents of a reference lead up the path of its node. -/
theorem leads_refsOf (hnd : t.forest.ids.Nodup) (hp : t.path? id = some (n :: above)) :
    t.host.Leads ⟨n, above.length⟩ (refsOf above) := by
  induction above generalizing id n with
  | nil =>
    apply Host.Leads.root
    rw [← Forest.id_of_path? hp] at hp
    simp [host, parentId?_of_root hp]
  | cons m up ih =>
    have hup := Forest.path?_above hnd hp
    apply Host.Leads.step _ (ih hup)
    rw [← Forest.id_of_path? hp] at hp
    simp [host, parentId?_of_path? hp, node_of_path? hup]

/-- Every reference on the way up counts the ancestors of its node. -/
theorem depth_of_mem_refsOf (hnd : t.forest.ids.Nodup) (hp : t.path? id = some (n :: above)) :
    ∀ r ∈ refsOf (n :: above), t.depth r.node.id = .ok r.depth := by
  induction above generalizing id n with
  | nil =>
    rintro r hr
    obtain rfl := List.mem_singleton.mp hr
    exact depth_of_path? (Forest.id_of_path? hp ▸ hp)
  | cons m up ih =>
    intro r hr
    rcases List.mem_cons.mp hr with rfl | hr
    · exact depth_of_path? (Forest.id_of_path? hp ▸ hp)
    · exact ih (Forest.path?_above hnd hp) r hr

/-- The lineages of a tree are honest. -/
theorem honest_lineageOf (t : NodeTree) (path : List Node) : (t.lineageOf path).Honest := by
  induction path with
  | nil => trivial
  | cons n above ih => exact ⟨by simp [view], ih⟩

end NodeTree

/-! ## §4 Both matchers agree -/

/-- On a node whose ancestors end, and none of which reports too small a depth, a chain gets the verdict of
its selector, with the fast path and without. -/
theorem Host.accepts_of_parse? {N : Type} {h : Host N} {n : N} {above : List N}
    (hn : h.Leads n above) (honest : Lineage.Honest ((n :: above).map h.view)) {text : String}
    {link : ChainLink} (hlink : ChainLink.parse? text = some link) :
    ∃ s, Selector.parse? text = some s ∧ ∀ fast (m : Matcher),
      h.accepts fast link n = some (m.accepts s ((n :: above).map h.view)) := by
  rw [ChainLink.parse?_eq] at hlink
  obtain ⟨s, hs, rfl⟩ := Option.map_eq_some_iff.mp hlink
  refine ⟨s, hs, fun fast m => ?_⟩
  rw [Matcher.accepts_of_honest honest m ⟨fast⟩ s]
  exact Host.matchLink_eq hn fast s.subject s.left false

/-- **The depth fast path never changes a verdict.** Read the links of any text, each with the number of
links that the reader stored in it, and take a node whose ancestors, itself included, report no smaller
depth than they have ancestors: matching ends, with the same verdict with and without the fast path. This
holds for every living node of a reachable tree, whose reference and all references above it report the
depth that the tree gives for their nodes. The verdicts are those of the matchers on the lineage. -/
theorem accepts_fast_eq_slow :
    (∀ {N : Type} (h : Host N) (n : N) (above : List N) (text : String) (link : ChainLink),
      h.Leads n above →
      (∀ m ∈ n :: above, ∀ up, h.Leads m up → up.length ≤ (h.view m).depth) →
      ChainLink.parse? text = some link →
      h.accepts true link n = h.accepts false link n ∧
        ∃ s, Selector.parse? text = some s ∧ ∀ m : Matcher,
          h.accepts m.depthFastPath link n = some (m.accepts s ((n :: above).map h.view))) ∧
    ∀ t : NodeTree, t.Reachable → ∀ id, t.contains id = true →
      ∃ r above, t.ref? id = some r ∧ r.node.id = id ∧ t.host.Leads r above ∧
        (∀ a ∈ r :: above, t.depth a.node.id = .ok a.depth) ∧
        (r :: above).map t.host.view = t.lineage id ∧
        ∀ text link, ChainLink.parse? text = some link →
          t.host.accepts true link r = t.host.accepts false link r ∧
            ∃ s, Selector.parse? text = some s ∧ ∀ m : Matcher,
              t.host.accepts m.depthFastPath link r = some (m.accepts s (t.lineage id)) := by
  constructor
  · intro N h n above text link hn hdepth hlink
    obtain ⟨s, hs, haccepts⟩ := Host.accepts_of_parse? hn (hn.honest hdepth) hlink
    exact ⟨(haccepts true ⟨true⟩).trans (haccepts false ⟨true⟩).symm, s, hs,
      fun m => haccepts m.depthFastPath m⟩
  · intro t hreach id hlive
    have hnd := (NodeTree.wellFormed_of_reachable hreach).nodup_ids
    obtain ⟨n, above, hp, hid⟩ := NodeTree.path?_of_contains hlive
    have hn := NodeTree.leads_refsOf hnd hp
    have hviews : (NodeTree.refsOf (n :: above)).map t.host.view = t.lineage id := by
      simp [NodeTree.map_view_refsOf, NodeTree.lineage, NodeTree.lineage?, hp]
    refine ⟨_, _, NodeTree.ref?_of_path? hp, hid, hn, NodeTree.depth_of_mem_refsOf hnd hp, hviews,
      fun text link hlink => ?_⟩
    have honest := NodeTree.honest_lineageOf t (n :: above)
    rw [← NodeTree.map_view_refsOf] at honest
    obtain ⟨s, hs, haccepts⟩ := Host.accepts_of_parse? hn honest hlink
    refine ⟨(haccepts true ⟨true⟩).trans (haccepts false ⟨true⟩).symm, s, hs, fun m => ?_⟩
    rw [← hviews]
    exact haccepts m.depthFastPath m

/-- A label in two panels, numbered from the outer panel on, which all report twice their true depth. -/
def overstated : Host Nat where
  view k :=
    { tags := [if k = 2 then "label" else "panel"], id := none, autoId := "", classes := [],
      hovered := false, focused := false, active := false, disabled := false, childCount := 0,
      sibling := none, depth := 2 * k }
  parent? k := if k = 0 then none else some (k - 1)

/-- The label is found below the panels with both matchers, and so is the second child of a row. -/
theorem accepts_overstated :
    (∃ link, ChainLink.parse? "Panel > Panel > Label" = some link ∧ overstated.Leads 2 [1, 0] ∧
      (∀ m ∈ [2, 1, 0], ∀ up, overstated.Leads m up → up.length ≤ (overstated.view m).depth) ∧
      overstated.accepts true link 2 = some true ∧ overstated.accepts false link 2 = some true) ∧
    NodeTree.twoChildren.Reachable ∧ NodeTree.twoChildren.contains ⟨3, 1⟩ = true ∧
      ∃ r, NodeTree.twoChildren.ref? ⟨3, 1⟩ = some r ∧ r.depth = 1 := by
  have hroot : overstated.Leads 0 [] := .root rfl
  have hinner : overstated.Leads 1 [0] := .step rfl hroot
  have hlabel : overstated.Leads 2 [1, 0] := .step rfl hinner
  have hdepth : ∀ m ∈ [2, 1, 0], ∀ up, overstated.Leads m up →
      up.length ≤ (overstated.view m).depth := by
    intro m hm up hup
    simp only [List.mem_cons, List.not_mem_nil, or_false] at hm
    rcases hm with rfl | rfl | rfl
    · simp [hup.unique hlabel, overstated]
    · simp [hup.unique hinner, overstated]
    · simp [hup.unique hroot, overstated]
  obtain ⟨s, hs⟩ : ∃ s, Selector.parse? "Panel > Panel > Label" = some s :=
    Option.isSome_iff_exists.mp (by decide)
  have hlink : ChainLink.parse? "Panel > Panel > Label" = some (.ofSelector s) := by
    rw [ChainLink.parse?_eq, hs, Option.map_some]
  obtain ⟨hsame, s', hs', hverdict⟩ :=
    accepts_fast_eq_slow.1 overstated 2 [1, 0] _ _ hlabel hdepth hlink
  have hyes : (Selector.parse? "Panel > Panel > Label").all fun s =>
      (Matcher.mk true).accepts s ([2, 1, 0].map overstated.view) := by decide
  rw [hs'] at hyes
  have hfast : overstated.accepts true (.ofSelector s) 2 = some true :=
    (hverdict ⟨true⟩).trans (congrArg some hyes)
  have hreach : NodeTree.twoChildren.Reachable := ⟨_, rfl⟩
  have hlive : NodeTree.twoChildren.contains ⟨3, 1⟩ = true := by decide
  obtain ⟨r, above, hr, hid, -, hdepths, -⟩ := accepts_fast_eq_slow.2 _ hreach _ hlive
  have hone := hdepths r List.mem_cons_self
  rw [hid] at hone
  have hcount : NodeTree.twoChildren.depth ⟨3, 1⟩ = .ok 1 := by decide
  exact ⟨⟨_, hlink, hlabel, hdepth, hfast, hsame ▸ hfast⟩, hreach, hlive, r, hr,
    Except.ok.inj (hone.symm.trans hcount)⟩

end StyledScene
