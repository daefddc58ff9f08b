import StyledScene.Proofs.Selector.Linked
import StyledScene.Proofs.Text.InPlace

/-!
# Texts one behind the other

A blank between two selector texts keeps them apart: each is lower-cased and cut into tokens by itself.
Their chains are put together link by link (`ChainLink.onto`), the chain of the second text in front. What
reaches across the seam is a `>` at the start of the second text, or between the two: it makes the first
text's subject a direct-child condition.

Main statement: `ChainLink.parse?_joined`. Weights add up, so that what stands in front of a text never
makes the selector lighter, and makes it heavier iff it has any condition.
-/

namespace StyledScene

open Text (lowerChars)

/-! ## §1 Tokens -/

namespace SelectorToken

/-- A blank closes the tokens in front of it. -/
theorem scan_append_blank {blank : Char} (hblank : Text.isBlank blank = true) (cs rest : List Char) :
    scan (cs ++ blank :: rest) = ((scan cs).1, (scan cs).2 ++ ofChars rest) := by
  have hchild : blank ≠ '>' := by
    rintro rfl
    exact absurd hblank (by decide)
  induction cs with
  | nil => simp [scan, hchild, hblank, ofChars]
  | cons c cs ih =>
    -- whatever the character does to the open run, it puts its tokens in front of the others
    simp only [List.cons_append, scan, ih]
    split
    · simp [ChainLink.push_append]
    · split <;> simp [ChainLink.push_append]

theorem ofChars_append_blank {blank : Char} (hblank : Text.isBlank blank = true)
    (cs rest : List Char) : ofChars (cs ++ blank :: rest) = ofChars cs ++ ofChars rest := by
  simp [ofChars, scan_append_blank hblank, ChainLink.push_append]

end SelectorToken

/-! ## §2 Chains of compounds -/

/-- Whether a `>` comes before everything else. -/
def startsWithChild : List SelectorToken → Bool
  | .child :: _ => true
  | _ => false

/-- The compound, as a direct-child condition if the tokens after it start with a `>`. -/
def Compound.before (c : Compound) (tokens : List SelectorToken) : Compound :=
  { c with directChild := c.directChild || startsWithChild tokens }

namespace Selector

/-- What is read after a run does not depend on what stands before it. -/
theorem foldl_extend_append (tokens : List SelectorToken) (c : Compound) (left base : List Compound) :
    tokens.foldl extend (c :: left ++ base) = tokens.foldl extend (c :: left) ++ base := by
  induction tokens generalizing c left with
  | nil => rfl
  | cons token rest ih =>
    cases token with
    | run cs => exact ih (Compound.ofRun cs) (c :: left)
    | child => exact ih { c with directChild := true } left

/-- Reading on from a chain puts the chain of the further tokens in front of it. -/
theorem foldl_extend_cons (tokens : List SelectorToken) (c : Compound) (base : List Compound) :
    tokens.foldl extend (c :: base) = tokens.foldl extend [] ++ c.before tokens :: base := by
  induction tokens generalizing c with
  | nil => simp [Compound.before, startsWithChild]
  | cons token rest ih =>
    cases token with
    | run cs =>
      -- from here on the base is out of reach
      simpa [Compound.before, startsWithChild, extend] using
        foldl_extend_append rest (.ofRun cs) [] (c :: base)
    | child =>
      -- by itself the sign would mean nothing; here it marks what stands in front
      simpa [Compound.before, startsWithChild, extend] using ih { c with directChild := true }

/-- Two sequences of tokens, one behind the other. -/
theorem foldl_extend_both {first second : List SelectorToken} {c d : Compound}
    {left above : List Compound} (hfirst : first.foldl extend [] = c :: left)
    (hsecond : second.foldl extend [] = d :: above) :
    (first ++ second).foldl extend [] = d :: above ++ c.before second :: left := by
  rw [List.foldl_append, hfirst, foldl_extend_cons, hsecond]

end Selector

/-! ## §3 Linked chains -/

namespace ChainLink

/-- The chain with another one to its left. -/
def onto (base : ChainLink) : ChainLink → ChainLink
  | leftmost c d => joined c (d + base.length) base
  | joined c d next => joined c (d + base.length) (onto base next)

/-- The weight of a link and of those to its left, link by link. -/
def weight : ChainLink → Nat
  | leftmost c _ => c.weight
  | joined c _ next => c.weight + next.weight

theorem onto_ofCompounds (c d : Compound) (left above : List Compound) :
    (ofCompounds c left).onto (ofCompounds d above) = ofCompounds d (above ++ c :: left) := by
  induction above generalizing d with
  | nil => simp [onto, ofCompounds, length]
  | cons e above ih =>
    simp [onto, ofCompounds, length, ih]
    omega

theorem links_onto (base l : ChainLink) :
    ∃ front, (base.onto l).links = front ++ base.links ∧
      front.map (fun x => (x.compound, x.depth)) =
        l.links.map fun x => (x.compound, x.depth + base.length) := by
  induction l with
  | leftmost c d => exact ⟨[joined c (d + base.length) base], rfl, rfl⟩
  | joined c d next ih =>
    obtain ⟨front, hlinks, hfront⟩ := ih
    refine ⟨joined c (d + base.length) (base.onto next) :: front, ?_, ?_⟩
    · simp [onto, links, hlinks]
    · show (c, d + base.length) :: front.map _ = (c, d + base.length) :: next.links.map _
      rw [hfront]

theorem length_links (s : Selector) : (ofSelector s).links.length = (ofSelector s).length := by
  obtain ⟨c, left⟩ := s
  induction left generalizing c with
  | nil => rfl
  | cons d left ih =>
    simp only [ofSelector, length, depth_ofCompounds] at ih ⊢
    simp [ofCompounds, links, ih]

theorem length_onto (base l : ChainLink) : (base.onto l).length = base.length + l.length := by
  cases l <;> simp only [onto, length, depth] <;> omega

theorem weight_onto (base l : ChainLink) : (base.onto l).weight = base.weight + l.weight := by
  induction l with
  | leftmost c d => simp [onto, weight, Nat.add_comm]
  | joined c d next ih =>
    simp only [onto, weight, ih]
    omega

theorem weight_ofSelector (s : Selector) : (ofSelector s).weight = s.weight := by
  obtain ⟨c, left⟩ := s
  induction left generalizing c with
  | nil => simp [ofSelector, ofCompounds, weight, Selector.weight, Selector.compounds]
  | cons d left ih =>
    have hrest := ih d
    simp_all [ofSelector, ofCompounds, weight, Selector.weight, Selector.compounds]

end ChainLink

/-! ## §4 Weights -/

theorem PseudoState.weight_pos (p : PseudoState) : 0 < p.weight := by
  cases p <;> decide

theorem PseudoSet.weight_eq_zero_iff (s : PseudoSet) : PseudoSet.weight s = 0 ↔ s.isEmpty = true := by
  rw [← FlagSet.toList_eq_nil_iff, PseudoSet.weight]
  cases s.toList with
  | nil => simp
  | cons p rest => simp [Nat.ne_of_gt p.weight_pos]

/-- Only a compound without conditions weighs nothing. -/
theorem Compound.weight_eq_zero_iff (c : Compound) : c.weight = 0 ↔ c.isUniversal = true := by
  obtain ⟨tag, id, classes, pseudo, directChild⟩ := c
  have hclasses : classWeight * classes.length = 0 ↔ classes = [] := by
    rw [Nat.mul_eq_zero, List.length_eq_zero_iff]
    exact or_iff_right (by decide)
  cases tag <;> cases id <;>
    simp [weight, isUniversal, tagWeight, idWeight, hclasses, PseudoSet.weight_eq_zero_iff, and_comm]

namespace ChainLink

theorem weight_eq_zero_iff (l : ChainLink) :
    l.weight = 0 ↔ ∀ x ∈ l.links, x.compound.isUniversal = true := by
  induction l with
  | leftmost c d => simp [weight, links, compound, Compound.weight_eq_zero_iff]
  | joined c d next ih =>
    simp only [weight, links, List.forall_mem_cons, Nat.add_eq_zero_iff, ih, Compound.weight_eq_zero_iff]
    rfl

/-! ## §5 The chain of two texts -/

/-- The chain, with its first link as a direct-child condition if so told. -/
def marked (l : ChainLink) (direct : Bool) : ChainLink := if direct then l.markDirect else l

theorem marked_ofSelector (s : Selector) (tokens : List SelectorToken) :
    (ofSelector s).marked (startsWithChild tokens) = ofCompounds (s.subject.before tokens) s.left := by
  unfold marked Compound.before
  split <;> simp_all [ofSelector, markDirect_ofCompounds]

section Marked

variable (l : ChainLink) (direct : Bool)

theorem length_links_marked : (l.marked direct).links.length = l.links.length := by
  cases direct <;> cases l <;> rfl

theorem length_marked : (l.marked direct).length = l.length := by
  cases direct <;> cases l <;> rfl

theorem weight_marked : (l.marked direct).weight = l.weight := by
  cases direct <;> cases l <;> rfl

end Marked

/-- How the chain of two texts is made of the chains of both. -/
structure Joined (direct : Bool) (first second joined : ChainLink) : Prop where
  /-- The links of the second text come first, with all links of the first text below them; behind them
  are the links of the first text. -/
  links : ∃ front, joined.links = front ++ (first.marked direct).links ∧
    front.map (fun x => (x.compound, x.depth)) =
      second.links.map fun x => (x.compound, x.depth + first.links.length)
  /-- All that may have changed in them is one flag of the subject. -/
  seam : (first.marked direct).links.tail = first.links.tail ∧
    (first.marked direct).depth = first.depth ∧
    (first.marked direct).compound =
      { first.compound with directChild := first.compound.directChild || direct }
  count : joined.links.length = first.links.length + second.links.length
  length : joined.length = first.length + second.length
  weight : joined.weight = first.weight + second.weight
  /-- What stands in front raises the weight iff it has a condition. -/
  raises : second.weight < joined.weight ↔ ∃ x ∈ first.links, x.compound.isUniversal = false

theorem joined_onto (direct : Bool) (a b : Selector) :
    Joined direct (ofSelector a) (ofSelector b)
      (((ofSelector a).marked direct).onto (ofSelector b)) where
  links := by
    have hlinks := links_onto ((ofSelector a).marked direct) (ofSelector b)
    rwa [length_marked, ← length_links] at hlinks
  seam := by
    cases direct with
    | false => simp [marked]
    | true => cases ofSelector a <;> simp [marked, markDirect, ChainLink.links, depth, compound]
  count := by
    obtain ⟨front, hlinks, hfront⟩ := links_onto ((ofSelector a).marked direct) (ofSelector b)
    have hlength := congrArg List.length hfront
    simp only [List.length_map] at hlength
    simp [hlinks, hlength, length_links_marked, Nat.add_comm]
  length := by rw [length_onto, length_marked]
  weight := by rw [weight_onto, weight_marked]
  raises := by
    have hzero := weight_eq_zero_iff (ofSelector a)
    rw [weight_onto, weight_marked, Nat.lt_add_left_iff_pos, Nat.pos_iff_ne_zero, Ne, hzero]
    simp

/-- The text has a chain, with the weight of its selector, that is made of the two. -/
def ReadsJoined (text : String) (direct : Bool) (first second : ChainLink) : Prop :=
  ∃ s, Selector.parse? text = some s ∧ parse? text = some (ofSelector s) ∧
    (ofSelector s).weight = s.weight ∧ Joined direct first second (ofSelector s)

/-- A text whose tokens are those of two texts has the chain of both. -/
theorem readsJoined {text : String} {first second : List SelectorToken} {a b : Selector}
    (htext : tokens (lowerChars text.toList) = first ++ second)
    (hfirst : first.foldl Selector.extend [] = a.compounds)
    (hsecond : second.foldl Selector.extend [] = b.compounds) :
    ReadsJoined text (startsWithChild second) (ofSelector a) (ofSelector b) := by
  let s : Selector := ⟨b.subject, b.left ++ a.subject.before second :: a.left⟩
  have hread : Selector.parse? text = some s := by
    have hboth := Selector.foldl_extend_both hfirst hsecond
    rw [tokens_eq] at htext
    simp [Selector.parse?, Selector.ofChars?, Selector.ofLowerChars?, htext, hboth,
      Selector.ofCompounds?, s]
  have hchain : ofSelector s =
      ((ofSelector a).marked (startsWithChild second)).onto (ofSelector b) := by
    rw [marked_ofSelector]
    exact (onto_ofCompounds ..).symm
  refine ⟨s, hread, by simp [parse?_eq, hread], weight_ofSelector s, ?_⟩
  rw [hchain]
  exact joined_onto _ a b

/-- The tokens of a text that has a chain make up the compounds of the chain. -/
theorem exists_compounds {text : String} {l : ChainLink} (h : parse? text = some l) :
    ∃ s, l = ofSelector s ∧
      (tokens (lowerChars text.toList)).foldl Selector.extend [] = s.compounds := by
  rw [parse?_eq, Option.map_eq_some_iff] at h
  obtain ⟨s, hs, rfl⟩ := h
  refine ⟨s, rfl, ?_⟩
  rw [Selector.parse?, Selector.ofChars?, Selector.ofLowerChars?, ← tokens_eq] at hs
  cases hchain : (tokens (lowerChars text.toList)).foldl Selector.extend [] with
  | nil => simp [hchain, Selector.ofCompounds?] at hs
  | cons c left =>
    obtain rfl : ⟨c, left⟩ = s := by simpa [hchain, Selector.ofCompounds?] using hs
    rfl

theorem tokens_append_blank (first second : List Char) :
    tokens (lowerChars (first ++ ' ' :: second)) =
      tokens (lowerChars first) ++ tokens (lowerChars second) := by
  have hends : Text.EndsLook ' ' := ⟨by decide, by decide⟩
  have hblank : Text.isBlank ' ' = true := by decide
  have hlow : Text.IsLow ' ' := (Text.isSign_of_isBlank hblank).isLow
  rw [hends.lowerChars_append hlow, tokens_eq, tokens_eq, tokens_eq,
    SelectorToken.ofChars_append_blank hblank]

/-- **Texts one behind the other.** Two texts with chains have a chain together, with a blank or a `>`
between them, and it is made of theirs. A `>` in between always makes the first text's subject a
direct-child condition, and a blank does so iff the second text starts with a `>`. -/
theorem parse?_joined {a b : String} {first second : ChainLink} (ha : parse? a = some first)
    (hb : parse? b = some second) :
    ReadsJoined (a ++ " " ++ b) (startsWithChild (tokens (lowerChars b.toList))) first second ∧
      ReadsJoined (a ++ " > " ++ b) true first second := by
  obtain ⟨sa, rfl, hfirst⟩ := exists_compounds ha
  obtain ⟨sb, rfl, hsecond⟩ := exists_compounds hb
  have hsign : tokens (lowerChars ['>']) = [.child] := by
    rw [tokens_eq]
    rfl
  constructor
  · apply readsJoined _ hfirst hsecond
    simpa using tokens_append_blank a.toList b.toList
  · have htext : tokens (lowerChars (a ++ " > " ++ b).toList) =
        tokens (lowerChars a.toList) ++ .child :: tokens (lowerChars b.toList) := by
      have hseam := tokens_append_blank ['>'] b.toList
      have hwhole := tokens_append_blank a.toList (['>'] ++ ' ' :: b.toList)
      rw [hseam, hsign] at hwhole
      simpa using hwhole
    exact readsJoined htext hfirst hsecond

/-- The second text starts with a `>`, so a blank in between does as much as another one. -/
theorem parse?_joined_panelRow :
    let panel := leftmost { Compound.universal with tag := some "panel" } 0
    let row := leftmost { Compound.universal with classes := ["row"] } 0
    parse? "Panel" = some panel ∧ parse? "> .Row" = some row ∧
      ReadsJoined ("Panel" ++ " " ++ "> .Row")
        (startsWithChild (tokens (lowerChars "> .Row".toList))) panel row ∧
      ReadsJoined ("Panel" ++ " > " ++ "> .Row") true panel row := by
  intro panel row
  have hpanel : parse? "Panel" = some panel := by
    rw [parse?_eq]
    decide
  have hrow : parse? "> .Row" = some row := by
    rw [parse?_eq]
    decide
  exact ⟨hpanel, hrow, parse?_joined hpanel hrow⟩

end ChainLink

end StyledScene
