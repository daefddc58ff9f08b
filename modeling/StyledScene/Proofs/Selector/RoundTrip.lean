import Mathlib.Data.List.Sort
import StyledScene.Proofs.Selector.Grammar
import StyledScene.Proofs.Selector.Hosts
import StyledScene.Proofs.Text.SmallForms

/-!
# Selector texts

The text of a selector that has been read reads as that selector again, except that a sign after the last
run of a text is not written: it made the subject a direct-child condition, which no matcher asks for
(`Selector.parse?_toText`).

Two things carry the proof. A compound that has been read is readable (`Compound.Readable`): its names are
not empty, hold no separator and no marker, and are low already. And the text of a readable compound is a
run whose cut holds just the names of the compound, so that what the run says is the compound itself.
-/

namespace StyledScene

/-! ## §1 Readable compounds -/

/-- A character that a run of a lower-case text can hold. -/
def IsPlain (c : Char) : Prop := Text.IsLow c ∧ isSeparator c = false

instance : DecidablePred IsPlain := fun _ => inferInstanceAs (Decidable (_ ∧ _))

/-- A piece of such a run that stands for a name. -/
structure IsName (cs : List Char) : Prop where
  ne_nil : cs ≠ []
  plain : ∀ c ∈ cs, IsPlain c
  unmarked : ∀ c ∈ cs, ∀ m : Marker, c ≠ m.sign

namespace Compound

/-- A compound that a run can describe. -/
structure Readable (c : Compound) : Prop where
  tag : ∀ name, c.tag = some name → IsName name.toList ∧ name.toList ≠ ['*']
  id : ∀ name, c.id = some name → IsName name.toList
  classes : ∀ name ∈ c.classes, IsName name.toList
  classes_ascend : c.classes.Pairwise (· < ·)

/-- What a run says is readable. -/
theorem Reads.readable {c : Compound} {run first : List Char} {marked : List (Marker × List Char)}
    (hrun : ∀ x ∈ run, IsPlain x) (hcut : IsCut run first marked) (h : c.Reads first marked) :
    c.Readable := by
  have hfirst : ∀ x ∈ first, IsPlain x := by
    intro x hx
    apply hrun
    simp [hcut.whole, hx]
  have hmarked : ∀ p ∈ marked, p.2 ≠ [] → IsName p.2 := by
    intro p hp hne
    refine ⟨hne, fun x hx => hrun x ?_, hcut.plain p hp⟩
    rw [hcut.whole, List.mem_append, List.mem_flatMap]
    exact .inr ⟨p, hp, List.mem_cons_of_mem _ hx⟩
  refine ⟨fun name hname => ?_, fun name hname => ?_, fun name hname => ?_, h.classes_ascend⟩
  · rw [h.tag] at hname
    split at hname
    · simp at hname
    · rename_i hnot
      rw [not_or] at hnot
      obtain rfl := Option.some.inj hname
      rw [String.toList_ofList]
      exact ⟨⟨hnot.1, hfirst, hcut.first_plain⟩, hnot.2⟩
  · rw [h.id, Option.map_eq_some_iff] at hname
    obtain ⟨p, hlast, rfl⟩ := hname
    have hp := List.mem_filter.mp (List.mem_of_getLast? hlast)
    simp only [decide_eq_true_eq] at hp
    simpa using hmarked p hp.1 hp.2.2
  · obtain ⟨p, hp, -, hne, rfl⟩ := (h.mem_classes name).mp hname
    simpa using hmarked p hp hne

/-- A run says one thing only: two compounds that it describes have the same conditions. -/
theorem Reads.unique {c d : Compound} {first : List Char} {marked : List (Marker × List Char)}
    (hc : c.Reads first marked) (hd : d.Reads first marked) :
    c = { d with directChild := c.directChild } := by
  have hclasses : c.classes = d.classes := by
    -- both are ascending, so the same names stand in the same order
    have : Std.Irrefl fun a b : String => a < b := ⟨String.lt_irrefl⟩
    have : Std.Antisymm fun a b : String => a < b :=
      ⟨fun _ _ hab hba => absurd hba (String.lt_asymm hab)⟩
    apply hc.classes_ascend.eq_of_mem_iff hd.classes_ascend
    simp [hc.mem_classes, hd.mem_classes]
  have hpseudo : c.pseudo = d.pseudo := by
    apply FlagSet.ext_contains
    simp [Bool.eq_iff_iff, hc.contains_pseudo, hd.contains_pseudo]
  have htag : c.tag = d.tag := hc.tag.trans hd.tag.symm
  have hid : c.id = d.id := hc.id.trans hd.id.symm
  cases c
  simp_all

/-! ## §2 The text of a compound -/

/-- What stands before the first marker in the text of a compound. -/
def firstPiece (c : Compound) : List Char :=
  match c.tag with
  | some tag => tag.toList
  | none => if c.isUniversal then ['*'] else []

/-- The names behind markers in the text of a compound. -/
def markedPieces (c : Compound) : List (Marker × List Char) :=
  c.id.toList.map (fun name => (.id, name.toList)) ++
    c.classes.map (fun name => (.className, name.toList)) ++
    c.pseudo.toList.map fun p => (.pseudo, p.name.toList)

theorem toChars_eq (c : Compound) :
    c.toChars = c.firstPiece ++ c.markedPieces.flatMap fun p => p.1.sign :: p.2 := by
  cases htag : c.tag <;> cases hid : c.id <;>
    simp [toChars, firstPiece, markedPieces, htag, hid, List.flatMap_map, Marker.sign]

end Compound

/-- The names of the pseudo-states are names. -/
theorem PseudoState.isName (p : PseudoState) : IsName p.name.toList := by
  have hall : (p.name.toList.all fun c => IsPlain c ∧ Marker.ofChar? c = none) = true := by
    cases p <;> decide
  have hchars (c : Char) (hc : c ∈ p.name.toList) : IsPlain c ∧ Marker.ofChar? c = none := by
    simpa using List.all_eq_true.mp hall c hc
  refine ⟨?_, fun c hc => (hchars c hc).1, fun c hc => ?_⟩
  · cases p <;> simp [PseudoState.name]
  · exact Marker.ofChar?_eq_none_iff.mp (hchars c hc).2

theorem PseudoState.ofName?_name (p : PseudoState) : ofName? p.name = some p := by
  cases p <;> rfl

namespace Compound

variable {c : Compound}

theorem mem_markedPieces {p : Marker × List Char} :
    p ∈ c.markedPieces ↔ (∃ name, c.id = some name ∧ (.id, name.toList) = p) ∨
      (∃ name ∈ c.classes, (.className, name.toList) = p) ∨
      ∃ f, c.pseudo.contains f = true ∧ (.pseudo, f.name.toList) = p := by
  simp [markedPieces]

/-- All pieces behind markers are names. -/
theorem Readable.isName_of_mem (h : c.Readable) {p : Marker × List Char} (hp : p ∈ c.markedPieces) :
    IsName p.2 := by
  rcases mem_markedPieces.mp hp with ⟨name, hname, rfl⟩ | ⟨name, hname, rfl⟩ | ⟨f, -, rfl⟩
  · exact h.id name hname
  · exact h.classes name hname
  · exact f.isName

/-- The piece in front is a name or a star, or there is none. -/
theorem Readable.firstPiece_cases (h : c.Readable) :
    (∃ name, c.tag = some name ∧ c.firstPiece = name.toList ∧ IsName name.toList ∧
      name.toList ≠ ['*']) ∨ c.tag = none ∧ (c.firstPiece = ['*'] ∨ c.firstPiece = [] ∧
        c.isUniversal = false) := by
  cases htag : c.tag with
  | some name => exact .inl ⟨name, rfl, by simp [firstPiece, htag], h.tag name htag⟩
  | none => cases hall : c.isUniversal <;> simp [firstPiece, htag, hall]

/-- The text of a compound is cut into its names. -/
theorem Readable.isCut_toChars (h : c.Readable) : IsCut c.toChars c.firstPiece c.markedPieces := by
  refine ⟨toChars_eq c, ?_, fun p hp => (h.isName_of_mem hp).unmarked⟩
  rcases h.firstPiece_cases with ⟨name, -, hfirst, hname, -⟩ | ⟨-, hfirst | ⟨hfirst, -⟩⟩
  · simpa [hfirst] using hname.unmarked
  · rw [hfirst]
    intro x hx m
    obtain rfl := List.mem_singleton.mp hx
    cases m <;> decide
  · simp [hfirst]

/-- What the text of a compound says is what the compound requires. -/
theorem Readable.reads (h : c.Readable) : c.Reads c.firstPiece c.markedPieces := by
  refine ⟨?_, ?_, h.classes_ascend, fun name => ?_, fun f => ?_⟩
  · rcases h.firstPiece_cases with ⟨name, htag, hfirst, hname, hstar⟩ | ⟨htag, hfirst⟩
    · simp [htag, hfirst, hname.ne_nil, hstar]
    · rcases hfirst with hfirst | ⟨hfirst, -⟩ <;> simp [htag, hfirst]
  · -- the id is the only piece behind a `#`
    have honly : c.markedPieces.filter (fun p => p.1 = .id ∧ p.2 ≠ []) =
        c.id.toList.map fun name => (.id, name.toList) := by
      cases hid : c.id with
      | none => simp [markedPieces, hid]
      | some name =>
        have hne : name ≠ "" := by simpa using (h.id name hid).ne_nil
        simp [markedPieces, hid, hne]
    rw [honly]
    cases c.id <;> simp
  · -- the classes are the pieces behind a dot
    constructor
    · intro hname
      refine ⟨(.className, name.toList), ?_, rfl, (h.classes name hname).ne_nil, by simp⟩
      exact mem_markedPieces.mpr (.inr (.inl ⟨name, hname, rfl⟩))
    · rintro ⟨p, hp, hclass, -, rfl⟩
      rcases mem_markedPieces.mp hp with ⟨name, -, rfl⟩ | ⟨name, hname, rfl⟩ | ⟨g, -, rfl⟩
      · simp at hclass
      · simpa using hname
      · simp at hclass
  · -- the pseudo-states are those whose names stand behind a colon
    constructor
    · intro hf
      refine ⟨(.pseudo, f.name.toList), ?_, rfl, by simp [PseudoState.ofName?_name]⟩
      exact mem_markedPieces.mpr (.inr (.inr ⟨f, hf, rfl⟩))
    · rintro ⟨p, hp, hpseudo, hread⟩
      rcases mem_markedPieces.mp hp with ⟨name, -, rfl⟩ | ⟨name, -, rfl⟩ | ⟨g, hg, rfl⟩
      · simp at hpseudo
      · simp at hpseudo
      · obtain rfl : g = f := by simpa [PseudoState.ofName?_name] using hread
        exact hg

/-- **The text of a compound** reads as the compound, which no run makes a direct-child condition. -/
theorem Readable.ofRun_toChars (h : c.Readable) : ofRun c.toChars = { c with directChild := false } := by
  have hread := (reads_ofRun h.isCut_toChars).unique h.reads
  rwa [directChild_ofRun] at hread

/-- The text of a compound is a run of a lower-case text. -/
theorem Readable.plain_toChars (h : c.Readable) : ∀ x ∈ c.toChars, IsPlain x := by
  intro x hx
  rw [toChars_eq, List.mem_append, List.mem_flatMap] at hx
  rcases hx with hx | ⟨p, hp, hx⟩
  · rcases h.firstPiece_cases with ⟨name, -, hfirst, hname, -⟩ | ⟨-, hfirst | ⟨hfirst, -⟩⟩
    · exact hname.plain x (hfirst ▸ hx)
    · obtain rfl : x = '*' := by simpa [hfirst] using hx
      decide
    · simp [hfirst] at hx
  · rcases List.mem_cons.mp hx with rfl | hx
    · cases p.1 <;> decide
    · exact (h.isName_of_mem hp).plain x hx

/-- There is something in the text of every compound: a star if it has no conditions. -/
theorem Readable.toChars_ne_nil (h : c.Readable) : c.toChars ≠ [] := by
  rcases h.firstPiece_cases with ⟨name, -, hfirst, hname, -⟩ | ⟨htag, hfirst | ⟨-, hsome⟩⟩
  · simp [toChars_eq, hfirst, hname.ne_nil]
  · simp [toChars_eq, hfirst]
  · intro hnil
    have hnone : c.markedPieces = [] := by
      apply List.eq_nil_iff_forall_not_mem.mpr
      intro p hp
      simp only [toChars_eq, List.append_eq_nil_iff, List.flatMap_eq_nil_iff] at hnil
      simpa using hnil.2 p hp
    simp only [markedPieces, List.append_eq_nil_iff, List.map_eq_nil_iff, Option.toList_eq_nil_iff,
      FlagSet.toList_eq_nil_iff] at hnone
    simp [isUniversal, htag, hnone] at hsome

end Compound

/-! ## §3 The text of a chain -/

namespace Selector

/-- What is written after a compound that is not the last. -/
def gapOf (c : Compound) : List Char := if c.directChild then [' ', '>', ' '] else [' ']

/-- The stretches in the text of a chain, in reading order. -/
def stretchesOf (c : Compound) (left : List Compound) : List Stretch :=
  (left.map fun next => ⟨next.toChars, gapOf next⟩).reverse ++ [⟨c.toChars, []⟩]

theorem charsOf_eq (c : Compound) (left : List Compound) :
    charsOf c left = (stretchesOf c left).flatMap fun s => s.run ++ s.gap := by
  induction left generalizing c with
  | nil => simp [charsOf, stretchesOf]
  | cons next rest ih => simp [charsOf, ih, stretchesOf, gapOf]

theorem gapOf_cases (c : Compound) : gapOf c = [' ', '>', ' '] ∨ gapOf c = [' '] := by
  cases h : c.directChild <;> simp [gapOf, h]

/-- Every stretch is the text of a compound and what is written after it. -/
theorem exists_of_mem_stretchesOf {c : Compound} {left : List Compound} {s : Stretch}
    (h : s ∈ stretchesOf c left) :
    ∃ d ∈ c :: left, s.run = d.toChars ∧ (s.gap = gapOf d ∨ s.gap = []) := by
  simp only [stretchesOf, List.mem_append, List.mem_reverse, List.mem_map, List.mem_singleton] at h
  rcases h with ⟨next, hnext, rfl⟩ | rfl
  · exact ⟨next, by simp [hnext], rfl, .inl rfl⟩
  · exact ⟨c, by simp, rfl, .inr rfl⟩

/-- The gaps are made of separators that lower-casing leaves alone. -/
theorem separates_of_mem_stretchesOf {c : Compound} {left : List Compound} {s : Stretch}
    (h : s ∈ stretchesOf c left) : ∀ x ∈ s.gap, isSeparator x = true ∧ Text.IsLow x := by
  have hblank : isSeparator ' ' = true ∧ Text.IsLow ' ' := by decide
  have hsign : isSeparator '>' = true ∧ Text.IsLow '>' := by decide
  obtain ⟨d, -, -, hgap | hgap⟩ := exists_of_mem_stretchesOf h
  · rcases gapOf_cases d with hd | hd <;> simp [hgap, hd, hblank, hsign]
  · simp [hgap]

/-- The text of readable compounds is laid out in the texts of each. -/
theorem isLayout_charsOf {c : Compound} {left : List Compound}
    (hreadable : ∀ d ∈ c :: left, d.Readable) :
    IsLayout (charsOf c left) [] (stretchesOf c left) := by
  refine ⟨charsOf_eq c left, by simp, fun s hs => ?_, fun s hs => ?_, fun s hs x hx => ?_, ?_⟩
  · obtain ⟨d, hd, hrun, -⟩ := exists_of_mem_stretchesOf hs
    simpa [hrun] using (hreadable d hd).toChars_ne_nil
  · obtain ⟨d, hd, hrun, -⟩ := exists_of_mem_stretchesOf hs
    intro x hx
    exact ((hreadable d hd).plain_toChars x (hrun ▸ hx)).2
  · exact (separates_of_mem_stretchesOf hs x hx).1
  · -- only the last compound has nothing after it
    intro s hs
    simp only [stretchesOf, List.dropLast_concat, List.mem_reverse, List.mem_map] at hs
    obtain ⟨next, -, rfl⟩ := hs
    rcases gapOf_cases next with h | h <;> simp [h]

/-- The text of readable compounds is its own lower-case form. -/
theorem lowerChars_charsOf {c : Compound} {left : List Compound}
    (hreadable : ∀ d ∈ c :: left, d.Readable) :
    Text.lowerChars (charsOf c left) = charsOf c left := by
  apply Text.lowerChars_of_isLow
  intro x hx
  rw [charsOf_eq, List.mem_flatMap] at hx
  obtain ⟨s, hs, hx⟩ := hx
  rcases List.mem_append.mp hx with hx | hx
  · obtain ⟨d, hd, hrun, -⟩ := exists_of_mem_stretchesOf hs
    exact ((hreadable d hd).plain_toChars x (hrun ▸ hx)).1
  · exact (separates_of_mem_stretchesOf hs x hx).2

/-- The selector, with a subject that is no direct-child condition. -/
def withoutLastSign (s : Selector) : Selector :=
  { s with subject := { s.subject with directChild := false } }

/-- A compound is read from its text and the gap after it. -/
theorem compound_stretch {d : Compound} (h : d.Readable) :
    Stretch.compound ⟨d.toChars, gapOf d⟩ = d := by
  rw [Stretch.compound, h.ofRun_toChars]
  obtain ⟨tag, id, classes, pseudo, _ | _⟩ := d <;> simp [gapOf]

/-- The text of readable compounds is read compound by compound. -/
theorem ofLowerChars?_charsOf {c : Compound} {left : List Compound}
    (hreadable : ∀ d ∈ c :: left, d.Readable) :
    ofLowerChars? (charsOf c left) = some (withoutLastSign ⟨c, left⟩) := by
  obtain ⟨hc, hleft⟩ := List.forall_mem_cons.mp hreadable
  have hsubject : Stretch.compound ⟨c.toChars, []⟩ = { c with directChild := false } := by
    simp [Stretch.compound, hc.ofRun_toChars]
  have hrest : left.map (fun next => Stretch.compound ⟨next.toChars, gapOf next⟩) = left :=
    (List.map_congr_left fun next hnext => compound_stretch (hleft next hnext)).trans left.map_id'
  simp [ofLowerChars?_of_layout (isLayout_charsOf hreadable), stretchesOf, hsubject, hrest,
    Function.comp_def, ofCompounds?, withoutLastSign]

/-- What is read from a text is readable. -/
theorem readable_of_parse? {text : String} {s : Selector} (h : parse? text = some s) :
    ∀ d ∈ s.subject :: s.left, d.Readable := by
  obtain ⟨lead, stretches, hlayout⟩ := exists_layout (Text.lowerChars text.toList)
  have hread : ofCompounds? (stretches.map Stretch.compound).reverse = some s := by
    rw [← ofLowerChars?_of_layout hlayout]
    exact h
  intro d hd
  have hmem : d ∈ (stretches.map Stretch.compound).reverse := by
    cases hchain : (stretches.map Stretch.compound).reverse with
    | nil => simp [hchain, ofCompounds?] at hread
    | cons c left =>
      simp only [hchain, ofCompounds?, Option.some.injEq] at hread
      simpa [← hread] using hd
  simp only [List.mem_reverse, List.mem_map] at hmem
  obtain ⟨stretch, hstretch, rfl⟩ := hmem
  obtain ⟨first, marked, hcut, hreads⟩ := Compound.describes_compound stretch
  apply hreads.readable _ hcut
  intro x hx
  have hmem : x ∈ Text.lowerChars text.toList := by
    rw [hlayout.whole, List.mem_append, List.mem_flatMap]
    exact .inr ⟨stretch, hstretch, by simp [hx]⟩
  exact ⟨Text.isLow_of_mem_lowerChars hmem, hlayout.run_plain stretch hstretch x hx⟩

/-! ## §4 The last sign -/

variable (s : Selector)

theorem withoutLastSign_eq_iff : s.withoutLastSign = s ↔ s.subject.directChild = false := by
  obtain ⟨⟨tag, id, classes, pseudo, directChild⟩, left⟩ := s
  simp [withoutLastSign, eq_comm]

theorem weight_withoutLastSign : s.withoutLastSign.weight = s.weight := rfl

theorem toText_withoutLastSign : s.withoutLastSign.toText = s.toText := by
  obtain ⟨c, left⟩ := s
  cases left <;> rfl

/-- The subject is tried at one node only, so that no matcher asks for its sign. -/
theorem accepts_withoutLastSign (m : Matcher) (lineage : Lineage) :
    m.accepts s.withoutLastSign lineage = m.accepts s lineage := by
  cases lineage with
  | nil => rfl
  | cons v above =>
    simp only [Matcher.accepts, Matcher.climb_cons, withoutLastSign, Bool.false_and]
    rfl

end Selector

namespace ChainLink

variable (s : Selector)

@[simp] theorem next?_withoutLastSign :
    (ofSelector s.withoutLastSign).next? = (ofSelector s).next? := by
  obtain ⟨c, left⟩ := s
  cases left <;> rfl

@[simp] theorem depth_withoutLastSign :
    (ofSelector s.withoutLastSign).depth = (ofSelector s).depth := by
  simp [ofSelector, Selector.withoutLastSign]

@[simp] theorem compound_withoutLastSign : (ofSelector s.withoutLastSign).compound =
    { (ofSelector s).compound with directChild := false } := by
  simp [ofSelector, Selector.withoutLastSign]

theorem ofSelector_withoutLastSign_eq_iff :
    ofSelector s.withoutLastSign = ofSelector s ↔ (ofSelector s).compound.directChild = false := by
  constructor
  · intro h
    rw [← h, compound_withoutLastSign]
  · intro h
    rw [(Selector.withoutLastSign_eq_iff s).mpr (by simpa [ofSelector] using h)]

/-- The same in every host, also where the ancestors do not end. -/
theorem accepts_withoutLastSign {N : Type} (h : Host N) (fast : Bool) (n : N) :
    h.accepts fast (ofSelector s.withoutLastSign) n = h.accepts fast (ofSelector s) n := by
  rw [Host.accepts, Host.accepts, Host.matchLink, Host.matchLink]
  simp only [next?_withoutLastSign, depth_withoutLastSign, compound_withoutLastSign, Bool.not_false,
    Bool.true_or, if_true]
  rfl

end ChainLink

/-! ## §5 Selectors and their texts -/

namespace Selector

/-- **The text of a selector.** Take any text that reads as a selector. The text of the selector reads as
the same selector, except that its subject is no direct-child condition. So it is the very same selector
iff its subject was none before, and always one with the same weight, length, text and matches. -/
theorem parse?_toText {text : String} {s : Selector} (h : parse? text = some s) :
    ∃ s', parse? s.toText = some s' ∧
      s'.left = s.left ∧ s'.subject = { s.subject with directChild := false } ∧
      (s' = s ↔ s.subject.directChild = false) ∧
      s'.weight = s.weight ∧ s'.length = s.length ∧ s'.toText = s.toText ∧
      (∀ (m : Matcher) lineage, m.accepts s' lineage = m.accepts s lineage) ∧
      ∃ link link', ChainLink.parse? text = some link ∧ ChainLink.parse? s.toText = some link' ∧
        link'.next? = link.next? ∧ link'.depth = link.depth ∧
        link'.compound = { link.compound with directChild := false } ∧
        (link' = link ↔ link.compound.directChild = false) ∧
        ∀ (N : Type) (host : Host N) fast n,
          host.accepts fast link' n = host.accepts fast link n := by
  have hreadable := readable_of_parse? h
  have hread : parse? s.toText = some s.withoutLastSign := by
    rw [parse?, ofChars?, toText, String.toList_ofList, lowerChars_charsOf hreadable]
    exact ofLowerChars?_charsOf hreadable
  refine ⟨s.withoutLastSign, hread, rfl, rfl, withoutLastSign_eq_iff s, weight_withoutLastSign s, rfl,
    toText_withoutLastSign s, accepts_withoutLastSign s, ?_⟩
  refine ⟨ChainLink.ofSelector s, ChainLink.ofSelector s.withoutLastSign, ?_, ?_, ?_⟩
  · simp [ChainLink.parse?_eq, h]
  · simp [ChainLink.parse?_eq, hread]
  · exact ⟨ChainLink.next?_withoutLastSign s, ChainLink.depth_withoutLastSign s,
      ChainLink.compound_withoutLastSign s, ChainLink.ofSelector_withoutLastSign_eq_iff s,
      fun N host fast n => ChainLink.accepts_withoutLastSign s host fast n⟩

/-- A star with classes is not written, classes are written in order, and the last sign is dropped. -/
theorem parse?_toText_lastSign :
    ∃ s s', parse? "Panel > *.b.a:FirstChild >" = some s ∧
      s.toText = "panel > .a.b:first-child" ∧ parse? s.toText = some s' ∧ s' ≠ s ∧
      s'.toText = s.toText := by
  obtain ⟨s, hs⟩ : ∃ s, parse? "Panel > *.b.a:FirstChild >" = some s :=
    Option.isSome_iff_exists.mp (by decide)
  have hboth : (parse? "Panel > *.b.a:FirstChild >").all fun s =>
      decide (s.toText = "panel > .a.b:first-child") && s.subject.directChild := by decide
  rw [hs, Option.all_some, Bool.and_eq_true, decide_eq_true_iff] at hboth
  obtain ⟨s', hread, -, -, hsame, -, -, htext, -⟩ := parse?_toText hs
  exact ⟨s, s', hs, hboth.1, hread, by simp [hsame, hboth.2], htext⟩

end Selector

end StyledScene
