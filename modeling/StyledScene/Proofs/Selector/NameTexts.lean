import StyledScene.Proofs.Selector.Grammar
import StyledScene.Proofs.Text.InPlace

/-!
# Texts made of names

A compound text can be put together from the names of a node: its tag, its id behind a `#` and its
classes behind dots. The reader lower-cases the text before it cuts it, so it finds every name in the
form that the name has where it stands (`NodeNames.exists_parse`). A `#` keeps the names on either side
apart; a dot does not, because lower-casing looks through it.
-/

namespace StyledScene

open Text (lowerAfter lowerAt lowerBetween lowerChars reachesCased IsSign isCaseIgnorable Settled)

/-! ## §1 Names -/

/-- The names that an author gives to a node. -/
structure NodeNames where
  tag : String
  id : Option String
  classes : List String

/-- The text can stand for a name in a selector text: it is not empty, and holds no separator and no
marker. -/
structure IsPlainName (name : String) : Prop where
  ne_empty : name ≠ ""
  unseparated : ∀ c ∈ name.toList, isSeparator c = false
  unmarked : ∀ c ∈ name.toList, ∀ m : Marker, c ≠ m.sign

instance : DecidablePred IsPlainName := fun name =>
  decidable_of_iff
    (name ≠ "" ∧
      (name.toList.all fun c => !isSeparator c && (Marker.ofChar? c).isNone) = true) <| by
    have hchars : (name.toList.all fun c => !isSeparator c && (Marker.ofChar? c).isNone) = true ↔
        ∀ c ∈ name.toList, isSeparator c = false ∧ ∀ m : Marker, c ≠ m.sign := by
      simp [← Marker.ofChar?_eq_none_iff]
    rw [hchars]
    exact ⟨fun ⟨hne, h⟩ => ⟨hne, fun c hc => (h c hc).1, fun c hc => (h c hc).2⟩,
      fun h => ⟨h.ne_empty, fun c hc => ⟨h.unseparated c hc, h.unmarked c hc⟩⟩⟩

namespace NodeNames

/-- The text between the markers can be told from them. -/
structure Plain (names : NodeNames) : Prop where
  tag : IsPlainName names.tag
  /-- A star stands for every tag. -/
  tag_ne_star : names.tag ≠ "*"
  id : ∀ name, names.id = some name → IsPlainName name
  classes : ∀ name ∈ names.classes, IsPlainName name

instance (names : NodeNames) : Decidable names.Plain :=
  decidable_of_iff
    (IsPlainName names.tag ∧ names.tag ≠ "*" ∧ (∀ name ∈ names.id.toList, IsPlainName name) ∧
      ∀ name ∈ names.classes, IsPlainName name) <| by
    simp only [Option.mem_toList]
    exact ⟨fun ⟨htag, hstar, hid, hclasses⟩ => ⟨htag, hstar, hid, hclasses⟩,
      fun h => ⟨h.tag, h.tag_ne_star, h.id, h.classes⟩⟩

/-- The names behind markers, in the order of the text. -/
def marked (names : NodeNames) : List (Marker × String) :=
  (names.id.toList.map fun name => (.id, name)) ++
    names.classes.map fun name => (.className, name)

/-- The text of names behind markers. -/
def charsOf (marked : List (Marker × String)) : List Char :=
  marked.flatMap fun p => p.1.sign :: p.2.toList

/-- The compound text that is made of exactly these names. -/
def text (names : NodeNames) : String :=
  String.ofList (names.tag.toList ++ charsOf names.marked)

/-! ## §2 How they are read -/

/-- The forms that names behind markers have in a text, after the characters `before`. -/
def readAfter (before : List Char) : List (Marker × String) → List (Marker × List Char)
  | [] => []
  | p :: rest =>
    (p.1, lowerBetween (p.1.sign :: before) p.2.toList (charsOf rest)) ::
      readAfter (p.2.toList.reverse ++ p.1.sign :: before) rest

/-- The form that the tag has in the text. -/
def tagRead (names : NodeNames) : List Char :=
  lowerBetween [] names.tag.toList (charsOf names.marked)

/-- The forms that the other names have in the text. -/
def markedRead (names : NodeNames) : List (Marker × List Char) :=
  readAfter names.tag.toList.reverse names.marked

theorem isSign_sign (m : Marker) : IsSign m.sign := by
  refine ⟨(m.sign.toNat, m.sign.toNat), ?_, Nat.le_refl _, Nat.le_refl _⟩
  cases m <;> decide

theorem lowerAfter_charsOf (before : List Char) (marked : List (Marker × String)) :
    lowerAfter before (charsOf marked) =
      (readAfter before marked).flatMap fun p => p.1.sign :: p.2 := by
  induction marked generalizing before with
  | nil => rfl
  | cons p rest ih =>
    have hcons : charsOf (p :: rest) = p.1.sign :: (p.2.toList ++ charsOf rest) := rfl
    -- the marker stays as it is, and stands before the name from then on
    rw [hcons, Text.lowerAfter_cons, Text.lowerAt_of_isLow (isSign_sign p.1).isLow,
      Text.lowerAfter_append, ih, readAfter, List.flatMap_cons]
    rfl

/-- The text is lower-cased name by name, each where it stands. -/
theorem lowerChars_text (names : NodeNames) :
    lowerChars names.text.toList =
      names.tagRead ++ names.markedRead.flatMap fun p => p.1.sign :: p.2 := by
  rw [text, String.toList_ofList, lowerChars, Text.lowerAfter_append, lowerAfter_charsOf,
    List.append_nil]
  rfl

theorem mem_readAfter {before : List Char} {marked : List (Marker × String)}
    {p : Marker × List Char} (h : p ∈ readAfter before marked) :
    ∃ q ∈ marked, p.1 = q.1 ∧ ∃ before after, p.2 = lowerBetween before q.2.toList after := by
  induction marked generalizing before with
  | nil => cases h
  | cons q rest ih =>
    rcases List.mem_cons.mp h with rfl | hrest
    · exact ⟨q, List.mem_cons_self, rfl, _, _, rfl⟩
    · obtain ⟨q', hq', hread⟩ := ih hrest
      exact ⟨q', List.mem_cons_of_mem _ hq', hread⟩

theorem mem_marked {names : NodeNames} {q : Marker × String} :
    q ∈ names.marked ↔
      (∃ name, names.id = some name ∧ (.id, name) = q) ∨
        ∃ name ∈ names.classes, (.className, name) = q := by
  simp [marked]

theorem Plain.of_mem_marked {names : NodeNames} (h : names.Plain) {q : Marker × String}
    (hq : q ∈ names.marked) : IsPlainName q.2 := by
  rcases mem_marked.mp hq with ⟨name, hname, rfl⟩ | ⟨name, hname, rfl⟩
  · exact h.id name hname
  · exact h.classes name hname

end NodeNames

/-- Lower-casing brings neither separators nor markers into a name. -/
theorem IsPlainName.lowerBetween {name : String} (h : IsPlainName name) (before after : List Char) :
    lowerBetween before name.toList after ≠ [] ∧
      (∀ c ∈ lowerBetween before name.toList after, isSeparator c = false) ∧
      ∀ c ∈ lowerBetween before name.toList after, ∀ m : Marker, c ≠ m.sign := by
  refine ⟨fun hnil => h.ne_empty ?_, fun c hc => ?_, fun c hc m hm => ?_⟩
  · exact String.toList_eq_nil_iff.mp (Text.lowerBetween_eq_nil.mp hnil)
  · rw [Bool.eq_false_iff]
    intro hseparates
    have hsign : IsSign c := by
      simp only [isSeparator, Bool.or_eq_true, beq_iff_eq] at hseparates
      rcases hseparates with hblank | rfl
      · exact Text.isSign_of_isBlank hblank
      · exact ⟨(0x003E, 0x003E), by decide, by decide⟩
    -- so the separator was in the name before
    have hplain := h.unseparated c (hsign.mem_lowerBetween.mp hc)
    rw [hplain] at hseparates
    cases hseparates
  · exact h.unmarked c (((hm ▸ NodeNames.isSign_sign m).mem_lowerBetween).mp hc) m hm

namespace NodeNames

variable {names : NodeNames}

/-- The text is cut into its names. -/
theorem Plain.isCut (h : names.Plain) :
    IsCut (lowerChars names.text.toList) names.tagRead names.markedRead := by
  refine ⟨names.lowerChars_text, (h.tag.lowerBetween _ _).2.2, fun p hp => ?_⟩
  obtain ⟨q, hq, -, before, after, hread⟩ := mem_readAfter hp
  rw [hread]
  exact ((h.of_mem_marked hq).lowerBetween before after).2.2

/-- The text is a single run. -/
theorem Plain.isLayout (h : names.Plain) :
    IsLayout (lowerChars names.text.toList) [] [⟨lowerChars names.text.toList, []⟩] := by
  refine ⟨by simp, by simp, fun s hs => ?_, fun s hs c hc => ?_, by simp, by simp⟩
  · obtain rfl := List.mem_singleton.mp hs
    intro hnil
    replace hnil : lowerChars names.text.toList = [] := hnil
    rw [lowerChars_text, List.append_eq_nil_iff] at hnil
    exact (h.tag.lowerBetween _ _).1 hnil.1
  · obtain rfl := List.mem_singleton.mp hs
    replace hc : c ∈ lowerChars names.text.toList := hc
    rw [lowerChars_text, List.mem_append, List.mem_flatMap] at hc
    rcases hc with hc | ⟨p, hp, hc⟩
    · exact (h.tag.lowerBetween _ _).2.1 c hc
    · obtain ⟨q, hq, -, before, after, hread⟩ := mem_readAfter hp
      rcases List.mem_cons.mp hc with rfl | hc
      · -- no marker separates runs
        cases p.1 <;> decide
      · exact ((h.of_mem_marked hq).lowerBetween before after).2.1 c (hread ▸ hc)

/-- **The text of names** reads as one compound, whose conditions are the names in the forms that they
have in the text. -/
theorem exists_parse (h : names.Plain) :
    ∃ c, Selector.parse? names.text = some ⟨c, []⟩ ∧ c.Reads names.tagRead names.markedRead := by
  refine ⟨Stretch.compound ⟨lowerChars names.text.toList, []⟩, ?_, Compound.reads_compound h.isCut⟩
  rw [Selector.parse?, Selector.ofChars?, Selector.ofLowerChars?_of_layout h.isLayout,
    List.map_singleton, List.reverse_singleton, Selector.ofCompounds?]

/-! ## §3 Names that keep their forms -/

/-- Every name is read in a form that it has by itself; a class may be read in the form of another
class. -/
structure KeepForms (names : NodeNames) : Prop where
  tag : names.tagRead = lowerChars names.tag.toList
  id : ∀ p ∈ names.markedRead, p.1 = .id →
    ∃ name, names.id = some name ∧ p.2 = lowerChars name.toList
  classes : ∀ p ∈ names.markedRead, p.1 = .className →
    ∃ name ∈ names.classes, p.2 = lowerChars name.toList

instance (names : NodeNames) : Decidable names.KeepForms :=
  decidable_of_iff
    (names.tagRead = lowerChars names.tag.toList ∧
      (∀ p ∈ names.markedRead, p.1 = .id →
        ∃ name ∈ names.id.toList, p.2 = lowerChars name.toList) ∧
      ∀ p ∈ names.markedRead, p.1 = .className →
        ∃ name ∈ names.classes, p.2 = lowerChars name.toList) <| by
    simp only [Option.mem_toList]
    exact ⟨fun ⟨htag, hid, hclasses⟩ => ⟨htag, hid, hclasses⟩,
      fun h => ⟨h.tag, h.id, h.classes⟩⟩

/-- The names on either side of the dots. -/
def dotted (names : NodeNames) : List String := names.id.getD names.tag :: names.classes

/-- No look goes beyond a `#`. -/
theorem endsLook_sign : Text.EndsLook Marker.id.sign := ⟨by decide, by decide⟩

theorem markedRead_of_id {name : String} (hid : names.id = some name) :
    names.markedRead =
      (.id, lowerBetween [] name.toList (charsOf (names.classes.map fun c => (.className, c)))) ::
        readAfter (name.toList.reverse ++ Marker.id.sign :: names.tag.toList.reverse)
          (names.classes.map fun c => (.className, c)) := by
  rw [markedRead, marked, hid, Option.toList_some, List.map_singleton, List.singleton_append,
    readAfter, endsLook_sign.lowerBetween_before]

theorem markedRead_of_no_id (hid : names.id = none) :
    names.markedRead =
      readAfter names.tag.toList.reverse (names.classes.map fun c => (.className, c)) := by
  rw [markedRead, marked, hid]
  rfl

/-- A name in front of the classes keeps its form if there are none, or if it looks at no other name. -/
theorem lowerBetween_classes {name : String}
    (h : names.classes = [] ∨ ∀ other ∈ name :: names.classes, Settled other.toList) :
    lowerBetween [] name.toList (charsOf (names.classes.map fun c => (.className, c))) =
      lowerChars name.toList := by
  rcases h with hnone | hsettled
  · rw [hnone]
    exact Text.lowerBetween_nil_nil _
  · exact Text.lowerBetween_eq_of_settled (hsettled name List.mem_cons_self) _ _

/-- **Names keep their forms** if there are no dots, or if no capital sigma looks beyond the name that it
stands in, among the names on either side of the dots. -/
theorem keepForms_of_settled
    (h : names.classes = [] ∨ ∀ name ∈ names.dotted, Settled name.toList) : names.KeepForms := by
  -- classes are read by themselves wherever they stand
  have hclasses (before : List Char) {p : Marker × List Char}
      (hp : p ∈ readAfter before (names.classes.map fun c => (Marker.className, c))) :
      p.1 = .className ∧ ∃ name ∈ names.classes, p.2 = lowerChars name.toList := by
    obtain ⟨q, hq, hmarker, before, after, hread⟩ := mem_readAfter hp
    obtain ⟨name, hname, rfl⟩ := List.mem_map.mp hq
    rcases h with hnone | hsettled
    · rw [hnone] at hname
      cases hname
    · have hown := Text.lowerBetween_eq_of_settled
        (hsettled name (List.mem_cons_of_mem _ hname)) before after
      exact ⟨hmarker, name, hname, hread.trans hown⟩
  cases hid : names.id with
  | none =>
    have hdotted : names.dotted = names.tag :: names.classes := by rw [dotted, hid]; rfl
    rw [hdotted] at h
    have hmarked : names.marked = names.classes.map fun c => (.className, c) := by
      rw [marked, hid]
      rfl
    refine ⟨?_, fun p hp hmarker => ?_, fun p hp _ => ?_⟩
    · rw [tagRead, hmarked]
      exact lowerBetween_classes h
    · rw [markedRead_of_no_id hid] at hp
      rw [(hclasses _ hp).1] at hmarker
      cases hmarker
    · rw [markedRead_of_no_id hid] at hp
      exact (hclasses _ hp).2
  | some name =>
    have hdotted : names.dotted = name :: names.classes := by rw [dotted, hid]; rfl
    rw [hdotted] at h
    refine ⟨?_, fun p hp hmarker => ?_, fun p hp hmarker => ?_⟩
    · -- the tag ends at the `#`
      have hchars : charsOf names.marked = Marker.id.sign ::
          (name.toList ++ charsOf (names.classes.map fun c => (.className, c))) := by
        rw [marked, hid]
        rfl
      rw [tagRead, hchars, endsLook_sign.lowerBetween_after]
      exact Text.lowerBetween_nil_nil _
    · rw [markedRead_of_id hid] at hp
      rcases List.mem_cons.mp hp with rfl | hp
      · exact ⟨name, hid, lowerBetween_classes h⟩
      · rw [(hclasses _ hp).1] at hmarker
        cases hmarker
    · rw [markedRead_of_id hid] at hp
      rcases List.mem_cons.mp hp with rfl | hp
      · cases hmarker
      · exact (hclasses _ hp).2

end NodeNames

end StyledScene
