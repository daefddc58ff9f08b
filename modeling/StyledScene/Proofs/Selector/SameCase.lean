import StyledScene.Proofs.Selector.NameTexts
import StyledScene.Proofs.Tree.Births
import StyledScene.Tree.Lineage

/-!
# Nodes and the texts of their names

A node keeps its names in lower case, each name by itself; the selector that is read from the text of the
same names has them in the forms that they have in the text. So the selector matches the node iff the
names keep their forms in the text (`NodeNames.accepts_iff_keepForms`). They always do without classes, and
with classes unless a capital sigma looks across a dot.
-/

namespace StyledScene

open Text (lowerChars lowerBetween Settled)

/-! ## §1 Nodes with given names -/

/-- The node has these names, each in lower case, and no others. -/
structure Node.IsNamed (n : Node) (names : NodeNames) : Prop where
  tags : n.tags = [Text.lowercase names.tag]
  authorId : n.authorId = names.id.map Text.lowercase
  mem_classes : ∀ name, name ∈ n.classes ↔ ∃ given ∈ names.classes, name = Text.lowercase given
  autoId : ∃ serial, n.autoId = NodeTree.autoIdOf serial

theorem Node.IsNamed.of_clean {n n' : Node} {names : NodeNames} (h : n.IsNamed names)
    (hclean : n'.clean = n.clean) : n'.IsNamed names where
  tags := (congrArg Node.tags hclean).trans h.tags
  authorId := (congrArg Node.authorId hclean).trans h.authorId
  mem_classes name := by
    have hclasses : n'.classes = n.classes := (congrArg Node.classes hclean :)
    rw [hclasses]
    exact h.mem_classes name
  autoId := by
    obtain ⟨serial, hserial⟩ := h.autoId
    exact ⟨serial, (congrArg Node.autoId hclean).trans hserial⟩

theorem Node.isNamed_new (id : NodeId) (tag : String) (serial : Nat) :
    (Node.new id tag serial).IsNamed ⟨tag, none, []⟩ where
  tags := rfl
  authorId := rfl
  mem_classes := by simp [Node.new]
  autoId := ⟨serial, rfl⟩

theorem Node.IsNamed.setAuthorId {n : Node} {names : NodeNames} (h : n.IsNamed names)
    (name : String) :
    ((n.setAuthorId? (some name)).getD n).IsNamed { names with id := some name } := by
  unfold Node.setAuthorId?
  simp only
  split
  · rename_i hsame
    exact ⟨h.tags, hsame, h.mem_classes, h.autoId⟩
  · exact ⟨h.tags, rfl, h.mem_classes, h.autoId⟩

theorem Node.IsNamed.addClass {n : Node} {names : NodeNames} (h : n.IsNamed names)
    (name : String) :
    ((n.addClass? name).getD n).IsNamed { names with classes := names.classes ++ [name] } := by
  have hgrown (other : String) : (∃ given ∈ names.classes ++ [name], other = Text.lowercase given) ↔
      other ∈ n.classes ∨ other = Text.lowercase name := by
    simp [h.mem_classes, or_and_right, exists_or]
  unfold Node.addClass?
  split
  · rename_i hthere
    refine ⟨h.tags, h.authorId, fun other => ?_, h.autoId⟩
    -- the class is there, in the form that would be added
    have hmem : Text.lowercase name ∈ n.classes := by simpa [Node.hasClass] using hthere
    rw [hgrown]
    exact ⟨Or.inl, fun hor => hor.elim (fun hold => hold) fun heq => heq ▸ hmem⟩
  · refine ⟨h.tags, h.authorId, fun other => ?_, h.autoId⟩
    rw [hgrown]
    simp

namespace NodeTree

/-- The tree has a node with the id and with these names. -/
def HasNamed (t : NodeTree) (id : NodeId) (names : NodeNames) : Prop :=
  ∃ n ∈ t.forest.nodes, n.id = id ∧ n.IsNamed names

/-- The edit makes a node with the tag. -/
def Makes (e : TreeEdit) (tag : String) : Prop :=
  e = .create tag ∨ ∃ parent, e = .createChild parent tag

variable {t t' : NodeTree} {id : NodeId} {names names' : NodeNames}

theorem hasNamed_create (t : NodeTree) (tag : String) :
    (t.create tag).2.HasNamed (t.create tag).1 ⟨tag, none, []⟩ := by
  have hperm := Forest.nodes_insertRoot (Node.new t.pool.take.1 tag t.nextSerial, .nil) t.forest
  refine ⟨Node.new t.pool.take.1 tag t.nextSerial, ?_, rfl, Node.isNamed_new _ _ _⟩
  exact hperm.mem_iff.mpr List.mem_cons_self

/-- A view of the nodes that does not look at their marks keeps their names. -/
theorem HasNamed.of_clean (h : t.HasNamed id names)
    (hsub : t.forest.nodes.map Node.clean ⊆ t'.forest.nodes.map Node.clean) :
    t'.HasNamed id names := by
  obtain ⟨n, hn, hid, hnamed⟩ := h
  obtain ⟨n', hn', hclean⟩ := List.mem_map.mp (hsub (List.mem_map_of_mem hn))
  exact ⟨n', hn', (congrArg Node.id hclean).trans hid, hnamed.of_clean hclean⟩

theorem hasNamed_of_makes (hwf : t.WellFormed) {e : TreeEdit} {tag : String} (he : Makes e tag)
    (h : t.edit e = .ok (.created id, t')) : t'.HasNamed id ⟨tag, none, []⟩ := by
  rcases he with rfl | ⟨parent, rfl⟩
  · obtain ⟨hcreated, rfl⟩ := Prod.mk.inj (Except.ok.inj h)
    obtain rfl := TreeReply.created.inj hcreated
    exact hasNamed_create t tag
  · obtain ⟨⟨made, placed⟩, hmade, heq⟩ := exists_of_map_eq_ok h
    obtain ⟨hcreated, rfl⟩ := Prod.mk.inj heq
    obtain rfl := TreeReply.created.inj hcreated
    obtain ⟨rfl, hmoves⟩ := createChild_eq_ok hmade
    -- the node is made as a root, and the move changes marks only
    have hperm := hmoves.view_perm (g := Node.clean) (fun _ => rfl) (hwf.create tag).nodup_ids
    exact (hasNamed_create t tag).of_clean hperm.symm.subset

/-- An edit of one node that does to its names what is said of it. -/
theorem HasNamed.revise (h : t.HasNamed id names) (hwf : t.WellFormed) {edit : Node → Option Node}
    (hident : ∀ n n', edit n = some n' → n'.ident = n.ident)
    (hedit : ∀ n : Node, n.IsNamed names → ((edit n).getD n).IsNamed names') {b : Bool}
    (hrevise : t.revise id edit = .ok (b, t')) : t'.HasNamed id names' := by
  obtain ⟨n, hn, hid, hnamed⟩ := h
  obtain ⟨sub, hsub, hans⟩ := ask_eq_ok_iff.mp hrevise
  obtain rfl : sub.1 = n :=
    eq_of_id_eq hwf.nodup_ids (mem_nodes_of_subtree? hsub) hn ((subtree?_id hsub).trans hid.symm)
  have hnamed' := hedit sub.1 hnamed
  split at hans
  · rename_i n' hn'
    obtain ⟨-, rfl⟩ := Prod.mk.inj hans
    rw [hn', Option.getD_some] at hnamed'
    -- marks change above and below the node, so it is looked for up to its mark
    have hclean : n'.clean ∈ (t.revised id n').forest.nodes.map Node.clean := by
      rw [revised, marked, view_markUnder (fun _ => rfl), Forest.modify, Forest.nodes_map,
        List.map_map]
      refine List.mem_map.mpr ⟨sub.1, hn, ?_⟩
      simp only [Function.comp, if_pos hid]
    obtain ⟨m, hm, hmclean⟩ := List.mem_map.mp hclean
    have hmid : m.id = n'.id := (congrArg Node.id hmclean :)
    exact ⟨m, hm, hmid.trans ((Prod.mk.inj (hident _ _ hn')).1.trans hid), hnamed'.of_clean hmclean⟩
  · -- the edit changes nothing, so the names are those that the node had
    rename_i hnone
    obtain ⟨-, rfl⟩ := Prod.mk.inj hans
    rw [hnone, Option.getD_none] at hnamed'
    exact ⟨sub.1, hn, hid, hnamed'⟩

theorem HasNamed.contains (h : t.HasNamed id names) : t.contains id = true := by
  obtain ⟨n, hn, rfl, -⟩ := h
  exact contains_iff.mpr (List.mem_map_of_mem hn)

/-- A living node can be revised. -/
theorem exists_revise (hlive : t.contains id = true) (edit : Node → Option Node) :
    ∃ answer, t.revise id edit = .ok answer := by
  obtain ⟨sub, hsub⟩ := Option.isSome_iff_exists.mp hlive
  exact ⟨_, ask_eq_ok_iff.mpr ⟨sub, hsub, rfl⟩⟩

theorem HasNamed.setAuthorId (h : t.HasNamed id names) (hwf : t.WellFormed) (name : String) :
    (t.after (.setAuthorId id (some name))).HasNamed id { names with id := some name } := by
  obtain ⟨⟨b, t'⟩, hrevise⟩ := exists_revise h.contains fun n => n.setAuthorId? (some name)
  have hafter : t.after (.setAuthorId id (some name)) = t' := by
    rw [after, edit, NodeTree.setAuthorId, hrevise]
    rfl
  rw [hafter]
  exact h.revise hwf ident_of_setAuthorId? (fun n hn => hn.setAuthorId name) hrevise

theorem HasNamed.addClass (h : t.HasNamed id names) (hwf : t.WellFormed) (name : String) :
    (t.after (.addClass id name)).HasNamed id
      { names with classes := names.classes ++ [name] } := by
  obtain ⟨⟨b, t'⟩, hrevise⟩ := exists_revise h.contains fun n => n.addClass? name
  have hafter : t.after (.addClass id name) = t' := by
    rw [after, edit, NodeTree.addClass, hrevise]
    rfl
  rw [hafter]
  exact h.revise hwf ident_of_addClass? (fun n hn => hn.addClass name) hrevise

end NodeTree

namespace NodeNames

/-- The edits that give a node its id and its classes. -/
def edits (names : NodeNames) (id : NodeId) : List TreeEdit :=
  (names.id.toList.map fun name => .setAuthorId id (some name)) ++
    names.classes.map fun name => .addClass id name

end NodeNames

namespace NodeTree

variable {t : NodeTree} {id : NodeId}

theorem HasNamed.addClasses {names : NodeNames} (h : t.HasNamed id names) (hwf : t.WellFormed)
    (classes : List String) :
    (t.run (classes.map fun name => .addClass id name)).HasNamed id
      { names with classes := names.classes ++ classes } := by
  induction classes generalizing t names with
  | nil =>
    rw [List.append_nil]
    exact h
  | cons name classes ih =>
    have hwf' := (editsTo_after t (.addClass id name)).wellFormed hwf
    have hrest := ih (h.addClass hwf name) hwf'
    rw [List.append_assoc, List.singleton_append] at hrest
    exact hrest

/-- The edits give a node its names. -/
theorem HasNamed.run_edits {names : NodeNames} (h : t.HasNamed id ⟨names.tag, none, []⟩)
    (hwf : t.WellFormed) : (t.run (names.edits id)).HasNamed id names := by
  obtain ⟨tag, given, classes⟩ := names
  rw [NodeNames.edits, run, List.foldl_append]
  -- the id comes first, if there is one, and then the classes in their order
  cases given with
  | none => exact h.addClasses hwf classes
  | some name =>
    have hwf' := (editsTo_after t (.setAuthorId id (some name))).wellFormed hwf
    exact (h.setAuthorId hwf name).addClasses hwf' classes

/-- A named node stands at the front of its lineage. -/
theorem HasNamed.lineage {names : NodeNames} (h : t.HasNamed id names) (hwf : t.WellFormed) :
    ∃ (n : Node) (depth : Nat) (above : Lineage),
      t.lineage id = t.view n depth :: above ∧ n.IsNamed names := by
  obtain ⟨n, hn, rfl, hnamed⟩ := h
  obtain ⟨m, path, hp, hid⟩ := path?_of_contains (contains_iff.mpr (List.mem_map_of_mem hn))
  obtain rfl := eq_of_id_eq hwf.nodup_ids (Forest.mem_nodes_of_mem_path hp m List.mem_cons_self) hn hid
  refine ⟨m, path.length, t.lineageOf path, ?_, hnamed⟩
  rw [NodeTree.lineage, lineage?, hp]
  rfl

end NodeTree

/-! ## §2 Matching -/

/-- A chain of one compound is tried at the first node only. -/
theorem Matcher.accepts_single (m : Matcher) (c : Compound) (v : NodeView) (above : Lineage) :
    m.accepts ⟨c, []⟩ (v :: above) = c.accepts v := by
  rw [accepts, climb_cons]
  cases c.accepts v <;> simp

/-- No auto id has a sigma. -/
theorem NodeTree.not_mem_autoIdOf (serial : Nat) :
    'ς' ∉ (NodeTree.autoIdOf serial).toList ∧ 'σ' ∉ (NodeTree.autoIdOf serial).toList := by
  have hchars (c : Char) (hc : c ∈ (NodeTree.autoIdOf serial).toList) :
      c ∈ "node-".toList ∨ c.isDigit = true := by
    rw [NodeTree.autoIdOf, String.toList_append, List.mem_append] at hc
    rcases hc with hc | hc
    · exact .inl hc
    · have hdigits : c ∈ Nat.toDigits 10 serial := Nat.toList_repr ▸ hc
      exact .inr (Nat.isDigit_of_mem_toDigits (by decide) (by decide) hdigits)
  constructor
  · intro h
    exact absurd (hchars 'ς' h) (by decide)
  · intro h
    exact absurd (hchars 'σ' h) (by decide)

/-- A form that is an auto id has no sigma that looks around, so it is the form of the name by itself. -/
theorem NodeTree.lowerBetween_eq_autoIdOf {before piece after : List Char} {serial : Nat}
    (h : lowerBetween before piece after = (NodeTree.autoIdOf serial).toList) :
    lowerBetween before piece after = lowerChars piece := by
  refine Text.lowerBetween_eq_of_settled (Text.settled_of_not_mem fun hsigma => ?_) _ _
  obtain ⟨hfinal, hmedial⟩ := NodeTree.not_mem_autoIdOf serial
  rcases Text.sigma_mem_lowerBetween before after hsigma with hmem | hmem
  · exact hfinal (h ▸ hmem)
  · exact hmedial (h ▸ hmem)

namespace NodeNames

variable {names : NodeNames} {c : Compound} {n : Node}

/-- The form that an id has in the text. -/
def idRead (names : NodeNames) (name : String) : List Char :=
  lowerBetween [] name.toList (charsOf (names.classes.map fun c => (.className, c)))

/-- The only form behind a `#` is that of the id. -/
theorem filter_id_markedRead (names : NodeNames) :
    names.markedRead.filter (fun p => p.1 = .id) =
      names.id.toList.map fun name => (.id, names.idRead name) := by
  have hclasses (before : List Char) : (readAfter before
      (names.classes.map fun c => (Marker.className, c))).filter (fun p => p.1 = .id) = [] := by
    refine List.filter_eq_nil_iff.mpr fun p hp => ?_
    obtain ⟨q, hq, hmarker, -⟩ := mem_readAfter hp
    obtain ⟨name, -, rfl⟩ := List.mem_map.mp hq
    simp [hmarker]
  cases hid : names.id with
  | none =>
    rw [markedRead_of_no_id hid, hclasses]
    rfl
  | some name =>
    rw [markedRead_of_id hid, List.filter_cons_of_pos (by rfl), hclasses]
    rfl

theorem Plain.id_eq (hplain : names.Plain) (hread : c.Reads names.tagRead names.markedRead) :
    c.id = names.id.map fun name => String.ofList (names.idRead name) := by
  have hnamed : names.markedRead.filter (fun p => p.1 = .id ∧ p.2 ≠ []) =
      names.markedRead.filter fun p => p.1 = .id := by
    refine List.filter_congr fun p hp => ?_
    obtain ⟨q, hq, -, before, after, hread⟩ := mem_readAfter hp
    have hne : p.2 ≠ [] := hread ▸ ((hplain.of_mem_marked hq).lowerBetween before after).1
    simp [hne]
  rw [hread.id, hnamed, filter_id_markedRead]
  cases names.id <;> rfl

/-- The tag is accepted iff it keeps its form. -/
theorem accepts_tag_iff (hplain : names.Plain) (hread : c.Reads names.tagRead names.markedRead)
    (hn : n.IsNamed names) :
    (c.tag.all fun tag => n.tags.contains tag) = true ↔
      names.tagRead = lowerChars names.tag.toList := by
  have hne : ¬ (names.tagRead = [] ∨ names.tagRead = ['*']) := by
    rintro (hnil | hstar)
    · exact (hplain.tag.lowerBetween _ _).1 hnil
    · refine hplain.tag_ne_star (String.toList_inj.mp ?_)
      exact Text.lowerBetween_eq_star.mp hstar
  rw [hread.tag, if_neg hne, hn.tags, Option.all_some, List.contains_iff_mem, List.mem_singleton,
    ← String.toList_inj, String.toList_ofList, Text.lowercase_toList]

/-- The id is accepted iff it keeps its form: no auto id makes up for another form. -/
theorem accepts_id_iff (hplain : names.Plain) (hread : c.Reads names.tagRead names.markedRead)
    (hn : n.IsNamed names) :
    (c.id.all fun id => n.authorId == some id || n.autoId == id) = true ↔
      ∀ p ∈ names.markedRead, p.1 = .id →
        ∃ name, names.id = some name ∧ p.2 = lowerChars name.toList := by
  have hforms : (∀ p ∈ names.markedRead, p.1 = .id →
      ∃ name, names.id = some name ∧ p.2 = lowerChars name.toList) ↔
      ∀ name, names.id = some name → names.idRead name = lowerChars name.toList := by
    have hfilter (p : Marker × List Char) : p ∈ names.markedRead ∧ p.1 = .id ↔
        ∃ name, names.id = some name ∧ (.id, names.idRead name) = p := by
      have hmem : p ∈ names.markedRead.filter (fun p => p.1 = .id) ↔ _ :=
        List.mem_filter
      rw [filter_id_markedRead, List.mem_map] at hmem
      simpa using hmem.symm
    constructor
    · intro h name hname
      obtain ⟨hp, hmarker⟩ := (hfilter (.id, names.idRead name)).mpr ⟨name, hname, rfl⟩
      obtain ⟨other, hother, hform⟩ := h _ hp hmarker
      obtain rfl := Option.some.inj (hname.symm.trans hother)
      exact hform
    · intro h p hp hmarker
      obtain ⟨name, hname, rfl⟩ := (hfilter p).mp ⟨hp, hmarker⟩
      exact ⟨name, hname, h name hname⟩
  obtain ⟨serial, hauto⟩ := hn.autoId
  rw [hforms, hplain.id_eq hread, hn.authorId, hauto]
  cases hgiven : names.id with
  | none => simp
  | some name =>
    -- a form that is the auto id is the form of the name by itself
    have hauto : NodeTree.autoIdOf serial = String.ofList (names.idRead name) →
        names.idRead name = lowerChars name.toList := by
      intro heq
      have hchars : names.idRead name = (NodeTree.autoIdOf serial).toList := by
        rw [heq, String.toList_ofList]
      exact NodeTree.lowerBetween_eq_autoIdOf hchars
    have hown : Text.lowercase name = String.ofList (names.idRead name) ↔
        names.idRead name = lowerChars name.toList := by
      rw [← String.toList_inj, Text.lowercase_toList, String.toList_ofList, eq_comm]
    simp only [Option.map_some, Option.all_some, Bool.or_eq_true, beq_iff_eq, Option.some.injEq,
      hown, forall_eq']
    exact or_iff_left_of_imp hauto

/-- The classes are accepted iff each has the form of some class. -/
theorem accepts_classes_iff (hplain : names.Plain)
    (hread : c.Reads names.tagRead names.markedRead) (hn : n.IsNamed names) :
    (c.classes.all fun name => n.classes.contains name) = true ↔
      ∀ p ∈ names.markedRead, p.1 = .className →
        ∃ name ∈ names.classes, p.2 = lowerChars name.toList := by
  have hform (cs : List Char) : (∃ given ∈ names.classes, String.ofList cs = Text.lowercase given) ↔
      ∃ name ∈ names.classes, cs = lowerChars name.toList := by
    simp only [← String.toList_inj, String.toList_ofList, Text.lowercase_toList]
  rw [List.all_eq_true]
  constructor
  · intro h p hp hmarker
    obtain ⟨q, hq, -, before, after, hform'⟩ := mem_readAfter hp
    have hne : p.2 ≠ [] := hform' ▸ ((hplain.of_mem_marked hq).lowerBetween before after).1
    have hmem := (hread.mem_classes (String.ofList p.2)).mpr ⟨p, hp, hmarker, hne, rfl⟩
    have hthere := List.contains_iff_mem.mp (h _ hmem)
    exact (hform p.2).mp ((hn.mem_classes _).mp hthere)
  · intro h name hname
    obtain ⟨p, hp, hmarker, -, rfl⟩ := (hread.mem_classes name).mp hname
    exact List.contains_iff_mem.mpr ((hn.mem_classes _).mpr ((hform p.2).mpr (h p hp hmarker)))

/-- The text of names asks for no pseudo-state. -/
theorem accepts_pseudo (hread : c.Reads names.tagRead names.markedRead) (v : NodeView) :
    (c.pseudo.toList.all fun f => f.holds v) = true := by
  refine List.all_eq_true.mpr fun f hf => ?_
  obtain ⟨p, hp, hmarker, -⟩ := (hread.contains_pseudo f).mp ((FlagSet.mem_toList _ f).mp hf)
  obtain ⟨q, hq, hsame, -⟩ := mem_readAfter hp
  rw [hmarker] at hsame
  -- names stand behind a `#` or a dot
  rcases mem_marked.mp hq with ⟨name, -, rfl⟩ | ⟨name, -, rfl⟩ <;> cases hsame

/-- **The compound of the names accepts the node iff the names keep their forms.** -/
theorem accepts_iff (hplain : names.Plain) (hread : c.Reads names.tagRead names.markedRead)
    (hn : n.IsNamed names) (t : NodeTree) (depth : Nat) :
    c.accepts (t.view n depth) = true ↔ names.KeepForms := by
  have htag := accepts_tag_iff hplain hread hn
  have hid := accepts_id_iff hplain hread hn
  have hclasses := accepts_classes_iff hplain hread hn
  have hpseudo := accepts_pseudo hread (t.view n depth)
  rw [Compound.accepts, hpseudo, Bool.and_true, Bool.and_eq_true, Bool.and_eq_true]
  constructor
  · rintro ⟨⟨hi, ht⟩, hc⟩
    exact ⟨htag.mp ht, hid.mp hi, hclasses.mp hc⟩
  · intro h
    exact ⟨⟨hid.mpr h.id, htag.mpr h.tag⟩, hclasses.mpr h.classes⟩

/-! ## §3 The node and its text -/

/-- **Node side and selector side.** Make a node with a tag in any tree, give it an id and classes, and
read the text of exactly these names. It reads as a selector, and the selector matches the node iff every
name has a form of its own where it stands in the text. That is so without classes, and with classes
whenever no capital sigma looks beyond its name, among the names on either side of the dots. -/
theorem accepts_iff_keepForms {t t' : NodeTree} {id : NodeId} {e : TreeEdit}
    (hreachable : t.Reachable) (hplain : names.Plain) (he : NodeTree.Makes e names.tag)
    (hmade : t.edit e = .ok (.created id, t')) (m : Matcher) :
    ∃ s, Selector.parse? names.text = some s ∧
      (m.accepts s ((t'.run (names.edits id)).lineage id) = true ↔ names.KeepForms) ∧
      ((names.classes = [] ∨ ∀ name ∈ names.dotted, Settled name.toList) →
        m.accepts s ((t'.run (names.edits id)).lineage id) = true) := by
  have hwf := NodeTree.wellFormed_of_reachable hreachable
  have hwf' := (NodeTree.editsTo_of_edit_eq_ok hmade).wellFormed hwf
  have hnamed := (NodeTree.hasNamed_of_makes hwf he hmade).run_edits hwf'
  -- the node has its names, and the text has its compound
  obtain ⟨n, depth, above, hlineage, hn⟩ := hnamed.lineage (NodeTree.wellFormed_run hwf' _)
  obtain ⟨c, hparse, hread⟩ := exists_parse hplain
  have hiff : m.accepts ⟨c, []⟩ ((t'.run (names.edits id)).lineage id) = true ↔ names.KeepForms := by
    rw [hlineage, Matcher.accepts_single]
    exact accepts_iff hplain hread hn _ depth
  exact ⟨_, hparse, hiff, fun hsettled => hiff.mpr (keepForms_of_settled hsettled)⟩

/-- A street named after a muse: the sigmas at the end of the tag and within the id look no further. -/
def museStreet : NodeNames := ⟨"ΟΔΟΣ", some "Μουσα", ["Primary", "ΜΕΣΑ"]⟩

theorem accepts_museStreet :
    museStreet.text = "ΟΔΟΣ#Μουσα.Primary.ΜΕΣΑ" ∧
      ∃ s, Selector.parse? museStreet.text = some s ∧
        (Matcher.mk true).accepts s
          (((NodeTree.empty.create museStreet.tag).2.run
            (museStreet.edits (NodeTree.empty.create museStreet.tag).1)).lineage
              (NodeTree.empty.create museStreet.tag).1) = true := by
  have hplain : museStreet.Plain := by decide
  have hkeep : museStreet.KeepForms := by decide
  obtain ⟨s, hparse, hiff, -⟩ := accepts_iff_keepForms ⟨[], rfl⟩ hplain (.inl rfl) rfl ⟨true⟩
  exact ⟨by decide, s, hparse, hiff.mpr hkeep⟩

/-- The last sigma of the tag ends a word in the node, and stands within one in the text of the tag and
the class. -/
def street : NodeNames := ⟨"ΟΔΟΣ", none, ["Α"]⟩

/-- A node is not matched by the text of its own names. -/
theorem rejects_street :
    street.Plain ∧ street.text = "ΟΔΟΣ.Α" ∧
      (Selector.parse? street.text).map (fun s => (Matcher.mk true).accepts s
        (((NodeTree.empty.create street.tag).2.run
          (street.edits (NodeTree.empty.create street.tag).1)).lineage
            (NodeTree.empty.create street.tag).1)) = some false := by
  decide

end NodeNames

end StyledScene
