import StyledScene.Proofs.Tree.Linked
import StyledScene.Proofs.Tree.Marking

/-!
# Forests in a table of records

A table of records holds a forest if every node of the forest has the record that its place gives it
(`Forest.Recorded`). For each change of a forest there is one lemma that says which change of the records
goes with it: so the two links of an edge, which the records keep apart, stay in step.
-/

namespace StyledScene

namespace Forest

/-- The records hold the forest, whose roots have the given parent. -/
def Recorded (record? : NodeId → Option Record) (up : Option NodeId) : Forest → Prop
  | nil => True
  | tree n children rest =>
    record? n.id = some ⟨n, up, children.rootIds⟩ ∧
      children.Recorded record? (some n.id) ∧ rest.Recorded record? up

variable {record? record?' : NodeId → Option Record} {up : Option NodeId} {f : Forest}

/-! ## §1 Look-ups -/

theorem recorded_single {t : Node × Forest} :
    (single t).Recorded record? up ↔
      record? t.1.id = some ⟨t.1, up, t.2.rootIds⟩ ∧ t.2.Recorded record? (some t.1.id) := by
  simp [single, Recorded]

/-- Records of other nodes do not matter. -/
theorem Recorded.congr (h : f.Recorded record? up) (hsame : ∀ id ∈ f.ids, record?' id = record? id) :
    f.Recorded record?' up := by
  induction f generalizing up with
  | nil => trivial
  | tree n children rest ihc ihr =>
    simp only [ids_tree, List.mem_cons, List.mem_append] at hsame
    obtain ⟨hn, hc, hr⟩ := h
    refine ⟨(hsame n.id (.inl rfl)).trans hn, ihc hc fun id hid => ?_, ihr hr fun id hid => ?_⟩
    · exact hsame id (.inr (.inl hid))
    · exact hsame id (.inr (.inr hid))

theorem Recorded.of_subtree? (h : f.Recorded record? up) {id : NodeId} {sub : Node × Forest}
    (hsub : f.subtree? id = some sub) : ∃ up', (single sub).Recorded record? up' := by
  induction f generalizing up with
  | nil => cases hsub
  | tree n children rest ihc ihr =>
    obtain ⟨hn, hc, hr⟩ := h
    rw [subtree?] at hsub
    split at hsub
    · obtain rfl := Option.some.inj hsub
      exact ⟨up, recorded_single.mpr ⟨hn, hc⟩⟩
    · rcases Option.or_eq_some_iff.mp hsub with hbelow | ⟨-, hbeside⟩
      · exact ihc hc hbelow
      · exact ihr hr hbeside

/-- A node's record tells its data, its parent and its children. -/
theorem Recorded.of_path? (h : f.Recorded record? up) {id : NodeId} {n : Node} {above : List Node}
    (hp : f.path? id = some (n :: above)) :
    record? id = some ⟨n, (above.head?.map Node.id).or up, f.childIds id⟩ := by
  induction f generalizing up above with
  | nil => cases hp
  | tree k children rest ihc ihr =>
    obtain ⟨hk, hc, hr⟩ := h
    rw [childIds_tree]
    rcases path?_tree_cases hp with ⟨rfl, hroot⟩ | ⟨hne, q, hq, hbelow⟩ | ⟨hne, hid, hbeside⟩
    · obtain ⟨rfl, rfl⟩ := List.cons.inj hroot
      rw [if_pos rfl, hk]
      rfl
    · obtain ⟨m, q, rfl, -⟩ := path?_head hq
      obtain ⟨rfl, rfl⟩ := List.cons.inj hbelow
      rw [if_neg hne, if_pos (mem_ids_of_path? hq), ihc hc hq]
      -- the first of the ancestors is the same, unless there were none below the root of this tree
      cases q <;> simp
    · rw [if_neg hne, if_neg hid, ihr hr hbeside]

theorem Recorded.exists_record? (h : f.Recorded record? up) {id : NodeId} (hid : id ∈ f.ids) :
    ∃ r, record? id = some r := by
  obtain ⟨p, hp⟩ := exists_path? hid
  obtain ⟨n, above, rfl, -⟩ := path?_head hp
  exact ⟨_, h.of_path? hp⟩

/-- The record that its place gives a node, where the roots have the given parent. -/
def recordOf? (f : Forest) (up : Option NodeId) (id : NodeId) : Option Record :=
  match f.path? id with
  | some (n :: above) => some ⟨n, (above.head?.map Node.id).or up, f.childIds id⟩
  | _ => none

theorem recordOf?_of_path? {up : Option NodeId} {id : NodeId} {n : Node} {above : List Node}
    (hp : f.path? id = some (n :: above)) :
    f.recordOf? up id = some ⟨n, (above.head?.map Node.id).or up, f.childIds id⟩ := by
  rw [recordOf?, hp]

/-- The records of all places hold the forest. -/
theorem recorded_recordOf? (hnd : f.ids.Nodup) (up : Option NodeId) :
    f.Recorded (f.recordOf? up) up := by
  induction f generalizing up with
  | nil => trivial
  | tree n children rest ihc ihr =>
    obtain ⟨⟨hnc, hnr⟩, hcnd, hrnd, hdisj⟩ := nodup_ids_tree.mp hnd
    refine ⟨?_, (ihc hcnd (some n.id)).congr fun k hk => ?_, (ihr hrnd up).congr fun k hk => ?_⟩
    · have hp : (tree n children rest).path? n.id = some [n] := by rw [path?_tree, if_pos rfl]
      rw [recordOf?_of_path? hp, childIds_tree, if_pos rfl]
      rfl
    · -- the path of a node below goes on to the root of this tree
      obtain ⟨p, hp⟩ := exists_path? hk
      obtain ⟨a, above, rfl, -⟩ := path?_head hp
      have hne : ¬ n.id = k := fun heq => hnc (heq ▸ hk)
      have hp' : (tree n children rest).path? k = some (a :: (above ++ [n])) := by
        rw [path?_below hnc hk, hp]
        rfl
      rw [recordOf?_of_path? hp, recordOf?_of_path? hp', childIds_tree, if_neg hne, if_pos hk]
      cases above <;> simp
    · obtain ⟨p, hp⟩ := exists_path? hk
      obtain ⟨a, above, rfl, -⟩ := path?_head hp
      have hne : ¬ n.id = k := fun heq => hnr (heq ▸ hk)
      have hnot : k ∉ children.ids := fun hk' => hdisj k hk' hk
      have hp' : (tree n children rest).path? k = some (a :: above) :=
        (path?_beside hne hnot).trans hp
      rw [recordOf?_of_path? hp, recordOf?_of_path? hp', childIds_tree, if_neg hne, if_neg hnot]

/-! ## §2 Changes of the data -/

theorem Recorded.map (h : f.Recorded record? up) {g : Node → Node} (hg : ∀ n, (g n).id = n.id)
    (hrecord : ∀ id ∈ f.ids,
      record?' id = (record? id).map fun r => { r with data := g r.data }) :
    (f.map g).Recorded record?' up := by
  induction f generalizing up with
  | nil => trivial
  | tree n children rest ihc ihr =>
    simp only [ids_tree, List.mem_cons, List.mem_append] at hrecord
    obtain ⟨hn, hc, hr⟩ := h
    have hbelow := ihc hc fun id hid => hrecord id (.inr (.inl hid))
    have hbeside := ihr hr fun id hid => hrecord id (.inr (.inr hid))
    refine ⟨?_, (hg n).symm ▸ hbelow, hbeside⟩
    rw [hg, hrecord n.id (.inl rfl), hn, rootIds_map hg]
    rfl

/-- The records with those of some nodes marked. -/
def markRecords (ids : List NodeId) (record? : NodeId → Option Record) (id : NodeId) :
    Option Record :=
  if id ∈ ids then (record? id).map Record.mark else record? id

theorem markUnder_of_not_mem {id : NodeId} (h : id ∉ f.ids) : f.markUnder id = f := by
  induction f with
  | nil => rfl
  | tree n children rest ihc ihr =>
    rw [ids_tree, List.mem_cons, List.mem_append, not_or, not_or] at h
    rw [markUnder, if_neg (Ne.symm h.1), ihc h.2.1, ihr h.2.2]

theorem ids_single_subset {id : NodeId} {sub : Node × Forest} (h : f.subtree? id = some sub) :
    (single sub).ids ⊆ f.ids := by
  induction f with
  | nil => cases h
  | tree n children rest ihc ihr =>
    rw [subtree?] at h
    rw [ids_tree]
    split at h
    · obtain rfl := Option.some.inj h
      rw [single, ids_tree, ids_nil, List.append_nil]
      exact List.cons_subset_cons n.id (List.subset_append_left _ _)
    · refine fun k hk => List.mem_cons_of_mem n.id (List.mem_append.mpr ?_)
      rcases Option.or_eq_some_iff.mp h with hbelow | ⟨-, hbeside⟩
      · exact .inl (ihc hbelow hk)
      · exact .inr (ihr hbeside hk)

/-- Marking below a node marks the records of its subtree. -/
theorem Recorded.markUnder (h : f.Recorded record? up) (hnd : f.ids.Nodup) {id : NodeId}
    {sub : Node × Forest} (hsub : f.subtree? id = some sub) :
    (f.markUnder id).Recorded (markRecords (single sub).ids record?) up := by
  induction f generalizing up with
  | nil => cases hsub
  | tree n children rest ihc ihr =>
    obtain ⟨⟨hnc, hnr⟩, hcnd, hrnd, hdisj⟩ := nodup_ids_tree.mp hnd
    obtain ⟨hn, hc, hr⟩ := h
    -- records outside the subtree are as they were
    have hkeep {g : Forest} {up' : Option NodeId} (hg : g.Recorded record? up')
        (hout : ∀ k ∈ g.ids, k ∉ (single sub).ids) :
        g.Recorded (markRecords (single sub).ids record?) up' :=
      hg.congr fun k hk => if_neg (hout k hk)
    rw [subtree?] at hsub
    rw [Forest.markUnder]
    split at hsub
    · rename_i hid
      obtain rfl := Option.some.inj hsub
      rw [if_pos hid]
      refine ⟨?_, hc.map (fun _ => rfl) fun k hk => ?_, hkeep hr fun k hk => ?_⟩
      · rw [Node.id_mark, markRecords, if_pos (by simp [single]), hn, rootIds_map Node.id_mark]
        rfl
      · rw [markRecords, if_pos (mem_ids_single.mpr (.inr hk))]
        rfl
      · rw [mem_ids_single, not_or]
        exact ⟨fun heq => hnr (heq ▸ hk), fun hk' => hdisj k hk' hk⟩
    · rename_i hid
      rw [if_neg hid]
      rcases Option.or_eq_some_iff.mp hsub with hbelow | ⟨hnot, hbeside⟩
      · have hin := ids_single_subset hbelow
        have hidc : id ∈ children.ids := (subtree?_isSome id children).mp (by rw [hbelow]; rfl)
        rw [markUnder_of_not_mem (hdisj id hidc)]
        refine ⟨?_, ihc hc hcnd hbelow, hkeep hr fun k hk hk' => hdisj k (hin hk') hk⟩
        rw [rootIds_markUnder, markRecords, if_neg fun hk => hnc (hin hk), hn]
      · have hin := ids_single_subset hbeside
        have hidc : id ∉ children.ids := not_mem_ids_of_subtree? hnot
        rw [markUnder_of_not_mem hidc]
        refine ⟨?_, hkeep hc fun k hk hk' => hdisj k hk (hin hk'), ihr hr hrnd hbeside⟩
        rw [markRecords, if_neg fun hk => hnr (hin hk), hn]

/-! ## §3 Changes of the shape -/

/-- Taking a tree out of the forest takes its root out of every list of children. -/
theorem Recorded.prune (h : f.Recorded record? up) (hnd : f.ids.Nodup) {id : NodeId}
    (hrecord : ∀ k ∈ f.ids, record?' k = (record? k).map fun r => r.unlist id) :
    (f.prune id).Recorded record?' up := by
  induction f generalizing up with
  | nil => trivial
  | tree n children rest ihc ihr =>
    obtain ⟨⟨-, hnr⟩, hcnd, hrnd, -⟩ := nodup_ids_tree.mp hnd
    simp only [ids_tree, List.mem_cons, List.mem_append] at hrecord
    obtain ⟨hn, hc, hr⟩ := h
    have hbeside := ihr hr hrnd fun k hk => hrecord k (.inr (.inr hk))
    rw [Forest.prune]
    split
    · rename_i hid
      rwa [prune_of_not_mem (hid ▸ hnr)] at hbeside
    · refine ⟨?_, ihc hc hcnd fun k hk => hrecord k (.inr (.inl hk)), hbeside⟩
      rw [hrecord n.id (.inl rfl), hn, rootIds_prune hcnd]
      rfl

theorem Recorded.push (h : f.Recorded record? up) {t : Node × Forest}
    (ht : (single t).Recorded record? up) : (f.push t).Recorded record? up := by
  induction f with
  | nil => exact ht
  | tree n children rest _ ihr => exact ⟨h.1, h.2.1, ihr h.2.2⟩

/-- Adding a tree below a node adds its root to the list of that node. -/
theorem Recorded.graft (h : f.Recorded record? up) (hnd : f.ids.Nodup) {parent : NodeId}
    {t : Node × Forest} (ht : (single t).Recorded record?' (some parent))
    (hother : ∀ k ∈ f.ids, k ≠ parent → record?' k = record? k)
    (hparent : parent ∈ f.ids →
      record?' parent = (record? parent).map fun r => r.enlist t.1.id) :
    (f.graft parent t).Recorded record?' up := by
  induction f generalizing up with
  | nil => trivial
  | tree n children rest ihc ihr =>
    obtain ⟨⟨hnc, hnr⟩, hcnd, hrnd, -⟩ := nodup_ids_tree.mp hnd
    simp only [ids_tree, List.mem_cons, List.mem_append] at hother hparent
    obtain ⟨hn, hc, hr⟩ := h
    rw [Forest.graft]
    split
    · rename_i hp
      subst hp
      -- the parent occurs once, so the records below and beside it are as they were
      refine ⟨?_, .push (hc.congr fun k hk => ?_) ht, hr.congr fun k hk => ?_⟩
      · rw [hparent (.inl rfl), hn, rootIds_push]
        rfl
      · exact hother k (.inr (.inl hk)) fun heq => hnc (heq ▸ hk)
      · exact hother k (.inr (.inr hk)) fun heq => hnr (heq ▸ hk)
    · rename_i hp
      refine ⟨?_, ihc hc hcnd ?_ ?_, ihr hr hrnd ?_ ?_⟩
      · rw [hother n.id (.inl rfl) hp, hn, rootIds_graft]
      · exact fun k hk => hother k (.inr (.inl hk))
      · exact fun hk => hparent (.inr (.inl hk))
      · exact fun k hk => hother k (.inr (.inr hk))
      · exact fun hk => hparent (.inr (.inr hk))

theorem Recorded.insertRoot (h : f.Recorded record? up) {t : Node × Forest}
    (ht : (single t).Recorded record? up) : (f.insertRoot t).Recorded record? up := by
  obtain ⟨hroot, hbelow⟩ := recorded_single.mp ht
  induction f with
  | nil => exact ht
  | tree n children rest _ ihr =>
    rw [Forest.insertRoot]
    split
    · exact ⟨hroot, hbelow, h⟩
    · exact ⟨h.1, h.2.1, ihr h.2.2⟩

end Forest

end StyledScene
