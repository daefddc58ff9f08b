import StyledScene.Proofs.Ends
import StyledScene.Proofs.Tree.Records

/-!
# Walks along the links

Where the records hold a forest, every walk along them ends and is never refused: it follows the
recursion of the forest. The stack of a downward walk holds the roots of what is still to be visited
(`ends_markAll`, `ends_collect`), and a climb goes up the path of the node where it starts.
-/

namespace StyledScene

namespace LinkedTree

/-! ## §1 Records -/

section Ends

variable {l : LinkedTree} {id : NodeId} {r : Record}

theorem ends_read (h : l.record? id = some r) : Ends (read id) l (.ok r) l := by
  refine ends_get.bind ?_
  rw [h]
  exact ends_pure r

theorem ends_read_dead (h : l.record? id = none) :
    Ends (read id) l (.error (.invalidNode id)) l := by
  refine ends_get.bind ?_
  rw [h]
  exact ends_throw _

theorem ends_update (h : l.record? id = some r) (f : Record → Record) :
    Ends (update id f) l (.ok ()) (l.modified id f) :=
  (ends_read h).bind (ends_modify _)

end Ends

/-! ## §2 Tables -/

section Tables

variable {l : LinkedTree}

/-- The tree with the records of some nodes marked. -/
def markedOn (l : LinkedTree) (ids : List NodeId) : LinkedTree :=
  { l with record? := Forest.markRecords ids l.record? }

theorem record?_markedOn (l : LinkedTree) (ids : List NodeId) (id : NodeId) :
    (l.markedOn ids).record? id =
      if id ∈ ids then (l.record? id).map Record.mark else l.record? id := rfl

theorem record?_modified (l : LinkedTree) (id k : NodeId) (f : Record → Record) :
    (l.modified id f).record? k = if k = id then (l.record? id).map f else l.record? k := rfl

theorem record?_put (l : LinkedTree) (id k : NodeId) (r : Option Record) :
    (l.put id r).record? k = if k = id then r else l.record? k := rfl

theorem markedOn_congr {ids ids' : List NodeId} (h : ∀ id, id ∈ ids ↔ id ∈ ids') :
    l.markedOn ids = l.markedOn ids' := by
  have hrecords : Forest.markRecords ids l.record? = Forest.markRecords ids' l.record? := by
    funext id
    simp only [Forest.markRecords, h]
  rw [markedOn, markedOn, hrecords]

/-- Marking some records and then others marks both. -/
theorem markedOn_markedOn (l : LinkedTree) (ids ids' : List NodeId) :
    (l.markedOn ids).markedOn ids' = l.markedOn (ids ++ ids') := by
  have htwice (r : Option Record) : (r.map Record.mark).map Record.mark = r.map Record.mark := by
    cases r <;> rfl
  unfold markedOn Forest.markRecords
  congr 1
  funext id
  by_cases h : id ∈ ids <;> by_cases h' : id ∈ ids' <;> simp [h, h', htwice]

theorem modified_mark (l : LinkedTree) (id : NodeId) :
    l.modified id Record.mark = l.markedOn [id] := by
  unfold modified put markedOn Forest.markRecords
  congr 1
  funext k
  by_cases h : k = id <;> simp [h]

end Tables

/-! ## §3 Downward -/

section Downward

variable {α : Type} {l l' : LinkedTree} {f : Forest} {up : Option NodeId}

theorem markAll_nil : markAll [] = pure () := by rw [markAll]

theorem markAll_cons (id : NodeId) (rest : List NodeId) :
    markAll (id :: rest) = (do
      let r ← read id
      update id Record.mark
      markAll (r.children.reverse ++ rest)) := by
  rw [markAll]

/-- With the roots of a forest on top of the stack, the walk marks the forest and goes on with the rest
of the stack. -/
theorem ends_markAll (h : f.Recorded l.record? up) (hnd : f.ids.Nodup) {rest : List NodeId}
    {a : Except TreeError Unit} (hrest : Ends (markAll rest) (l.markedOn f.ids) a l') :
    Ends (markAll (f.rootIds.reverse ++ rest)) l a l' := by
  induction f generalizing l up rest with
  | nil => exact hrest
  | tree n children others ihc ihr =>
    obtain ⟨⟨hnc, hnr⟩, hcnd, hrnd, hdisj⟩ := Forest.nodup_ids_tree.mp hnd
    obtain ⟨hn, hc, hr⟩ := h
    -- the trees beside the first one stand above it on the stack
    rw [Forest.rootIds_tree, List.reverse_cons, List.append_assoc, List.singleton_append]
    apply ihr hr hrnd
    have hread : (l.markedOn others.ids).record? n.id = some ⟨n, up, children.rootIds⟩ := by
      rw [record?_markedOn, if_neg hnr, hn]
    rw [markAll_cons]
    refine (ends_read hread).bind ((ends_update hread _).bind ?_)
    rw [modified_mark, markedOn_markedOn]
    -- the nodes below are still as they were
    have hbelow : children.Recorded (l.markedOn (others.ids ++ [n.id])).record? (some n.id) := by
      refine hc.congr fun k hk => ?_
      rw [record?_markedOn, if_neg]
      rw [List.mem_append, List.mem_singleton, not_or]
      exact ⟨hdisj k hk, fun heq => hnc (heq ▸ hk)⟩
    apply ihc hbelow hcnd
    rw [markedOn_markedOn, markedOn_congr fun id => ?_]
    · exact hrest
    · rw [Forest.ids_tree]
      simp only [List.mem_append, List.mem_cons, List.not_mem_nil, or_false]
      constructor
      · rintro ((h | h) | h)
        · exact .inr (.inr h)
        · exact .inl h
        · exact .inr (.inl h)
      · rintro (h | h | h)
        · exact .inl (.inr h)
        · exact .inr h
        · exact .inl (.inl h)

/-- Marking a node ends with its whole subtree marked. -/
theorem ends_markDirty {t : Node × Forest} (h : (Forest.single t).Recorded l.record? up)
    (hnd : (Forest.single t).ids.Nodup) :
    Ends (markDirty t.1.id) l (.ok ()) (l.markedOn (Forest.single t).ids) := by
  have hstart : [t.1.id] = (Forest.single t).rootIds.reverse ++ [] := rfl
  rw [markDirty, hstart]
  apply ends_markAll h hnd
  rw [markAll_nil]
  exact ends_pure ()

theorem collect_nil (found : List NodeId) : collect found [] = pure found := by rw [collect]

theorem collect_cons (found : List NodeId) (id : NodeId) (rest : List NodeId) :
    collect found (id :: rest) = (do
      let r ← read id
      collect (found ++ [id]) (r.children ++ rest)) := by
  rw [collect]

/-- With the roots of a forest on top of the stack, the walk finds the forest and goes on with the rest
of the stack. -/
theorem ends_collect (h : f.Recorded l.record? up) {found rest : List NodeId}
    {a : Except TreeError (List NodeId)} (hrest : Ends (collect (found ++ f.ids) rest) l a l') :
    Ends (collect found (f.rootIds ++ rest)) l a l' := by
  induction f generalizing up found rest with
  | nil => simpa using hrest
  | tree n children others ihc ihr =>
    obtain ⟨hn, hc, hr⟩ := h
    rw [Forest.rootIds_tree, List.cons_append, collect_cons]
    refine (ends_read hn).bind (ihc hc (ihr hr ?_))
    -- found are now the root, what is below it and what is beside it
    rw [Forest.ids_tree] at hrest
    simpa using hrest

theorem ends_descendants {t : Node × Forest} (h : (Forest.single t).Recorded l.record? up) :
    Ends (descendants t.1.id) l (.ok t.2.ids) l := by
  obtain ⟨hn, hc⟩ := Forest.recorded_single.mp h
  refine (ends_read hn).bind ?_
  show Ends (collect [] t.2.rootIds) l (.ok t.2.ids) l
  rw [← List.append_nil t.2.rootIds]
  apply ends_collect hc
  rw [collect_nil]
  exact ends_pure _

theorem ends_preorder {t : Node × Forest} (h : (Forest.single t).Recorded l.record? up) :
    Ends (preorder t.1.id) l (.ok (Forest.single t).ids) l := by
  refine (ends_descendants h).bind ?_
  rw [Forest.single, Forest.ids_tree, Forest.ids_nil, List.append_nil]
  exact ends_pure _

end Downward

/-! ## §4 Upward -/

section Upward

variable {l : LinkedTree} {f : Forest} {id : NodeId} {n : Node} {above : List Node}

/-- In a table that holds a forest, the link to the parent leads one step up the path. -/
theorem record?_of_path? (h : f.Recorded l.record? none) (hp : f.path? id = some (n :: above)) :
    l.record? id = some ⟨n, above.head?.map Node.id, f.childIds id⟩ := by
  rw [h.of_path? hp, Option.or_none]

/-- **Climbing.** What holds beyond the roots, and holds from a node on if it holds from its parent on,
holds all the way down a path. -/
theorem climb (h : f.Recorded l.record? none) (hnd : f.ids.Nodup)
    (hp : f.path? id = some (n :: above)) {motive : List Node → Prop} (beyond : motive [])
    (step : ∀ k up, l.record? k.id = some ⟨k, up.head?.map Node.id, f.childIds k.id⟩ →
      motive up → motive (k :: up)) : motive above ∧ motive (n :: above) := by
  induction above generalizing id n with
  | nil =>
    have hn := record?_of_path? h hp
    rw [← Forest.id_of_path? hp] at hn
    exact ⟨beyond, step n [] hn beyond⟩
  | cons m up ih =>
    have hn := record?_of_path? h hp
    rw [← Forest.id_of_path? hp] at hn
    obtain ⟨-, hm⟩ := ih (Forest.path?_above hnd hp)
    exact ⟨hm, step n (m :: up) hn hm⟩

theorem ends_depth (h : f.Recorded l.record? none) (hnd : f.ids.Nodup)
    (hp : f.path? id = some (n :: above)) : Ends (depth id) l (.ok above.length) l := by
  have hcount := (climb h hnd hp (motive := fun p => ∀ count,
    Ends (countUp count (p.head?.map Node.id)) l (.ok (count + p.length)) l) ?_ ?_).1 0
  · rw [Nat.zero_add] at hcount
    exact (ends_read (record?_of_path? h hp)).bind hcount
  · intro count
    show Ends (countUp count none) l (.ok count) l
    rw [countUp]
    exact ends_pure count
  · intro k up hk hup count
    show Ends (countUp count (some k.id)) l _ l
    rw [countUp, List.length_cons, Nat.add_comm up.length 1, ← Nat.add_assoc]
    exact (ends_read hk).bind (hup (count + 1))

theorem ends_isUnder (h : f.Recorded l.record? none) (hnd : f.ids.Nodup) (ancestor : NodeId)
    (hp : f.path? id = some (n :: above)) :
    Ends (isUnder ancestor id) l (.ok ((n :: above).any fun k => k.id == ancestor)) l := by
  have hclimb := (climb h hnd hp (motive := fun p =>
    Ends (meets ancestor (p.head?.map Node.id)) l (.ok (p.any fun k => k.id == ancestor)) l)
    ?_ ?_).2
  · rwa [List.head?_cons, Option.map_some, Forest.id_of_path? hp] at hclimb
  · show Ends (meets ancestor none) l (.ok false) l
    rw [meets]
    exact ends_pure false
  · intro k up hk hup
    show Ends (meets ancestor (some k.id)) l _ l
    rw [meets, List.any_cons]
    by_cases hfound : k.id = ancestor
    · rw [if_pos hfound, beq_iff_eq.mpr hfound]
      exact ends_pure true
    · rw [if_neg hfound, beq_eq_false_iff_ne.mpr hfound, Bool.false_or]
      refine ends_get.bind ?_
      rw [hk]
      exact hup

theorem ends_isEffectivelyVisible (h : f.Recorded l.record? none) (hnd : f.ids.Nodup)
    (hp : f.path? id = some (n :: above)) :
    Ends (isEffectivelyVisible id) l (.ok ((n :: above).all Node.isVisible)) l := by
  have hclimb := (climb h hnd hp (motive := fun p =>
    Ends (allVisible (p.head?.map Node.id)) l (.ok (p.all Node.isVisible)) l) ?_ ?_).2
  · rwa [List.head?_cons, Option.map_some, Forest.id_of_path? hp] at hclimb
  · show Ends (allVisible none) l (.ok true) l
    rw [allVisible]
    exact ends_pure true
  · intro k up hk hup
    show Ends (allVisible (some k.id)) l _ l
    rw [allVisible, List.all_cons]
    refine (ends_read hk).bind ?_
    -- a hidden node ends the climb
    cases hvisible : k.isVisible with
    | false => exact ends_pure false
    | true => exact hup

end Upward

end LinkedTree

end StyledScene
