import StyledScene.Proofs.Tree.Births
import StyledScene.Proofs.Tree.Roots
import StyledScene.Proofs.Tree.Walks

/-!
# Linked trees and forests step together

A table represents a tree if it holds the tree's forest and nothing else. Every edit of the table then
ends, gives the answer that the edit of the tree gives, and leaves a table that represents the edited
tree (`Represents.agrees_edit`). An edit that is refused has not touched the table.
-/

namespace StyledScene

theorem Record.unlist_of_not_mem {r : Record} {child : NodeId} (h : child ∉ r.children) :
    r.unlist child = r := by
  have hkeep : r.children.filter (· != child) = r.children :=
    List.filter_eq_self.mpr fun k hk => bne_iff_ne.mpr fun heq => h (heq ▸ hk)
  rw [Record.unlist, hkeep]

/-- A parent does not lie below its child. -/
theorem NodeTree.mem_ids_prune_of_parentId? {t : NodeTree} (hnd : t.forest.ids.Nodup)
    {id parent : NodeId} (h : t.parentId? id = some parent) : parent ∈ (t.forest.prune id).ids := by
  obtain ⟨n, m, above, hp, rfl⟩ := NodeTree.parentId?_eq_some_iff.mp h
  obtain rfl := Forest.id_of_path? hp
  have hnot : n.id ∉ (m :: above).map Node.id :=
    (List.nodup_cons.mp (Forest.nodup_path hnd hp)).1
  exact Forest.mem_ids_of_path?
    ((Forest.path?_prune_iff hnd).mpr ⟨Forest.path?_above hnd hp, hnot⟩)

theorem NodeTree.not_mem_ids_prune_of_mem_single {t : NodeTree} (hnd : t.forest.ids.Nodup)
    {id k : NodeId} {sub : Node × Forest} (hsub : t.subtree? id = some sub)
    (hk : k ∈ (Forest.single sub).ids) : k ∉ (t.forest.prune id).ids := by
  have hsplit := (ids_perm_detached hnd hsub).nodup_iff.mp hnd
  rw [ids_detached] at hsplit
  exact fun hk' => (List.nodup_append.mp hsplit).2.2 k hk k hk' rfl

/-- A node that has just been made can be put under any living node. -/
theorem NodeTree.exists_setParent_create {t : NodeTree} (hwf : t.WellFormed) (tag : String)
    {parent : NodeId} (hlive : t.contains parent = true) :
    ∃ t', (t.create tag).2.setParent (t.create tag).1 (some parent) = .ok t' := by
  have hperm := t.ids_perm_create tag
  have hgrown : (t.create tag).2.contains parent = true :=
    NodeTree.contains_iff.mpr
      (hperm.mem_iff.mpr (List.mem_cons_of_mem _ (NodeTree.contains_iff.mp hlive)))
  obtain ⟨sub, hsub⟩ := Option.isSome_iff_exists.mp (show
    ((t.create tag).2.subtree? (t.create tag).1).isSome = true from
      NodeTree.contains_iff.mpr (hperm.mem_iff.mpr List.mem_cons_self))
  -- the path of the parent is as it was, so the new node is not on it
  have hunder : (t.create tag).2.isUnder (t.create tag).1 parent = false := by
    obtain ⟨p, hp⟩ := Forest.exists_path? (NodeTree.contains_iff.mp hlive)
    have hp' : (t.create tag).2.path? parent = some p := by
      refine (Forest.path?_insertRoot (hwf.new_not_mem tag) parent).trans ?_
      rw [hp, Option.some_or]
    rw [NodeTree.isUnder, hp']
    refine List.any_eq_false.mpr fun n hn heq => hwf.take_not_mem ?_
    exact beq_iff_eq.mp heq ▸ Forest.mem_ids_of_mem_path hp hn
  refine ⟨((t.create tag).2.detached (t.create tag).1).attached sub (some parent), ?_⟩
  rw [NodeTree.setParent, hsub]
  simp [hgrown, hunder]

namespace LinkedTree

/-! ## §1 Representation -/

/-- The table has the records of the tree's nodes and no others. -/
structure Represents (l : LinkedTree) (t : NodeTree) : Prop where
  recorded : t.forest.Recorded l.record? none
  dead : ∀ id, id ∉ t.forest.ids → l.record? id = none
  pool : l.pool = t.pool
  serial : l.nextSerial = t.nextSerial

theorem represents_empty : empty.Represents NodeTree.empty :=
  ⟨trivial, fun _ _ => rfl, rfl, rfl⟩

/-- The table with the records that the places of a tree give its nodes. -/
def ofTree (t : NodeTree) : LinkedTree := ⟨t.forest.recordOf? none, t.pool, t.nextSerial⟩

/-- So there is a table for every tree. -/
theorem represents_ofTree {t : NodeTree} (hnd : t.forest.ids.Nodup) : (ofTree t).Represents t where
  recorded := Forest.recorded_recordOf? hnd none
  dead id hdead := by
    show t.forest.recordOf? none id = none
    rw [Forest.recordOf?, Forest.path?_eq_none hdead]
  pool := rfl
  serial := rfl

/-- The work answers what the tree answers and takes the table along with the tree; if the tree refuses,
so does the work, and the table stays. -/
def Agrees {α : Type} (x : Work α) (l : LinkedTree) : Except TreeError (α × NodeTree) → Prop
  | .ok (a, t') => ∃ l', Ends x l (.ok a) l' ∧ l'.Represents t'
  | .error e => Ends x l (.error e) l

theorem Agrees.map {α β : Type} {x : Work α} {l : LinkedTree}
    {r : Except TreeError (α × NodeTree)} (h : Agrees x l r) (f : α → β) :
    Agrees (f <$> x) l (r.map fun answer => (f answer.1, answer.2)) := by
  cases r with
  | error e => exact Ends.map h f
  | ok answer =>
    obtain ⟨l', hends, hl'⟩ := h
    exact ⟨l', hends.map f, hl'⟩

/-- Work that has nothing to tell. -/
theorem Agrees.done {x : Work Unit} {l : LinkedTree} {r : Except TreeError NodeTree}
    (h : Agrees x l (r.map fun after => ((), after))) :
    Agrees ((fun _ => TreeReply.done) <$> x) l (r.map fun after => (.done, after)) := by
  have hmap := h.map fun _ => TreeReply.done
  cases r <;> exact hmap

/-- Work that begins by looking at the table. -/
theorem Agrees.bind {α β : Type} {x : Work α} {a : α} {f : α → Work β} {l : LinkedTree}
    {r : Except TreeError (β × NodeTree)} (hx : Ends x l (.ok a) l) (h : Agrees (f a) l r) :
    Agrees (x >>= f) l r := by
  cases r with
  | error e => exact hx.bind h
  | ok answer =>
    obtain ⟨l', hends, hl'⟩ := h
    exact ⟨l', hx.bind hends, hl'⟩

namespace Represents

variable {l : LinkedTree} {t : NodeTree} {id : NodeId} {sub : Node × Forest}

theorem single_recorded (h : l.Represents t) (hsub : t.subtree? id = some sub) :
    ∃ up, (Forest.single sub).Recorded l.record? up :=
  h.recorded.of_subtree? hsub

theorem record?_of_subtree? (h : l.Represents t) (hsub : t.subtree? id = some sub) :
    ∃ up, l.record? id = some ⟨sub.1, up, sub.2.rootIds⟩ := by
  obtain ⟨up, hrecorded⟩ := h.single_recorded hsub
  rw [← NodeTree.subtree?_id hsub]
  exact ⟨up, (Forest.recorded_single.mp hrecorded).1⟩

theorem ends_read_of_dead (h : l.Represents t) (hdead : t.subtree? id = none) :
    Ends (read id) l (.error (.invalidNode id)) l := by
  apply ends_read_dead
  exact h.dead id (Forest.not_mem_ids_of_subtree? hdead)

theorem record?_of_path? (h : l.Represents t) {n : Node} {above : List Node}
    (hp : t.path? id = some (n :: above)) :
    l.record? id = some ⟨n, t.parentId? id, t.childIds id⟩ := by
  rw [LinkedTree.record?_of_path? h.recorded hp, NodeTree.childIds_eq]
  cases above with
  | nil => rw [NodeTree.parentId?_of_root hp]; rfl
  | cons m up => rw [NodeTree.parentId?_of_path? hp]; rfl

/-- The record of a node is what the tree says about it. -/
theorem record?_eq_some (h : l.Represents t) {r : Record} (hr : l.record? id = some r) :
    ∃ above, t.path? id = some (r.data :: above) ∧ r.parent = t.parentId? id ∧
      r.children = t.childIds id := by
  have hlive : id ∈ t.forest.ids := by
    by_contra hdead
    rw [h.dead id hdead] at hr
    cases hr
  obtain ⟨n, above, hp, -⟩ := NodeTree.path?_of_contains (NodeTree.contains_iff.mpr hlive)
  rw [h.record?_of_path? hp] at hr
  obtain rfl := Option.some.inj hr
  exact ⟨above, hp, rfl, rfl⟩

/-- A node is marked iff its record is. -/
theorem isDirty_eq (h : l.Represents t) (id : NodeId) :
    t.isDirty id = (l.record? id).elim (.error (.invalidNode id)) fun r => .ok r.data.dirty := by
  cases hr : l.record? id with
  | some r =>
    obtain ⟨above, hp, -⟩ := h.record?_eq_some hr
    exact NodeTree.isDirty_of_path? hp
  | none =>
    have hdead : t.subtree? id = none := by
      by_contra hlive
      obtain ⟨sub, hsub⟩ := Option.ne_none_iff_exists'.mp hlive
      obtain ⟨up, hrecord⟩ := h.record?_of_subtree? hsub
      rw [hr] at hrecord
      cases hrecord
    rw [NodeTree.isDirty, NodeTree.ask, hdead]
    rfl

/-- A tree leaves its table no choice. -/
theorem unique {l' : LinkedTree} (h : l.Represents t) (h' : l'.Represents t) : l' = l := by
  have hrecords : l'.record? = l.record? := by
    funext id
    by_cases hlive : id ∈ t.forest.ids
    · obtain ⟨n, above, hp, -⟩ := NodeTree.path?_of_contains (NodeTree.contains_iff.mpr hlive)
      rw [h.record?_of_path? hp, h'.record?_of_path? hp]
    · rw [h.dead id hlive, h'.dead id hlive]
  have hpool := h'.pool.trans h.pool.symm
  have hserial := h'.serial.trans h.serial.symm
  cases l
  cases l'
  exact LinkedTree.mk.injEq .. ▸ ⟨hrecords, hpool, hserial⟩

/-- Whoever is not the parent of a node does not list it. -/
theorem map_unlist (h : l.Represents t) (hnd : t.forest.ids.Nodup) {k : NodeId}
    (hk : t.parentId? id ≠ some k) :
    (l.record? k).map (fun r => r.unlist id) = l.record? k := by
  cases hr : l.record? k with
  | none => rfl
  | some r =>
    obtain ⟨-, -, -, hchildren⟩ := h.record?_eq_some hr
    rw [Option.map_some, Record.unlist_of_not_mem]
    rw [hchildren, NodeTree.mem_childIds_iff_parentId? hnd]
    exact hk

end Represents

/-! ## §2 Marks -/

/-- Marking a node of a recorded forest. -/
theorem recorded_markDirty {l : LinkedTree} {f : Forest} {up : Option NodeId}
    (h : f.Recorded l.record? up) (hnd : f.ids.Nodup) {id : NodeId} (hid : id ∈ f.ids) :
    ∃ ids, ids ⊆ f.ids ∧ Ends (markDirty id) l (.ok ()) (l.markedOn ids) ∧
      (f.markUnder id).Recorded (l.markedOn ids).record? up := by
  obtain ⟨sub, hsub⟩ := Option.isSome_iff_exists.mp ((Forest.subtree?_isSome id f).mpr hid)
  obtain ⟨up', hsingle⟩ := h.of_subtree? hsub
  have hends := ends_markDirty hsingle (Forest.nodup_ids_single hnd hsub)
  rw [(Forest.nodes_perm_of_subtree? hnd hsub).1] at hends
  exact ⟨_, Forest.ids_single_subset hsub, hends, h.markUnder hnd hsub⟩

theorem record?_markedOn_of_not_mem {l : LinkedTree} {ids ids' : List NodeId} (h : ids ⊆ ids')
    {id : NodeId} (hid : id ∉ ids') : (l.markedOn ids).record? id = l.record? id := by
  rw [record?_markedOn, if_neg fun hmem => hid (h hmem)]

namespace Represents

variable {l : LinkedTree} {t : NodeTree} {id : NodeId} {sub : Node × Forest}

theorem marked (h : l.Represents t) (hnd : t.forest.ids.Nodup) (hid : id ∈ t.forest.ids) :
    ∃ l', Ends (LinkedTree.markDirty id) l (.ok ()) l' ∧ l'.Represents (t.marked id) := by
  obtain ⟨ids, hsubset, hends, hrecorded⟩ := recorded_markDirty h.recorded hnd hid
  refine ⟨l.markedOn ids, hends, hrecorded, fun k hk => ?_, h.pool, h.serial⟩
  rw [NodeTree.ids_marked] at hk
  rw [record?_markedOn_of_not_mem hsubset hk, h.dead k hk]

theorem agrees_markDirty (h : l.Represents t) (hwf : t.WellFormed) (id : NodeId) :
    Agrees (LinkedTree.markDirty id) l ((t.markDirty id).map fun after => ((), after)) := by
  unfold NodeTree.markDirty NodeTree.ask
  cases hsub : t.subtree? id with
  | none =>
    show Ends (LinkedTree.markDirty id) l _ l
    rw [LinkedTree.markDirty, markAll_cons]
    exact (h.ends_read_of_dead hsub).bind_error
  | some sub => exact h.marked hwf.nodup_ids (NodeTree.mem_ids_of_subtree? hsub)

/-! ## §3 Data -/

/-- Changing the data of one node in its record. -/
theorem modify (h : l.Represents t) {g : Node → Node} (hg : ∀ n, n.id = id → (g n).id = id) :
    (l.modified id fun r => { r with data := g r.data }).Represents
      { t with forest := t.forest.modify id g } := by
  have hkeep (n : Node) : (if n.id = id then g n else n).id = n.id := by
    split
    · rename_i hn
      exact (hg n hn).trans hn.symm
    · rfl
  refine ⟨h.recorded.map hkeep fun k hk => ?_, fun k hk => ?_, h.pool, h.serial⟩
  · -- a record stands under the id of its node
    obtain ⟨n, above, hp, -⟩ := NodeTree.path?_of_contains (NodeTree.contains_iff.mpr hk)
    have hn := Forest.id_of_path? hp
    rw [record?_modified, h.record?_of_path? hp]
    by_cases hid : k = id
    · rw [if_pos hid, ← hid, h.record?_of_path? hp]
      simp [hn]
    · rw [if_neg hid]
      simp [hn, hid]
  · have hk' : k ∉ t.forest.ids := by
      rwa [Forest.modify, Forest.ids_map hkeep] at hk
    rw [record?_modified]
    split
    · rename_i hid
      rw [← hid, h.dead k hk']
      rfl
    · exact h.dead k hk'

theorem agrees_clearDirty (h : l.Represents t) (id : NodeId) :
    Agrees (LinkedTree.clearDirty id) l ((t.clearDirty id).map fun after => ((), after)) := by
  unfold NodeTree.clearDirty NodeTree.ask
  cases hsub : t.subtree? id with
  | none => exact (h.ends_read_of_dead hsub).bind_error
  | some sub =>
    obtain ⟨up, hr⟩ := h.record?_of_subtree? hsub
    exact ⟨_, ends_update hr _, h.modify fun n hn => hn⟩

/-- An edit of one node that keeps its ids. -/
theorem agrees_revise (h : l.Represents t) (hwf : t.WellFormed) (id : NodeId)
    {edit : Node → Option Node} (hident : ∀ n n', edit n = some n' → n'.ident = n.ident) :
    Agrees (LinkedTree.revise id edit) l (t.revise id edit) := by
  unfold NodeTree.revise NodeTree.ask
  cases hsub : t.subtree? id with
  | none => exact (h.ends_read_of_dead hsub).bind_error
  | some sub =>
    obtain ⟨up, hr⟩ := h.record?_of_subtree? hsub
    refine Agrees.bind (ends_read hr) ?_
    simp only
    cases hn : edit sub.1 with
    | none => exact ⟨l, ends_pure false, h⟩
    | some n =>
      -- the record gets the new data, and then everything below is marked
      have hid : n.id = id :=
        (Prod.mk.inj (hident _ _ hn)).1.trans (NodeTree.subtree?_id hsub)
      have hmodified : (l.modified id fun r => { r with data := n }).Represents
          { t with forest := t.forest.modify id fun _ => n } := h.modify fun _ _ => hid
      have hids : (t.forest.modify id fun _ => n).ids = t.forest.ids := by
        have hrevised := t.ids_revised hid
        rwa [NodeTree.revised, NodeTree.ids_marked] at hrevised
      obtain ⟨l', hmark, hl'⟩ := hmodified.marked (hids ▸ hwf.nodup_ids)
        (hids ▸ NodeTree.mem_ids_of_subtree? hsub)
      exact ⟨l', (ends_update hr _).bind (hmark.bind (ends_pure true)), hl'⟩

theorem agrees_toggleClass (h : l.Represents t) (hwf : t.WellFormed) (id : NodeId) (name : String) :
    Agrees (LinkedTree.toggleClass id name) l (t.toggleClass id name) := by
  unfold NodeTree.toggleClass NodeTree.hasClass NodeTree.ask
  cases hsub : t.subtree? id with
  | none => exact (h.ends_read_of_dead hsub).bind_error
  | some sub =>
    obtain ⟨up, hr⟩ := h.record?_of_subtree? hsub
    refine Agrees.bind (ends_read hr) ?_
    simp only
    cases hclass : sub.1.hasClass name with
    | false => exact h.agrees_revise hwf id NodeTree.ident_of_addClass?
    | true => exact (h.agrees_revise hwf id NodeTree.ident_of_removeClass?).map fun _ => false

end Represents

/-! ## §4 Shape -/

/-- What taking a node out of its parent's list does to the table: it holds the forest without the
node's subtree, and the records of that subtree are as they were. -/
structure Unlisted (l : LinkedTree) (t : NodeTree) (id : NodeId) (sub : Node × Forest)
    (l' : LinkedTree) : Prop where
  recorded : (t.detached id).forest.Recorded l'.record? none
  same : ∀ k ∈ (Forest.single sub).ids, l'.record? k = l.record? k
  dead : ∀ k, k ∉ t.forest.ids → l'.record? k = none
  pool : l'.pool = t.pool
  serial : l'.nextSerial = t.nextSerial

namespace Represents

variable {l : LinkedTree} {t : NodeTree} {id : NodeId} {sub : Node × Forest}

theorem ends_unlist (h : l.Represents t) (hwf : t.WellFormed) (hsub : t.subtree? id = some sub) :
    ∃ l', Ends (LinkedTree.unlist id) l (.ok ()) l' ∧ l.Unlisted t id sub l' := by
  have hnd := hwf.nodup_ids
  obtain ⟨n, above, hp, -⟩ := NodeTree.path?_of_contains
    (NodeTree.contains_iff.mpr (NodeTree.mem_ids_of_subtree? hsub))
  have hread := ends_read (h.record?_of_path? hp)
  cases hparent : t.parentId? id with
  | none =>
    rw [hparent] at hread
    refine ⟨l, hread.bind (ends_pure ()), ?_, fun _ _ => rfl, h.dead, h.pool, h.serial⟩
    -- nobody lists a root
    rw [NodeTree.detached, hparent]
    refine Forest.Recorded.prune h.recorded hnd fun k _ => (h.map_unlist hnd ?_).symm
    rw [hparent]
    exact (Option.some_ne_none k).symm
  | some parent =>
    rw [hparent] at hread
    have hpruned : (t.forest.prune id).Recorded
        (l.modified parent fun r => r.unlist id).record? none := by
      refine h.recorded.prune hnd fun k _ => ?_
      rw [record?_modified]
      split
      · rename_i hk
        rw [hk]
      · rename_i hk
        refine (h.map_unlist hnd fun heq => hk ?_).symm
        rw [hparent] at heq
        exact (Option.some.inj heq).symm
    have hstays := NodeTree.mem_ids_prune_of_parentId? hnd hparent
    obtain ⟨ids, hsubset, hends, hrecorded⟩ :=
      recorded_markDirty hpruned (Forest.nodup_ids_prune hnd id) hstays
    refine ⟨_, hread.bind ((ends_modify _).bind hends), ?_, fun k hk => ?_, fun k hk => ?_, h.pool,
      h.serial⟩
    · rw [NodeTree.detached, hparent]
      exact hrecorded
    · -- neither the parent nor what is marked below it lies in the subtree
      have hout := NodeTree.not_mem_ids_prune_of_mem_single hnd hsub hk
      rw [record?_markedOn_of_not_mem hsubset hout, record?_modified,
        if_neg fun heq : k = parent => hout (heq ▸ hstays)]
    · have hout : k ∉ (t.forest.prune id).ids := fun hk' => hk (Forest.mem_ids_of_mem_prune hk')
      rw [record?_markedOn_of_not_mem hsubset hout, record?_modified,
        if_neg fun heq : k = parent => hout (heq ▸ hstays), h.dead k hk]

end Represents

namespace Unlisted

variable {l l' : LinkedTree} {t : NodeTree} {id : NodeId} {sub : Node × Forest}

/-- With the link to its parent changed, the subtree that was taken out stands below that parent. -/
theorem relinked (h : l.Unlisted t id sub l') (hl : l.Represents t) (hwf : t.WellFormed)
    (hsub : t.subtree? id = some sub) (parent : Option NodeId) :
    (Forest.single sub).Recorded (l'.modified id fun r => { r with parent := parent }).record?
      parent := by
  obtain ⟨up, hrecorded⟩ := hl.single_recorded hsub
  obtain ⟨hroot, hbelow⟩ := Forest.recorded_single.mp (hrecorded.congr h.same)
  have hid := NodeTree.subtree?_id hsub
  obtain ⟨⟨hnot, -⟩, -⟩ :=
    Forest.nodup_ids_tree.mp (Forest.nodup_ids_single hwf.nodup_ids hsub)
  rw [hid] at hroot hnot
  refine Forest.recorded_single.mpr ⟨?_, hbelow.congr fun k hk => ?_⟩
  · rw [record?_modified, if_pos hid, hroot]
    rfl
  · rw [record?_modified, if_neg fun heq : k = id => hnot (heq ▸ hk)]

/-- The nodes that stayed are as they were. -/
theorem others (h : l.Unlisted t id sub l') (hwf : t.WellFormed) (f : Record → Record) :
    (t.detached id).forest.Recorded (l'.modified id f).record? none := by
  refine h.recorded.congr fun k hk => ?_
  rw [NodeTree.ids_detached] at hk
  rw [record?_modified,
    if_neg fun heq : k = id => Forest.not_mem_ids_prune hwf.nodup_ids id (heq ▸ hk)]

/-- Linking the subtree to its new parent, and the parent to the subtree, completes the move. -/
theorem ends_relink (h : l.Unlisted t id sub l') (hl : l.Represents t) (hwf : t.WellFormed)
    (hsub : t.subtree? id = some sub) {parent : Option NodeId}
    (hparent : ∀ p, parent = some p → t.contains p = true ∧ t.isUnder id p = false) :
    ∃ l'', Ends (do update id (fun r => { r with parent := parent }); enlist id parent) l' (.ok ())
        l'' ∧ l''.Represents ((t.detached id).attached sub parent) := by
  have hnd := hwf.nodup_ids
  have hid := NodeTree.subtree?_id hsub
  have hlive := NodeTree.mem_ids_of_subtree? hsub
  have hmoves : t.MovesTo id parent ((t.detached id).attached sub parent) :=
    ⟨sub, hsub, hparent, rfl⟩
  have hperm := (hmoves.ids_perm hnd).1
  have hrelinked := h.relinked hl hwf hsub parent
  have hothers := h.others hwf fun r => { r with parent := parent }
  have hdead (k : NodeId) (hk : k ∉ t.forest.ids) :
      (l'.modified id fun r => { r with parent := parent }).record? k = none := by
    rw [record?_modified, if_neg fun heq : k = id => hk (heq ▸ hlive), h.dead k hk]
  have hread : ∃ r, l'.record? id = some r := by
    obtain ⟨up, hr⟩ := hl.record?_of_subtree? hsub
    exact ⟨_, (h.same id (Forest.mem_ids_single.mpr (.inl hid.symm))).trans hr⟩
  obtain ⟨r, hr⟩ := hread
  cases parent with
  | none =>
    -- the subtree is put among the roots, and then it is marked
    rw [NodeTree.attached, NodeTree.ids_marked] at hperm
    have hplaced : (l'.modified id fun r => { r with parent := none }).Represents
        { t.detached id with forest := (t.detached id).forest.insertRoot sub } :=
      ⟨hothers.insertRoot hrelinked, fun k hk => hdead k fun hk' => hk (hperm.mem_iff.mpr hk'),
        h.pool.trans (t.pool_detached id).symm, h.serial.trans (t.nextSerial_detached id).symm⟩
    obtain ⟨l'', hends, hl''⟩ := hplaced.marked (hperm.nodup_iff.mpr hnd) (hperm.mem_iff.mpr hlive)
    refine ⟨l'', (ends_update hr _).bind hends, ?_⟩
    rw [NodeTree.attached, hid]
    exact hl''
  | some p =>
    obtain ⟨hplive, hunder⟩ := hparent p rfl
    have hp := NodeTree.mem_ids_detached_of_not_isUnder hnd hplive hunder
    have hdnd : (t.detached id).forest.ids.Nodup := by
      rw [NodeTree.ids_detached]
      exact Forest.nodup_ids_prune hnd id
    -- the new parent does not lie in the subtree
    have hne (k : NodeId) (hk : k ∈ (Forest.single sub).ids) : k ≠ p := by
      rintro rfl
      rw [NodeTree.ids_detached] at hp
      exact NodeTree.not_mem_ids_prune_of_mem_single hnd hsub hk hp
    obtain ⟨rp, hrp⟩ := hothers.exists_record? hp
    rw [NodeTree.attached, NodeTree.ids_marked] at hperm
    have hplaced : ((l'.modified id fun r => { r with parent := some p }).modified p fun r =>
        r.enlist id).Represents
          { t.detached id with forest := (t.detached id).forest.graft p sub } := by
      refine ⟨hothers.graft hdnd (hrelinked.congr fun k hk => ?_) (fun k _ hk => ?_) fun _ => ?_,
        fun k hk => ?_, h.pool.trans (t.pool_detached id).symm,
        h.serial.trans (t.nextSerial_detached id).symm⟩
      · rw [record?_modified, if_neg (hne k hk)]
      · rw [record?_modified, if_neg hk]
      · rw [record?_modified, if_pos rfl, hid]
      · have hk' : k ∉ t.forest.ids := fun hk' => hk (hperm.mem_iff.mpr hk')
        rw [record?_modified, if_neg fun heq : k = p => hk' ?_, hdead k hk']
        exact heq ▸ NodeTree.contains_iff.mp hplive
    obtain ⟨l'', hends, hl''⟩ := hplaced.marked (hperm.nodup_iff.mpr hnd)
      (hperm.mem_iff.mpr (NodeTree.contains_iff.mp hplive))
    exact ⟨l'', (ends_update hr _).bind ((ends_update hrp _).bind hends), hl''⟩

end Unlisted

namespace Represents

variable {l : LinkedTree} {t : NodeTree}

theorem ends_isUnder (h : l.Represents t) (hwf : t.WellFormed) (ancestor : NodeId) {id : NodeId}
    (hlive : t.contains id = true) :
    Ends (LinkedTree.isUnder ancestor id) l (.ok (t.isUnder ancestor id)) l := by
  obtain ⟨n, above, hp, -⟩ := NodeTree.path?_of_contains hlive
  rw [NodeTree.isUnder, hp]
  exact LinkedTree.ends_isUnder h.recorded hwf.nodup_ids ancestor hp

/-- A parent that is checked is refused for the reason for which the tree refuses it. -/
theorem agrees_setParent (h : l.Represents t) (hwf : t.WellFormed) (id : NodeId)
    (parent : Option NodeId) :
    Agrees (LinkedTree.setParent id parent) l
      ((t.setParent id parent).map fun after => ((), after)) := by
  unfold NodeTree.setParent
  cases hsub : t.subtree? id with
  | none => exact (h.ends_read_of_dead hsub).bind_error
  | some sub =>
    obtain ⟨up, hr⟩ := h.record?_of_subtree? hsub
    refine Agrees.bind (ends_read hr) ?_
    -- what is left to do once the parent has been checked
    have hmove (hparent : ∀ p, parent = some p → t.contains p = true ∧ t.isUnder id p = false)
        (hcheck : Ends (checkParent id parent) l (.ok ()) l) :
        Agrees (checkParent id parent >>= fun _ => unlist id >>= fun _ =>
          (do update id (fun r => { r with parent := parent }); enlist id parent)) l
          (.ok ((), (t.detached id).attached sub parent)) := by
      refine Agrees.bind hcheck ?_
      obtain ⟨l', hunlist, hl'⟩ := h.ends_unlist hwf hsub
      obtain ⟨l'', hrelink, hl''⟩ := hl'.ends_relink h hwf hsub hparent
      exact ⟨l'', hunlist.bind hrelink, hl''⟩
    cases parent with
    | none => exact hmove (fun _ hp => (Option.some_ne_none _ hp.symm).elim) (ends_pure ())
    | some p =>
      simp only
      cases hpsub : t.subtree? p with
      | none =>
        have hpdead : t.contains p = false := by rw [NodeTree.contains, hpsub]; rfl
        rw [hpdead]
        exact (h.ends_read_of_dead hpsub).bind_error.bind_error
      | some psub =>
        have hplive : t.contains p = true := by rw [NodeTree.contains, hpsub]; rfl
        obtain ⟨_, hpr⟩ := h.record?_of_subtree? hpsub
        have hclimb := h.ends_isUnder hwf id hplive
        rw [hplive]
        cases hunder : t.isUnder id p with
        | true =>
          rw [hunder] at hclimb
          exact ((ends_read hpr).bind (hclimb.bind (ends_throw _))).bind_error
        | false =>
          rw [hunder] at hclimb
          refine hmove (fun q hq => ?_) ((ends_read hpr).bind (hclimb.bind (ends_pure ())))
          obtain rfl := Option.some.inj hq
          exact ⟨hplive, hunder⟩

theorem ends_create (h : l.Represents t) (hwf : t.WellFormed) (tag : String) :
    ∃ l', Ends (LinkedTree.create tag) l (.ok (t.create tag).1) l' ∧
      l'.Represents (t.create tag).2 := by
  have hfresh := hwf.take_not_mem
  have hends : Ends (LinkedTree.create tag) l (.ok l.pool.take.1)
      { l.put l.pool.take.1 (some ⟨Node.new l.pool.take.1 tag l.nextSerial, none, []⟩) with
        pool := l.pool.take.2
        nextSerial := l.nextSerial + 1 } := rfl
  rw [h.pool, h.serial] at hends
  refine ⟨_, hends, ?_, fun k hk => ?_, rfl, rfl⟩
  · -- the id of the new node is new, so the old records stay
    refine Forest.Recorded.insertRoot (h.recorded.congr fun k hk => ?_)
      (Forest.recorded_single.mpr ⟨if_pos rfl, trivial⟩)
    exact if_neg fun heq : k = t.pool.take.1 => hfresh (heq ▸ hk)
  · rw [(t.ids_perm_create tag).mem_iff, List.mem_cons, not_or] at hk
    exact (if_neg hk.1).trans (h.dead k hk.2)

theorem agrees_createChild (h : l.Represents t) (hwf : t.WellFormed) (parent : NodeId)
    (tag : String) : Agrees (LinkedTree.createChild parent tag) l (t.createChild parent tag) := by
  unfold NodeTree.createChild
  cases hsub : t.subtree? parent with
  | none =>
    have hdead : t.contains parent = false := by rw [NodeTree.contains, hsub]; rfl
    rw [hdead]
    exact (h.ends_read_of_dead hsub).bind_error
  | some sub =>
    have hlive : t.contains parent = true := by rw [NodeTree.contains, hsub]; rfl
    obtain ⟨_, hr⟩ := h.record?_of_subtree? hsub
    rw [if_pos hlive]
    refine Agrees.bind (ends_read hr) ?_
    obtain ⟨l', hcreate, hl'⟩ := h.ends_create hwf tag
    have hmove := hl'.agrees_setParent (hwf.create tag) (t.create tag).1 (some parent)
    obtain ⟨placed, hplaced⟩ := NodeTree.exists_setParent_create hwf tag hlive
    simp only [hplaced] at hmove ⊢
    obtain ⟨l'', hset, hl''⟩ := hmove
    exact ⟨l'', hcreate.bind (hset.bind (ends_pure _)), hl''⟩

end Represents

/-- Removing nodes that live takes their records away and releases their slots one by one. -/
theorem foldl_removed {l : LinkedTree} {ids : List NodeId} (hnd : ids.Nodup)
    (hlive : ∀ id ∈ ids, (l.record? id).isSome = true) :
    ids.foldl removed l =
      ⟨fun k => if k ∈ ids then none else l.record? k, ids.foldl IdPool.release l.pool,
        l.nextSerial⟩ := by
  induction ids generalizing l with
  | nil => simp
  | cons id ids ih =>
    obtain ⟨hnot, hnd⟩ := List.nodup_cons.mp hnd
    obtain ⟨hid, hlive⟩ := List.forall_mem_cons.mp hlive
    have hremoved : l.removed id = { l.put id none with pool := l.pool.release id } := if_pos hid
    rw [List.foldl_cons, hremoved, ih hnd fun k hk => ?_]
    · simp only [List.foldl_cons, LinkedTree.mk.injEq, true_and]
      refine ⟨funext fun k => ?_, rfl⟩
      rw [record?_put]
      by_cases hk : k = id <;> simp [hk]
    · rw [record?_put, if_neg fun heq : k = id => hnot (heq ▸ hk)]
      exact hlive k hk

namespace Represents

variable {l : LinkedTree} {t : NodeTree}

theorem agrees_destroy (h : l.Represents t) (hwf : t.WellFormed) (id : NodeId) :
    Agrees (LinkedTree.destroy id) l ((t.destroy id).map fun after => ((), after)) := by
  unfold NodeTree.destroy NodeTree.ask
  cases hsub : t.subtree? id with
  | none => exact (h.ends_read_of_dead hsub).bind_error.bind_error
  | some sub =>
    have hid := NodeTree.subtree?_id hsub
    have hperm := NodeTree.ids_perm_destroy hwf.nodup_ids hsub
    obtain ⟨up, hsingle⟩ := h.single_recorded hsub
    have hwalk := ends_descendants hsingle
    rw [hid] at hwalk
    refine Agrees.bind hwalk ?_
    obtain ⟨l', hunlist, hl'⟩ := h.ends_unlist hwf hsub
    obtain ⟨hdoomed, -, hdisj⟩ := List.nodup_append.mp (hperm.nodup_iff.mp hwf.nodup_ids)
    have hmem (k : NodeId) : k ∈ sub.2.ids ++ [id] ↔ k ∈ (Forest.single sub).ids := by
      rw [Forest.mem_ids_single, hid, List.mem_append, List.mem_singleton]
      exact or_comm
    -- the records of the subtree are there until now
    have hlive (k : NodeId) (hk : k ∈ sub.2.ids ++ [id]) : (l'.record? k).isSome = true := by
      obtain ⟨r, hr⟩ := hsingle.exists_record? ((hmem k).mp hk)
      rw [hl'.same k ((hmem k).mp hk), hr]
      rfl
    refine ⟨_, hunlist.bind (ends_modify _), ?_⟩
    rw [foldl_removed hdoomed hlive]
    refine ⟨hl'.recorded.congr fun k hk => ?_, fun k hk => ?_, ?_, ?_⟩
    · exact if_neg fun hk' => hdisj k hk' k hk rfl
    · show (if k ∈ sub.2.ids ++ [id] then none else l'.record? k) = none
      split
      · rfl
      · rename_i hnot
        refine hl'.dead k fun hk' => ?_
        exact (List.mem_append.mp (hperm.mem_iff.mp hk')).elim hnot hk
    · show (sub.2.ids ++ [id]).foldl IdPool.release l'.pool = _
      rw [hl'.pool]
    · exact hl'.serial.trans (t.nextSerial_detached id).symm

/-! ## §5 Every edit -/

/-- **Table and tree step together**: the edit of the table ends, answers what the edit of the tree
answers, and leaves a table that represents the edited tree. -/
theorem agrees_edit (h : l.Represents t) (hwf : t.WellFormed) (e : TreeEdit) :
    Agrees (LinkedTree.edit e) l (t.edit e) := by
  cases e with
  | create tag =>
    obtain ⟨l', hends, hl'⟩ := h.ends_create hwf tag
    exact ⟨l', hends.map _, hl'⟩
  | createChild parent tag => exact (h.agrees_createChild hwf parent tag).map TreeReply.created
  | destroy id => exact (h.agrees_destroy hwf id).done
  | setParent id parent => exact (h.agrees_setParent hwf id parent).done
  | pushTag id tag => exact (h.agrees_revise hwf id NodeTree.ident_of_pushTag?).map fun _ => TreeReply.done
  | setAuthorId id value =>
    exact (h.agrees_revise hwf id NodeTree.ident_of_setAuthorId?).map fun _ => TreeReply.done
  | addClass id name => exact (h.agrees_revise hwf id NodeTree.ident_of_addClass?).map TreeReply.changed
  | removeClass id name => exact (h.agrees_revise hwf id NodeTree.ident_of_removeClass?).map TreeReply.changed
  | toggleClass id name => exact (h.agrees_toggleClass hwf id name).map TreeReply.changed
  | setState id flags on => exact (h.agrees_revise hwf id NodeTree.ident_of_setState?).map TreeReply.changed
  | markDirty id => exact (h.agrees_markDirty hwf id).done
  | clearDirty id => exact (h.agrees_clearDirty id).done

/-- A table keeps representing the tree, over every run of edits; so no edit runs for ever. -/
theorem run (h : l.Represents t) (hwf : t.WellFormed) (edits : List TreeEdit) :
    ∃ l', l.run edits = some l' ∧ l'.Represents (t.run edits) := by
  induction edits generalizing l t with
  | nil => exact ⟨l, rfl, h⟩
  | cons e edits ih =>
    have hstep := h.agrees_edit hwf e
    have hwf' := (NodeTree.editsTo_after t e).wellFormed hwf
    have hafter : ∃ l', l.after e = some l' ∧ l'.Represents (t.after e) := by
      unfold LinkedTree.after NodeTree.after
      cases hedit : t.edit e with
      | error err =>
        rw [hedit] at hstep
        exact ⟨l, congrArg (Option.map Prod.snd) hstep, h⟩
      | ok answer =>
        rw [hedit] at hstep
        obtain ⟨l', hends, hl'⟩ := hstep
        exact ⟨l', congrArg (Option.map Prod.snd) hends, hl'⟩
    obtain ⟨l', hl', hrepresents⟩ := hafter
    obtain ⟨l'', hrun, hend⟩ := ih hrepresents hwf'
    refine ⟨l'', ?_, hend⟩
    rw [LinkedTree.run, List.foldlM_cons, hl']
    exact hrun

end Represents

end LinkedTree

end StyledScene
