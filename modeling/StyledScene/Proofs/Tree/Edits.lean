import StyledScene.Proofs.Tree.Reshaping
import StyledScene.Tree.Edit

/-!
# Accepted edits

What an edit that is not refused does to a tree. `EditsTo` has one case per kind of change, with
everything that the edit has checked; `editsTo_of_edit_eq_ok` reads it off an accepted edit, so that
later proofs go by cases and never open the edits themselves.
-/

namespace StyledScene

/-- What no edit changes of a node: its id and the id that the tree gave it. -/
def Node.ident (n : Node) : NodeId × String := (n.id, n.autoId)

namespace NodeTree

/-! ## §1 Look-ups -/

theorem childIds_eq (t : NodeTree) (id : NodeId) : t.childIds id = t.forest.childIds id := rfl

theorem path?_eq (t : NodeTree) (id : NodeId) : t.path? id = t.forest.path? id := rfl

theorem subtree?_eq (t : NodeTree) (id : NodeId) : t.subtree? id = t.forest.subtree? id := rfl

theorem mem_ids_of_subtree? {t : NodeTree} {id : NodeId} {sub : Node × Forest}
    (h : t.subtree? id = some sub) : id ∈ t.forest.ids :=
  (Forest.subtree?_isSome id t.forest).mp (Option.isSome_iff_exists.mpr ⟨sub, h⟩)

theorem parentId?_of_path? {t : NodeTree} {id : NodeId} {n m : Node} {above : List Node}
    (h : t.path? id = some (n :: m :: above)) : t.parentId? id = some m.id := by
  rw [parentId?, h]

theorem parentId?_of_root {t : NodeTree} {id : NodeId} {n : Node}
    (h : t.path? id = some [n]) : t.parentId? id = none := by
  rw [parentId?, h]

/-- A parent is what the path of its child goes on with. -/
theorem parentId?_eq_some_iff {t : NodeTree} {id parent : NodeId} :
    t.parentId? id = some parent ↔
      ∃ n m above, t.path? id = some (n :: m :: above) ∧ m.id = parent := by
  constructor
  · intro h
    unfold parentId? at h
    split at h
    · rename_i n m above hp
      exact ⟨n, m, above, hp, Option.some.inj h⟩
    · cases h
  · rintro ⟨n, m, above, hp, rfl⟩
    exact parentId?_of_path? hp

theorem mem_childIds_iff_parentId? {t : NodeTree} (hnd : t.forest.ids.Nodup) {id parent : NodeId} :
    id ∈ t.childIds parent ↔ t.parentId? id = some parent := by
  rw [parentId?_eq_some_iff]
  exact Forest.mem_childIds_iff hnd

theorem ask_eq_ok_iff {t : NodeTree} {id : NodeId} {α : Type} {answer : Node → Forest → α} {a : α} :
    t.ask id answer = .ok a ↔ ∃ sub, t.subtree? id = some sub ∧ answer sub.1 sub.2 = a := by
  unfold ask
  cases t.subtree? id <;> simp

/-! ## §2 The changes of a tree -/

/-- The tree with the data of one node replaced, and everything below the node marked. -/
def revised (t : NodeTree) (id : NodeId) (n : Node) : NodeTree :=
  marked { t with forest := t.forest.modify id fun _ => n } id

/-- The tree `t'` comes from moving a subtree to a place that is not inside it. -/
def MovesTo (t : NodeTree) (id : NodeId) (parent : Option NodeId) (t' : NodeTree) : Prop :=
  ∃ sub, t.subtree? id = some sub ∧
    (∀ p, parent = some p → t.contains p = true ∧ t.isUnder id p = false) ∧
    t' = (t.detached id).attached sub parent

/-- The tree `t'` comes from an accepted edit. -/
inductive EditsTo (t : NodeTree) : TreeEdit → NodeTree → Prop where
  | create (tag : String) : EditsTo t (.create tag) (t.create tag).2
  | createChild {parent : NodeId} {tag : String} {t' : NodeTree}
      (h : (t.create tag).2.MovesTo (t.create tag).1 (some parent) t') :
      EditsTo t (.createChild parent tag) t'
  | destroy {id : NodeId} {sub : Node × Forest} (h : t.subtree? id = some sub) :
      EditsTo t (.destroy id)
        { t.detached id with pool := (sub.2.ids ++ [id]).foldl IdPool.release t.pool }
  | setParent {id : NodeId} {parent : Option NodeId} {t' : NodeTree}
      (h : t.MovesTo id parent t') : EditsTo t (.setParent id parent) t'
  | revise {e : TreeEdit} {id : NodeId} {n : Node} (hid : n.id = id) : EditsTo t e (t.revised id n)
  /-- There was nothing to change. -/
  | keep {e : TreeEdit} : EditsTo t e t
  | markDirty (id : NodeId) : EditsTo t (.markDirty id) (t.marked id)
  | clearDirty (id : NodeId) : EditsTo t (.clearDirty id) (t.cleaned id)

/-! ## §3 From accepted edits to changes -/

theorem movesTo_of_setParent_eq_ok {t t' : NodeTree} {id : NodeId} {parent : Option NodeId}
    (h : t.setParent id parent = .ok t') : t.MovesTo id parent t' := by
  unfold setParent at h
  split at h
  · cases h
  · rename_i sub hsub
    cases parent with
    | none =>
      exact ⟨sub, hsub, fun _ hp => (Option.some_ne_none _ hp.symm).elim, (Except.ok.inj h).symm⟩
    | some p =>
      simp only at h
      split at h
      · cases h
      · rename_i hlive
        -- the parent lives; what remains to be checked is the cycle
        split at h
        · cases h
        · rename_i hunder
          refine ⟨sub, hsub, ?_, (Except.ok.inj h).symm⟩
          rintro q hq
          obtain rfl := Option.some.inj hq
          exact ⟨by simpa using hlive, by simpa using hunder⟩

theorem subtree?_id {t : NodeTree} {id : NodeId} {sub : Node × Forest}
    (h : t.subtree? id = some sub) : sub.1.id = id := by
  rw [subtree?_eq] at h
  generalize t.forest = f at h
  induction f with
  | nil => cases h
  | tree n children rest ihc ihr =>
    rw [Forest.subtree?] at h
    split at h
    · rename_i hn
      rw [← Option.some.inj h]
      exact hn
    · cases hc : children.subtree? id with
      | none =>
        rw [hc] at h
        exact ihr h
      | some s =>
        rw [hc] at h
        exact ihc (hc.trans h)

/-- An edit of one node that keeps its ids either changes nothing or revises the node. -/
theorem editsTo_of_revise {t t' : NodeTree} {e : TreeEdit} {id : NodeId} {b : Bool}
    {edit : Node → Option Node} (hident : ∀ n n', edit n = some n' → n'.ident = n.ident)
    (h : t.revise id edit = .ok (b, t')) : t.EditsTo e t' := by
  obtain ⟨sub, hsub, hans⟩ := ask_eq_ok_iff.mp h
  split at hans
  · rename_i n' hn'
    obtain rfl := (Prod.mk.inj hans).2
    exact .revise ((Prod.mk.inj (hident _ _ hn')).1.trans (subtree?_id hsub))
  · obtain rfl := (Prod.mk.inj hans).2
    exact .keep

theorem ident_of_pushTag? {tag : String} (n n' : Node) (h : n.pushTag? tag = some n') :
    n'.ident = n.ident := by
  grind [Node.ident, Node.pushTag?]

theorem ident_of_setAuthorId? {value : Option String} (n n' : Node)
    (h : n.setAuthorId? value = some n') : n'.ident = n.ident := by
  grind [Node.ident, Node.setAuthorId?]

theorem ident_of_addClass? {name : String} (n n' : Node) (h : n.addClass? name = some n') :
    n'.ident = n.ident := by
  grind [Node.ident, Node.addClass?]

theorem ident_of_removeClass? {name : String} (n n' : Node) (h : n.removeClass? name = some n') :
    n'.ident = n.ident := by
  grind [Node.ident, Node.removeClass?]

theorem ident_of_setState? {flags : NodeState} {on : Bool} (n n' : Node)
    (h : n.setState? flags on = some n') : n'.ident = n.ident := by
  grind [Node.ident, Node.setState?]

/-- A result of a step is the step's result read through the reply. -/
theorem exists_of_map_eq_ok {α β ε : Type} {r : Except ε α} {f : α → β} {b : β}
    (h : r.map f = .ok b) : ∃ a, r = .ok a ∧ f a = b := by
  cases r with
  | error e => cases h
  | ok a => exact ⟨a, rfl, Except.ok.inj h⟩

/-- A child is made as a root and then moved. -/
theorem createChild_eq_ok {t t' : NodeTree} {parent id : NodeId} {tag : String}
    (h : t.createChild parent tag = .ok (id, t')) :
    id = t.pool.take.1 ∧ (t.create tag).2.MovesTo id (some parent) t' := by
  unfold createChild at h
  split at h
  · obtain ⟨placed, hplaced, heq⟩ := exists_of_map_eq_ok h
    obtain ⟨rfl, rfl⟩ := Prod.mk.inj heq
    exact ⟨rfl, movesTo_of_setParent_eq_ok hplaced⟩
  · cases h

/-- A reply that tells nothing of the step's result. -/
theorem eq_ok_of_map_eq_ok {α β ε : Type} {r : Except ε α} {b b' : β} {a : α}
    (h : (r.map fun after => (b', after)) = .ok (b, a)) : r = .ok a := by
  obtain ⟨after, hr, heq⟩ := exists_of_map_eq_ok h
  obtain ⟨-, rfl⟩ := Prod.mk.inj heq
  exact hr

/-- A reply that tells a part of the step's result and passes on the rest. -/
theorem exists_of_map_pair_eq_ok {α β γ ε : Type} {r : Except ε (γ × α)} {f : γ × α → β × α} {b : β}
    {a : α} (hf : ∀ c a, (f (c, a)).2 = a) (h : r.map f = .ok (b, a)) : ∃ c, r = .ok (c, a) := by
  obtain ⟨⟨c, after⟩, hr, heq⟩ := exists_of_map_eq_ok h
  have hafter : after = a := (hf c after).symm.trans (congrArg Prod.snd heq)
  exact ⟨c, hafter ▸ hr⟩

/-- **Every accepted edit is one of the changes above.** -/
theorem editsTo_of_edit_eq_ok {t t' : NodeTree} {e : TreeEdit} {reply : TreeReply}
    (h : t.edit e = .ok (reply, t')) : t.EditsTo e t' := by
  cases e with
  | create tag =>
    obtain rfl := (Prod.mk.inj (Except.ok.inj h)).2
    exact .create tag
  | createChild parent tag =>
    obtain ⟨id, hr⟩ := exists_of_map_pair_eq_ok (fun _ _ => rfl) h
    obtain ⟨rfl, hmoves⟩ := createChild_eq_ok hr
    exact .createChild hmoves
  | destroy id =>
    obtain ⟨sub, hsub, rfl⟩ := ask_eq_ok_iff.mp (eq_ok_of_map_eq_ok h)
    exact .destroy hsub
  | setParent id parent => exact .setParent (movesTo_of_setParent_eq_ok (eq_ok_of_map_eq_ok h))
  | pushTag id tag =>
    obtain ⟨b, hr⟩ := exists_of_map_pair_eq_ok (fun _ _ => rfl) h
    exact editsTo_of_revise ident_of_pushTag? hr
  | setAuthorId id value =>
    obtain ⟨b, hr⟩ := exists_of_map_pair_eq_ok (fun _ _ => rfl) h
    exact editsTo_of_revise ident_of_setAuthorId? hr
  | addClass id name =>
    obtain ⟨b, hr⟩ := exists_of_map_pair_eq_ok (fun _ _ => rfl) h
    exact editsTo_of_revise ident_of_addClass? hr
  | removeClass id name =>
    obtain ⟨b, hr⟩ := exists_of_map_pair_eq_ok (fun _ _ => rfl) h
    exact editsTo_of_revise ident_of_removeClass? hr
  | toggleClass id name =>
    obtain ⟨b, hr⟩ := exists_of_map_pair_eq_ok (fun _ _ => rfl) h
    -- a toggle is a removal or an addition, as the class is there or not
    unfold toggleClass at hr
    split at hr
    · cases hr
    · obtain ⟨c, hremoved⟩ := exists_of_map_pair_eq_ok (fun _ _ => rfl) hr
      exact editsTo_of_revise ident_of_removeClass? hremoved
    · exact editsTo_of_revise ident_of_addClass? hr
  | setState id flags on =>
    obtain ⟨b, hr⟩ := exists_of_map_pair_eq_ok (fun _ _ => rfl) h
    exact editsTo_of_revise ident_of_setState? hr
  | markDirty id =>
    obtain ⟨sub, -, rfl⟩ := ask_eq_ok_iff.mp (eq_ok_of_map_eq_ok h)
    exact .markDirty id
  | clearDirty id =>
    obtain ⟨sub, -, rfl⟩ := ask_eq_ok_iff.mp (eq_ok_of_map_eq_ok h)
    exact .clearDirty id

/-- An edit of a tree is refused and keeps the tree, or it is one of the changes above. -/
theorem editsTo_after (t : NodeTree) (e : TreeEdit) : t.EditsTo e (t.after e) := by
  unfold after
  split
  · rename_i reply t' h
    exact editsTo_of_edit_eq_ok h
  · exact .keep

end NodeTree

end StyledScene
