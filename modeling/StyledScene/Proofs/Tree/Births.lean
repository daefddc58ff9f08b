import Mathlib.Data.List.Nodup
import StyledScene.Proofs.Tree.Marking

/-!
# The ids that nodes are born with

A tree numbers its nodes, and a node is born with an auto id that holds its number. No edit changes the
auto id of a node, and the numbers only go up; so no two nodes that ever were in a tree share one
(`nodup_births`), and the living nodes are some of those that were born (`idents_run`).
-/

namespace StyledScene

namespace NodeTree

/-! ## §1 Births -/

/-- The ids of the living nodes. -/
def idents (t : NodeTree) : List (NodeId × String) := t.forest.nodes.map Node.ident

/-- The ids of the node that an edit brings into being, if it does. -/
def born (t : NodeTree) (e : TreeEdit) : List (NodeId × String) :=
  match t.edit e with
  | .ok (.created id, after) => ((after.get? id).map Node.ident).toList
  | _ => []

/-- The ids of all nodes that a run of edits brings into being, in the order of their creation. -/
def births (t : NodeTree) : List TreeEdit → List (NodeId × String)
  | [] => []
  | e :: edits => t.born e ++ (t.after e).births edits

/-- The auto id of the node with a serial number. -/
def autoIdOf (serial : Nat) : String := "node-" ++ toString serial

/-- The number of a node can be read off its auto id. -/
theorem autoIdOf_injective {a b : Nat} (h : autoIdOf a = autoIdOf b) : a = b := by
  have hdigits : (Nat.repr a).toList = (Nat.repr b).toList :=
    congrArg String.toList ((String.append_right_inj "node-").mp h)
  rw [Nat.toList_repr, Nat.toList_repr] at hdigits
  have hnumber := congrArg (fun digits => Nat.ofDigitChars 10 digits 0) hdigits
  simpa [Nat.ofDigitChars_toDigits] using hnumber

/-! ## §2 One edit -/

/-- What an edit does to the ids: it adds those of the next node and counts it, or it adds none. -/
inductive Adds (t : NodeTree) : TreeReply → NodeTree → Prop where
  | created {t' : NodeTree}
      (hperm : t'.idents.Perm ((t.pool.take.1, autoIdOf t.nextSerial) :: t.idents))
      (hserial : t'.nextSerial = t.nextSerial + 1) : Adds t (.created t.pool.take.1) t'
  | kept {reply : TreeReply} {t' : NodeTree} (hreply : ∀ id, reply ≠ .created id)
      (hsub : t'.idents ⊆ t.idents) (hserial : t'.nextSerial = t.nextSerial) : Adds t reply t'

variable {t t' : NodeTree}

@[simp] theorem nextSerial_detached (t : NodeTree) (id : NodeId) :
    (t.detached id).nextSerial = t.nextSerial := by
  unfold detached
  cases t.parentId? id <;> rfl

theorem MovesTo.nextSerial {id : NodeId} {parent : Option NodeId} (h : t.MovesTo id parent t') :
    t'.nextSerial = t.nextSerial := by
  obtain ⟨sub, -, -, rfl⟩ := h
  cases parent <;> exact t.nextSerial_detached id

theorem idents_perm_create (t : NodeTree) (tag : String) :
    (t.create tag).2.idents.Perm ((t.pool.take.1, autoIdOf t.nextSerial) :: t.idents) :=
  (Forest.nodes_insertRoot (Node.new t.pool.take.1 tag t.nextSerial, .nil) t.forest).map Node.ident

theorem mem_nodes_of_subtree? {id : NodeId} {sub : Node × Forest} (h : t.subtree? id = some sub) :
    sub.1 ∈ t.forest.nodes := by
  have hlive : t.contains id = true := Option.isSome_iff_exists.mpr ⟨sub, h⟩
  obtain ⟨n, above, hp, -⟩ := path?_of_contains hlive
  obtain ⟨below, hbelow⟩ := subtree?_of_path? hp
  rw [h] at hbelow
  obtain rfl := Option.some.inj hbelow
  exact Forest.mem_nodes_of_mem_path hp _ List.mem_cons_self

/-- Among the living nodes, an id stands for one node. -/
theorem eq_of_id_eq (hnd : t.forest.ids.Nodup) {a b : Node} (ha : a ∈ t.forest.nodes)
    (hb : b ∈ t.forest.nodes) (h : a.id = b.id) : a = b :=
  List.inj_on_of_nodup_map hnd ha hb h

theorem get?_of_mem_nodes (hnd : t.forest.ids.Nodup) {n : Node} (hn : n ∈ t.forest.nodes) :
    t.get? n.id = some n := by
  obtain ⟨sub, hsub⟩ := Option.isSome_iff_exists.mp
    ((Forest.subtree?_isSome n.id t.forest).mpr (List.mem_map_of_mem hn))
  have hsame := eq_of_id_eq hnd hn (mem_nodes_of_subtree? hsub) (subtree?_id hsub).symm
  rw [get?, subtree?_eq, hsub, hsame]
  rfl

theorem idents_revised (hnd : t.forest.ids.Nodup) {id : NodeId} {sub : Node × Forest} {n : Node}
    (hsub : t.subtree? id = some sub) (hident : n.ident = sub.1.ident) :
    (t.revised id n).idents = t.idents := by
  rw [idents, revised]
  refine (view_markUnder (fun _ => rfl) id _).trans ?_
  rw [Forest.modify, Forest.nodes_map, List.map_map]
  refine List.map_congr_left fun k hk => ?_
  show (if k.id = id then n else k).ident = k.ident
  split
  · rename_i hid
    rw [eq_of_id_eq hnd hk (mem_nodes_of_subtree? hsub) (hid.trans (subtree?_id hsub).symm), hident]
  · rfl

theorem Adds.of_idents_eq {reply : TreeReply} (hreply : ∀ id, reply ≠ .created id)
    (hidents : t'.idents = t.idents) (hserial : t'.nextSerial = t.nextSerial) : t.Adds reply t' :=
  .kept hreply (List.Perm.of_eq hidents).subset hserial

/-- An edit of one node that keeps its ids keeps all ids. -/
theorem adds_of_revise (hnd : t.forest.ids.Nodup) {id : NodeId} {b : Bool} {reply : TreeReply}
    {edit : Node → Option Node} (hident : ∀ n n', edit n = some n' → n'.ident = n.ident)
    (h : t.revise id edit = .ok (b, t')) (hreply : ∀ id, reply ≠ .created id) : t.Adds reply t' := by
  obtain ⟨sub, hsub, hans⟩ := ask_eq_ok_iff.mp h
  split at hans
  · rename_i n hn
    obtain rfl := (Prod.mk.inj hans).2
    exact .of_idents_eq hreply (idents_revised hnd hsub (hident _ _ hn)) rfl
  · obtain rfl := (Prod.mk.inj hans).2
    exact .of_idents_eq hreply rfl rfl

/-- **An accepted edit adds the next node, or none.** -/
theorem adds_of_edit_eq_ok (hwf : t.WellFormed) {e : TreeEdit} {reply : TreeReply}
    (h : t.edit e = .ok (reply, t')) : t.Adds reply t' := by
  have hnd := hwf.nodup_ids
  cases e with
  | create tag =>
    obtain ⟨rfl, rfl⟩ := Prod.mk.inj (Except.ok.inj h)
    exact .created (t.idents_perm_create tag) rfl
  | createChild parent tag =>
    obtain ⟨⟨id, after⟩, hr, heq⟩ := exists_of_map_eq_ok h
    obtain ⟨rfl, rfl⟩ := Prod.mk.inj heq
    obtain ⟨rfl, hmoves⟩ := createChild_eq_ok hr
    -- the node is made as a root, and the move makes and removes none
    have hmoved := hmoves.view_perm (g := Node.ident) (fun _ => rfl) (hwf.create tag).nodup_ids
    exact .created (hmoved.trans (t.idents_perm_create tag)) hmoves.nextSerial
  | destroy id =>
    obtain ⟨after, hr, heq⟩ := exists_of_map_eq_ok h
    obtain ⟨rfl, rfl⟩ := Prod.mk.inj heq
    obtain ⟨sub, hsub, rfl⟩ := ask_eq_ok_iff.mp hr
    refine .kept (fun _ => TreeReply.noConfusion) (fun x hx => ?_) (t.nextSerial_detached id)
    have hperm := view_perm_detached (g := Node.ident) (fun _ => rfl) hnd hsub
    exact hperm.mem_iff.mpr (List.mem_append_right _ hx)
  | setParent id parent =>
    obtain ⟨after, hr, heq⟩ := exists_of_map_eq_ok h
    obtain ⟨rfl, rfl⟩ := Prod.mk.inj heq
    have hmoves := movesTo_of_setParent_eq_ok hr
    exact .kept (fun _ => TreeReply.noConfusion)
      (hmoves.view_perm (g := Node.ident) (fun _ => rfl) hnd).subset hmoves.nextSerial
  | pushTag id tag =>
    obtain ⟨⟨b, after⟩, hr, heq⟩ := exists_of_map_eq_ok h
    obtain ⟨rfl, rfl⟩ := Prod.mk.inj heq
    exact adds_of_revise hnd ident_of_pushTag? hr fun _ => TreeReply.noConfusion
  | setAuthorId id value =>
    obtain ⟨⟨b, after⟩, hr, heq⟩ := exists_of_map_eq_ok h
    obtain ⟨rfl, rfl⟩ := Prod.mk.inj heq
    exact adds_of_revise hnd ident_of_setAuthorId? hr fun _ => TreeReply.noConfusion
  | addClass id name =>
    obtain ⟨⟨b, after⟩, hr, heq⟩ := exists_of_map_eq_ok h
    obtain ⟨rfl, rfl⟩ := Prod.mk.inj heq
    exact adds_of_revise hnd ident_of_addClass? hr fun _ => TreeReply.noConfusion
  | removeClass id name =>
    obtain ⟨⟨b, after⟩, hr, heq⟩ := exists_of_map_eq_ok h
    obtain ⟨rfl, rfl⟩ := Prod.mk.inj heq
    exact adds_of_revise hnd ident_of_removeClass? hr fun _ => TreeReply.noConfusion
  | toggleClass id name =>
    obtain ⟨⟨b, after⟩, hr, heq⟩ := exists_of_map_eq_ok h
    obtain ⟨rfl, rfl⟩ := Prod.mk.inj heq
    unfold toggleClass at hr
    split at hr
    · cases hr
    · obtain ⟨⟨c, after⟩, hremoved, heq⟩ := exists_of_map_eq_ok hr
      obtain ⟨rfl, rfl⟩ := Prod.mk.inj heq
      exact adds_of_revise hnd ident_of_removeClass? hremoved fun _ => TreeReply.noConfusion
    · exact adds_of_revise hnd ident_of_addClass? hr fun _ => TreeReply.noConfusion
  | setState id flags on =>
    obtain ⟨⟨b, after⟩, hr, heq⟩ := exists_of_map_eq_ok h
    obtain ⟨rfl, rfl⟩ := Prod.mk.inj heq
    exact adds_of_revise hnd ident_of_setState? hr fun _ => TreeReply.noConfusion
  | markDirty id =>
    obtain ⟨after, hr, heq⟩ := exists_of_map_eq_ok h
    obtain ⟨rfl, rfl⟩ := Prod.mk.inj heq
    obtain ⟨sub, -, rfl⟩ := ask_eq_ok_iff.mp hr
    have hsame : (t.marked id).idents = t.idents := view_markUnder (fun _ => rfl) id t.forest
    exact .of_idents_eq (fun _ => TreeReply.noConfusion) hsame rfl
  | clearDirty id =>
    obtain ⟨after, hr, heq⟩ := exists_of_map_eq_ok h
    obtain ⟨rfl, rfl⟩ := Prod.mk.inj heq
    obtain ⟨sub, -, rfl⟩ := ask_eq_ok_iff.mp hr
    have hsame : (t.cleaned id).idents = t.idents := by
      rw [idents, cleaned, Forest.modify, Forest.nodes_map, List.map_map]
      refine List.map_congr_left fun k _ => ?_
      show (if k.id = id then k.clean else k).ident = k.ident
      split <;> rfl
    exact .of_idents_eq (fun _ => TreeReply.noConfusion) hsame rfl

/-- An edit gives birth to the next node and counts it, or to none. -/
theorem born_cases (hwf : t.WellFormed) (e : TreeEdit) :
    (t.born e = [(t.pool.take.1, autoIdOf t.nextSerial)] ∧
        (t.after e).idents.Perm ((t.pool.take.1, autoIdOf t.nextSerial) :: t.idents) ∧
        (t.after e).nextSerial = t.nextSerial + 1) ∨
      (t.born e = [] ∧ (t.after e).idents ⊆ t.idents ∧
        (t.after e).nextSerial = t.nextSerial) := by
  have hwf' := (editsTo_after t e).wellFormed hwf
  unfold after at hwf' ⊢
  unfold born
  cases hedit : t.edit e with
  | error err => exact .inr ⟨rfl, List.Subset.refl _, rfl⟩
  | ok answer =>
    obtain ⟨reply, t'⟩ := answer
    rw [hedit] at hwf'
    cases adds_of_edit_eq_ok hwf hedit with
    | created hperm hserial =>
      refine .inl ⟨?_, hperm, hserial⟩
      -- the node with the new id is the one that was added
      obtain ⟨n, hn, hident⟩ := List.mem_map.mp (hperm.mem_iff.mpr List.mem_cons_self)
      obtain ⟨hid, -⟩ := Prod.mk.inj hident
      have hget : t'.get? t.pool.take.1 = some n := hid ▸ get?_of_mem_nodes hwf'.nodup_ids hn
      simp only [hget, Option.map_some, Option.toList_some, hident]
    | kept hreply hsub hserial =>
      refine .inr ⟨?_, hsub, hserial⟩
      cases reply with
      | created id => exact absurd rfl (hreply id)
      | done => rfl
      | changed yes => rfl

/-! ## §3 Runs -/

/-- The living nodes are some of those that were there at the start or were born since. -/
theorem idents_run (hwf : t.WellFormed) (edits : List TreeEdit) :
    ∀ x ∈ (t.run edits).idents, x ∈ t.idents ∨ x ∈ t.births edits := by
  induction edits generalizing t with
  | nil => exact fun x hx => .inl hx
  | cons e edits ih =>
    intro x hx
    rw [births, List.mem_append]
    rcases ih ((editsTo_after t e).wellFormed hwf) x hx with hold | hlater
    · rcases born_cases hwf e with ⟨hborn, hperm, -⟩ | ⟨-, hsub, -⟩
      · rcases List.mem_cons.mp (hperm.mem_iff.mp hold) with rfl | hold
        · exact .inr (.inl (hborn ▸ List.mem_cons_self))
        · exact .inl hold
      · exact .inl (hsub hold)
    · exact .inr (.inr hlater)

/-- Later nodes have higher numbers, and each number is given once. -/
theorem births_numbered (hwf : t.WellFormed) (edits : List TreeEdit) :
    (∀ x ∈ t.births edits, ∃ serial, t.nextSerial ≤ serial ∧ x.2 = autoIdOf serial) ∧
      ((t.births edits).map Prod.snd).Nodup := by
  induction edits generalizing t with
  | nil => exact ⟨fun x hx => (List.not_mem_nil hx).elim, List.nodup_nil⟩
  | cons e edits ih =>
    obtain ⟨hnumbers, hnd⟩ := ih ((editsTo_after t e).wellFormed hwf)
    rw [births]
    rcases born_cases hwf e with ⟨hborn, -, hserial⟩ | ⟨hborn, -, hserial⟩
    · rw [hserial] at hnumbers
      rw [hborn, List.singleton_append, List.map_cons, List.nodup_cons]
      refine ⟨fun x hx => ?_, fun hmem => ?_, hnd⟩
      · rcases List.mem_cons.mp hx with rfl | hlater
        · exact ⟨t.nextSerial, Nat.le_refl _, rfl⟩
        · obtain ⟨serial, hle, hx⟩ := hnumbers x hlater
          exact ⟨serial, Nat.le_of_succ_le hle, hx⟩
      · -- a later node has a higher number
        obtain ⟨x, hx, hauto⟩ := List.mem_map.mp hmem
        obtain ⟨serial, hle, hx⟩ := hnumbers x hx
        have heq := autoIdOf_injective (hx.symm.trans hauto)
        exact Nat.not_succ_le_self _ (heq ▸ hle)
    · rw [hserial] at hnumbers
      rw [hborn]
      exact ⟨hnumbers, hnd⟩

/-- **No two nodes that ever were in a tree share their auto id.** -/
theorem nodup_births (edits : List TreeEdit) : ((empty.births edits).map Prod.snd).Nodup :=
  (births_numbered wellFormed_empty edits).2

end NodeTree

end StyledScene
