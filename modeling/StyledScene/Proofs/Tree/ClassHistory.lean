import StyledScene.Proofs.Tree.Births
import StyledScene.Proofs.Tree.Classes
import StyledScene.Proofs.Tree.Simulation

/-!
# Classes and the past

The list of classes that a node stores belongs to the calls about it since it came into being, whatever
else the host did to the tree (`lists_run`): no other edit touches it, a new node has no classes, and no
id comes to life twice. So in every tree that a host can make, the classes of a node are the set that these
calls maintain (`exists_classes`), and the table of linked records answers the calls in the same way.
-/

namespace StyledScene

/-- What a node tells about its classes. -/
def Node.classEntry (n : Node) : NodeId × List String := (n.id, n.classes)

namespace NodeTree

variable {t t' : NodeTree} {id : NodeId} {sub : Node × Forest} {past : List ClassCall}

open ClassCall (Lists members answers)

/-! ## §1 The classes of all nodes -/

/-- The classes of all living nodes. -/
def classLists (t : NodeTree) : List (NodeId × List String) :=
  t.forest.nodes.map Node.classEntry

theorem mem_ids_of_mem_classLists {names : List String} (h : (id, names) ∈ t.classLists) :
    id ∈ t.forest.ids := by
  obtain ⟨n, hn, hpair⟩ := List.mem_map.mp h
  obtain ⟨rfl, -⟩ := Prod.mk.inj hpair
  exact List.mem_map_of_mem hn

theorem mem_classLists_of_get? {n : Node} (hget : t.get? id = some n) :
    (id, n.classes) ∈ t.classLists := by
  obtain ⟨sub, hsub, rfl⟩ := Option.map_eq_some_iff.mp hget
  exact List.mem_map.mpr ⟨sub.1, mem_nodes_of_subtree? hsub, Prod.ext (subtree?_id hsub) rfl⟩

theorem classes_of_mem_classLists (hnd : t.forest.ids.Nodup) {n : Node} (hget : t.get? id = some n)
    {names : List String} (h : (id, names) ∈ t.classLists) : names = n.classes := by
  obtain ⟨k, hk, hpair⟩ := List.mem_map.mp h
  obtain ⟨rfl, rfl⟩ := Prod.mk.inj hpair
  rw [get?_of_mem_nodes hnd hk, Option.some.injEq] at hget
  rw [hget]

/-- Edits of one node that leave the classes of `id` alone. -/
theorem mem_classLists_of_revise (hnd : t.forest.ids.Nodup) {k : NodeId} {b : Bool}
    {edit : Node → Option Node} (hident : ∀ n n', edit n = some n' → n'.ident = n.ident)
    (hkeep : k = id → ∀ n n', edit n = some n' → n'.classes = n.classes)
    (h : t.revise k edit = .ok (b, t')) {names : List String} (hmem : (id, names) ∈ t'.classLists) :
    (id, names) ∈ t.classLists := by
  obtain ⟨sub, hsub, hans⟩ := ask_eq_ok_iff.mp h
  split at hans
  · rename_i n hn
    obtain rfl := (Prod.mk.inj hans).2
    have hview : (t.revised k n).classLists =
        t.forest.nodes.map fun m => (if m.id = k then n else m).classEntry := by
      rw [classLists, revised]
      refine (view_markUnder (fun _ => rfl) k _).trans ?_
      rw [Forest.modify, Forest.nodes_map, List.map_map]
      rfl
    have hmem' : (id, names) ∈ (t.revised k n).classLists := hmem
    rw [hview] at hmem'
    obtain ⟨m, hm, hpair⟩ := List.mem_map.mp hmem'
    obtain ⟨hid, hnames⟩ := Prod.mk.inj hpair
    by_cases hmk : m.id = k
    · -- the node that was edited
      rw [if_pos hmk] at hid hnames
      have hsame : m = sub.1 :=
        eq_of_id_eq hnd hm (mem_nodes_of_subtree? hsub) (hmk.trans (subtree?_id hsub).symm)
      have hnid : n.id = sub.1.id := (Prod.mk.inj (hident _ _ hn)).1
      have hki : k = id := by rw [← hid, hnid, subtree?_id hsub]
      rw [hkeep hki _ _ hn] at hnames
      exact List.mem_map.mpr ⟨m, hm, Prod.ext (hmk.trans hki) (hsame ▸ hnames)⟩
    · rw [if_neg hmk] at hid hnames
      exact List.mem_map.mpr ⟨m, hm, Prod.ext hid hnames⟩
  · obtain rfl := (Prod.mk.inj hans).2
    exact hmem

end NodeTree

/-- The call about the classes of a node that an edit makes. -/
def ClassCall.ofEdit? (id : NodeId) : TreeEdit → Option ClassCall
  | .addClass k name => if k = id then some (.add name) else none
  | .removeClass k name => if k = id then some (.remove name) else none
  | .toggleClass k name => if k = id then some (.toggle name) else none
  | _ => none

namespace NodeTree

variable {t t' : NodeTree} {id : NodeId} {sub : Node × Forest} {past : List ClassCall}

open ClassCall (Lists members answers)

theorem classLists_create (t : NodeTree) (tag : String) :
    (t.create tag).2.classLists.Perm ((t.pool.take.1, []) :: t.classLists) :=
  (Forest.nodes_insertRoot (Node.new t.pool.take.1 tag t.nextSerial, .nil) t.forest).map Node.classEntry

/-- A new node has no classes. -/
theorem mem_classLists_of_perm_create (hwf : t.WellFormed)
    (hperm : t'.classLists.Perm ((t.pool.take.1, []) :: t.classLists)) {names : List String}
    (hmem : (id, names) ∈ t'.classLists) :
    (id, names) ∈ t.classLists ∨ (id ∉ t.forest.ids ∧ names = []) := by
  rcases List.mem_cons.mp (hperm.mem_iff.mp hmem) with hnew | hold
  · obtain ⟨rfl, rfl⟩ := Prod.mk.inj hnew
    exact .inr ⟨hwf.take_not_mem, rfl⟩
  · exact .inl hold

/-- Without a call about them, the classes of a node are what they were, or none if it is new. -/
theorem mem_classLists_of_edit (hwf : t.WellFormed) {e : TreeEdit} {reply : TreeReply}
    (hcall : ClassCall.ofEdit? id e = none) (h : t.edit e = .ok (reply, t')) {names : List String}
    (hmem : (id, names) ∈ t'.classLists) :
    (id, names) ∈ t.classLists ∨ (id ∉ t.forest.ids ∧ names = []) := by
  have hnd := hwf.nodup_ids
  cases e with
  | create tag =>
    obtain ⟨-, rfl⟩ := Prod.mk.inj (Except.ok.inj h)
    exact mem_classLists_of_perm_create hwf (t.classLists_create tag) hmem
  | createChild parent tag =>
    obtain ⟨k, hr⟩ := exists_of_map_pair_eq_ok (fun _ _ => rfl) h
    obtain ⟨rfl, hmoves⟩ := createChild_eq_ok hr
    have hmoved := hmoves.view_perm (g := Node.classEntry) (fun _ => rfl)
      (hwf.create tag).nodup_ids
    exact mem_classLists_of_perm_create hwf (hmoved.trans (t.classLists_create tag)) hmem
  | destroy k =>
    obtain ⟨sub, hsub, rfl⟩ := ask_eq_ok_iff.mp (eq_ok_of_map_eq_ok h)
    have hperm := view_perm_detached (g := Node.classEntry) (fun _ => rfl) hnd hsub
    exact .inl (hperm.mem_iff.mpr (List.mem_append_right _ hmem))
  | setParent k parent =>
    have hmoves := movesTo_of_setParent_eq_ok (eq_ok_of_map_eq_ok h)
    have hperm := hmoves.view_perm (g := Node.classEntry) (fun _ => rfl) hnd
    exact .inl (hperm.mem_iff.mp hmem)
  | pushTag k tag =>
    obtain ⟨b, hr⟩ := exists_of_map_pair_eq_ok (fun _ _ => rfl) h
    refine .inl (mem_classLists_of_revise hnd ident_of_pushTag? (fun _ n n' hn => ?_) hr hmem)
    grind [Node.pushTag?]
  | setAuthorId k value =>
    obtain ⟨b, hr⟩ := exists_of_map_pair_eq_ok (fun _ _ => rfl) h
    refine .inl (mem_classLists_of_revise hnd ident_of_setAuthorId? (fun _ n n' hn => ?_) hr hmem)
    grind [Node.setAuthorId?]
  | addClass k name =>
    obtain ⟨b, hr⟩ := exists_of_map_pair_eq_ok (fun _ _ => rfl) h
    have hother : k ≠ id := fun heq => by simp [ClassCall.ofEdit?, heq] at hcall
    exact .inl (mem_classLists_of_revise hnd ident_of_addClass? (fun heq => absurd heq hother) hr hmem)
  | removeClass k name =>
    obtain ⟨b, hr⟩ := exists_of_map_pair_eq_ok (fun _ _ => rfl) h
    have hother : k ≠ id := fun heq => by simp [ClassCall.ofEdit?, heq] at hcall
    exact .inl (mem_classLists_of_revise hnd ident_of_removeClass? (fun heq => absurd heq hother) hr hmem)
  | toggleClass k name =>
    obtain ⟨b, hr⟩ := exists_of_map_pair_eq_ok (fun _ _ => rfl) h
    have hother : k ≠ id := fun heq => by simp [ClassCall.ofEdit?, heq] at hcall
    unfold toggleClass at hr
    split at hr
    · cases hr
    · obtain ⟨yes, hremoved⟩ := exists_of_map_pair_eq_ok (fun _ _ => rfl) hr
      exact .inl (mem_classLists_of_revise hnd ident_of_removeClass? (fun heq => absurd heq hother)
        hremoved hmem)
    · exact .inl (mem_classLists_of_revise hnd ident_of_addClass? (fun heq => absurd heq hother) hr hmem)
  | setState k flags on =>
    obtain ⟨b, hr⟩ := exists_of_map_pair_eq_ok (fun _ _ => rfl) h
    refine .inl (mem_classLists_of_revise hnd ident_of_setState? (fun _ n n' hn => ?_) hr hmem)
    grind [Node.setState?]
  | markDirty k =>
    obtain ⟨sub, -, rfl⟩ := ask_eq_ok_iff.mp (eq_ok_of_map_eq_ok h)
    have hsame : (t.marked k).classLists = t.classLists := view_markUnder (fun _ => rfl) k t.forest
    exact .inl (hsame ▸ hmem)
  | clearDirty k =>
    obtain ⟨sub, -, rfl⟩ := ask_eq_ok_iff.mp (eq_ok_of_map_eq_ok h)
    have hsame : (t.cleaned k).classLists = t.classLists := by
      rw [classLists, cleaned, Forest.modify, Forest.nodes_map, List.map_map]
      refine List.map_congr_left fun n _ => ?_
      show (if n.id = k then n.clean else n).classEntry = n.classEntry
      split <;> rfl
    exact .inl (hsame ▸ hmem)

/-! ## §3 Runs of edits -/

/-- An edit that makes a call does with the tree what the call does. -/
theorem edit_of_ofEdit? {e : TreeEdit} {c : ClassCall} (h : ClassCall.ofEdit? id e = some c) :
    t.edit e = (t.call id c).map fun (yes, after) => (.changed yes, after) := by
  cases e with
  | addClass k name | removeClass k name | toggleClass k name =>
    rw [ClassCall.ofEdit?, Option.ite_none_right_eq_some] at h
    obtain ⟨rfl, hcall⟩ := h
    obtain rfl := Option.some.inj hcall
    rfl
  | _ => cases h

/-- A dead node cannot be called. -/
theorem call_of_dead (hdead : t.subtree? id = none) (c : ClassCall) :
    t.call id c = .error (.invalidNode id) := by
  have hask {α : Type} (answer : Node → Forest → α) : t.ask id answer = .error (.invalidNode id) := by
    rw [ask, hdead]
  cases c with
  | add name => exact hask _
  | remove name => exact hask _
  | toggle name => rw [call, toggleClass, hasClass, hask]
  | has name => rw [call, hasClass, hask]; rfl

/-- An edit that would call a dead node changes nothing. -/
theorem after_eq_self_of_dead {e : TreeEdit} {c : ClassCall} (hdead : t.subtree? id = none)
    (h : ClassCall.ofEdit? id e = some c) : t.after e = t := by
  rw [after, edit_of_ofEdit? h, call_of_dead hdead]
  rfl

/-- Without a call about them, accepted or not, the classes of a node are what they were, or none. -/
theorem mem_classLists_after (hwf : t.WellFormed) {e : TreeEdit} (hcall : ClassCall.ofEdit? id e = none)
    {names : List String} (hmem : (id, names) ∈ (t.after e).classLists) :
    (id, names) ∈ t.classLists ∨ (id ∉ t.forest.ids ∧ names = []) := by
  unfold after at hmem
  split at hmem
  · rename_i reply t' hedit
    exact mem_classLists_of_edit hwf hcall hedit hmem
  · exact .inl hmem

/-- The calls that an edit adds to those about a node. -/
def newCalls (t : NodeTree) (id : NodeId) (e : TreeEdit) : List ClassCall :=
  if t.contains id then (ClassCall.ofEdit? id e).toList else []

/-- The calls about the classes of a node that are made while it lives. -/
def classCalls (t : NodeTree) (id : NodeId) : List TreeEdit → List ClassCall
  | [] => []
  | e :: edits => t.newCalls id e ++ (t.after e).classCalls id edits

theorem newCalls_of_mem (hid : id ∈ t.forest.ids) (e : TreeEdit) :
    t.newCalls id e = (ClassCall.ofEdit? id e).toList :=
  if_pos (contains_iff.mpr hid)

theorem newCalls_of_not_mem (hid : id ∉ t.forest.ids) (e : TreeEdit) : t.newCalls id e = [] :=
  if_neg fun hlive => hid (contains_iff.mp hlive)

/-- The list of a living node goes along with the calls. -/
theorem lists_after_of_mem (hwf : t.WellFormed) (e : TreeEdit) (hid : id ∈ t.forest.ids)
    (hpast : ∀ names, (id, names) ∈ t.classLists → Lists past names) {names : List String}
    (hmem : (id, names) ∈ (t.after e).classLists) : Lists (past ++ t.newCalls id e) names := by
  rw [newCalls_of_mem hid]
  cases hcall : ClassCall.ofEdit? id e with
  | none =>
    rw [Option.toList_none, List.append_nil]
    rcases mem_classLists_after hwf hcall hmem with hold | ⟨hnew, -⟩
    · exact hpast _ hold
    · exact absurd hid hnew
  | some c =>
    obtain ⟨sub, hsub⟩ := exists_subtree? hid
    have hget : t.get? id = some sub.1 := congrArg (Option.map Prod.fst) hsub
    have hlists := hpast _ (mem_classLists_of_get? hget)
    obtain ⟨t', n', hok, hget', hlists', -, hwf'⟩ := exists_call hwf hget hlists c
    have hafter : t.after e = t' := by
      rw [after, edit_of_ofEdit? hcall, hok]
      rfl
    rw [hafter] at hmem
    rw [classes_of_mem_classLists hwf'.nodup_ids hget' hmem]
    exact hlists'

/-- A node that comes into being has an empty list. -/
theorem classes_eq_nil_of_not_mem (hwf : t.WellFormed) (e : TreeEdit) (hid : id ∉ t.forest.ids)
    {names : List String} (hmem : (id, names) ∈ (t.after e).classLists) : names = [] := by
  cases hcall : ClassCall.ofEdit? id e with
  | none =>
    rcases mem_classLists_after hwf hcall hmem with hold | ⟨-, hempty⟩
    · exact absurd (mem_ids_of_mem_classLists hold) hid
    · exact hempty
  | some c =>
    rw [after_eq_self_of_dead (Forest.subtree?_eq_none hid) hcall] at hmem
    exact absurd (mem_ids_of_mem_classLists hmem) hid

/-- **One edit.** What is listed for a node belongs to the calls about it, and a dead node either was not
called yet or never comes to life again. -/
theorem lists_after (hwf : t.WellFormed) (e : TreeEdit)
    (hpast : ∀ names, (id, names) ∈ t.classLists → Lists past names)
    (hdead : id ∉ t.forest.ids → past = [] ∨ t.Issued id) :
    (∀ names, (id, names) ∈ (t.after e).classLists → Lists (past ++ t.newCalls id e) names) ∧
      (id ∉ (t.after e).forest.ids → past ++ t.newCalls id e = [] ∨ (t.after e).Issued id) := by
  have hstep := editsTo_after t e
  by_cases hid : id ∈ t.forest.ids
  · exact ⟨fun _ hmem => lists_after_of_mem hwf e hid hpast hmem,
      fun _ => .inr (hstep.issued hwf (hwf.issued_of_mem hid))⟩
  · rw [newCalls_of_not_mem hid, List.append_nil]
    rcases hdead hid with rfl | hissued
    · refine ⟨fun names hmem => ?_, fun _ => .inl rfl⟩
      rw [classes_eq_nil_of_not_mem hwf e hid hmem]
      exact .nil
    · refine ⟨fun names hmem => absurd ?_ hid, fun _ => .inr (hstep.issued hwf hissued)⟩
      exact hstep.mem_ids_of_issued hwf hissued (mem_ids_of_mem_classLists hmem)

/-- **The list of a living node belongs to the calls about it.** -/
theorem lists_run (hwf : t.WellFormed) (hpast : ∀ names, (id, names) ∈ t.classLists → Lists past names)
    (hdead : id ∉ t.forest.ids → past = [] ∨ t.Issued id) (edits : List TreeEdit) :
    ∀ names, (id, names) ∈ (t.run edits).classLists → Lists (past ++ t.classCalls id edits) names := by
  induction edits generalizing t past with
  | nil =>
    intro names hmem
    rw [classCalls, List.append_nil]
    exact hpast names hmem
  | cons e edits ih =>
    obtain ⟨hpast', hdead'⟩ := lists_after hwf e hpast hdead
    rw [classCalls, ← List.append_assoc]
    exact ih ((editsTo_after t e).wellFormed hwf) hpast' hdead'

end NodeTree

/-! ## §4 Linked records -/

namespace LinkedTree

/-- Makes a call about the classes of a node. -/
def call (id : NodeId) : ClassCall → Work Bool
  | .add name => revise id fun n => n.addClass? name
  | .remove name => revise id fun n => n.removeClass? name
  | .toggle name => toggleClass id name
  | .has name => (fun r => r.data.hasClass name) <$> read id

theorem Represents.agrees_call {l : LinkedTree} {t : NodeTree} (h : l.Represents t) (hwf : t.WellFormed)
    (id : NodeId) (c : ClassCall) : Agrees (call id c) l (t.call id c) := by
  cases c with
  | add name => exact h.agrees_revise hwf id NodeTree.ident_of_addClass?
  | remove name => exact h.agrees_revise hwf id NodeTree.ident_of_removeClass?
  | toggle name => exact h.agrees_toggleClass hwf id name
  | has name =>
    rw [NodeTree.call, NodeTree.hasClass, NodeTree.ask]
    cases hsub : t.subtree? id with
    | none => exact (h.ends_read_of_dead hsub).map _
    | some sub =>
      obtain ⟨up, hr⟩ := h.record?_of_subtree? hsub
      exact ⟨l, (ends_read hr).map _, h⟩

end LinkedTree

/-! ## §5 Classes as a set -/

namespace NodeTree

open ClassCall (Lists members answers)

/-- **The classes of a node are a set with an order of insertion.** Take a living node of any tree that a
host can make, and any calls about its classes. None is refused, and they answer as the set of lower-cased
names tells that was maintained since the node came into being. The node lists each member once, in the
order of the latest insertions. Whatever is called next, the answer is again that of the set; a call that
leaves the set alone leaves the tree as it is, marks and all; and any other call leaves all of it as it is
but the list of the node and the marks of the node and what is below it. The table of linked records makes
the same step. -/
theorem exists_classes (edits : List TreeEdit) (id : NodeId)
    (hlive : (empty.run edits).contains id = true) (calls : List ClassCall) :
    ∃ t n s, (empty.run edits).callAll id calls = .ok (answers (empty.classCalls id edits) calls, t) ∧
      t.get? id = some n ∧ s = members (empty.classCalls id edits ++ calls) ∧
      Lists (empty.classCalls id edits ++ calls) n.classes ∧
      ∀ c : ClassCall, ∃ t' n', t.call id c = .ok (c.answer s, t') ∧ t'.get? id = some n' ∧
        Lists (empty.classCalls id edits ++ calls ++ [c]) n'.classes ∧
        (c.after s = s → t' = t) ∧ (c.after s ≠ s → t' = t.reclassed id n'.classes) ∧
        ∀ l : LinkedTree, l.Represents t →
          ∃ l', Ends (LinkedTree.call id c) l (.ok (c.answer s)) l' ∧ l'.Represents t' := by
  have hwf := wellFormed_run wellFormed_empty edits
  obtain ⟨sub, hsub⟩ := Option.isSome_iff_exists.mp hlive
  have hget : (empty.run edits).get? id = some sub.1 := congrArg (Option.map Prod.fst) hsub
  -- before the first edit there is no node and no call
  have hpast : ∀ names, (id, names) ∈ empty.classLists → Lists [] names := fun _ h => by cases h
  have hlists := lists_run wellFormed_empty hpast (fun _ => .inl rfl) edits _ (mem_classLists_of_get? hget)
  rw [List.nil_append] at hlists
  obtain ⟨t, n, hcalls, hn, hlists, hwf⟩ := exists_callAll hwf hget hlists calls
  refine ⟨t, n, _, hcalls, hn, rfl, hlists, fun c => ?_⟩
  obtain ⟨t', n', hok, hn', hlists', heffect, -⟩ := exists_call hwf hn hlists c
  refine ⟨t', n', hok, hn', hlists', fun hsame => ?_, fun hother => ?_, fun l hl => ?_⟩
  · rw [heffect, if_pos hsame]
  · rw [heffect, if_neg hother]
  · have hagrees := hl.agrees_call hwf id c
    rw [hok] at hagrees
    exact hagrees

/-- A panel with a class, and a label in it, both with their styles up to date. -/
def labelledPanel : List TreeEdit :=
  [.create "panel", .createChild ⟨1, 1⟩ "label", .addClass ⟨1, 1⟩ "Primary", .clearDirty ⟨1, 1⟩,
    .clearDirty ⟨2, 1⟩]

/-- A class comes in, and the other goes and comes back. -/
def panelCalls : List ClassCall := [.add "Big", .toggle "PRIMARY", .toggle "primary"]

/-- The panel after these calls. -/
def calledPanel : NodeTree :=
  empty.run (labelledPanel ++ [.addClass ⟨1, 1⟩ "big", .toggleClass ⟨1, 1⟩ "primary",
    .toggleClass ⟨1, 1⟩ "primary"])

/-- The class that came back is the last one, the label is marked, and what is there is not added again. -/
theorem exists_classes_labelledPanel :
    (empty.run labelledPanel).callAll ⟨1, 1⟩ panelCalls = .ok ([true, false, true], calledPanel) ∧
      (calledPanel.get? ⟨1, 1⟩).map Node.classes = some ["big", "primary"] ∧
      calledPanel.isDirty ⟨2, 1⟩ = .ok true ∧
      calledPanel.call ⟨1, 1⟩ (.add "BIG") = .ok (false, calledPanel) := by
  have hlive : (empty.run labelledPanel).contains ⟨1, 1⟩ = true := by decide +kernel
  have hrun : (empty.run labelledPanel).callAll ⟨1, 1⟩ panelCalls =
      .ok ([true, false, true], calledPanel) := by
    decide +kernel
  obtain ⟨t, n, s, hcalls, -, hs, -, hnext⟩ := exists_classes labelledPanel ⟨1, 1⟩ hlive panelCalls
  obtain ⟨-, rfl⟩ := Prod.mk.inj (Except.ok.inj (hrun.symm.trans hcalls))
  have hmembers : s = {"big", "primary"} := by
    rw [hs]
    decide +kernel
  obtain ⟨t', n', hok, -, -, hsame, -⟩ := hnext (.add "BIG")
  have hknown : (ClassCall.add "BIG").after s = s ∧ (ClassCall.add "BIG").answer s = false := by
    rw [hmembers]
    decide +kernel
  rw [hsame hknown.1, hknown.2] at hok
  exact ⟨hrun, by decide +kernel, by decide +kernel, hok⟩

end NodeTree

end StyledScene
