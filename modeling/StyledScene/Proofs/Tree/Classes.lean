import StyledScene.Proofs.Tree.Births
import StyledScene.Proofs.Tree.ClassCalls
import StyledScene.Proofs.Tree.Subtrees

/-!
# Classes of a node

The calls about the classes of a living node, one after the other. If the node stores the list of what
was called before, no call is refused, each answers as the set of names tells, and the list goes along
with the set (`exists_callAll`). A call that leaves the set alone leaves the tree as it is; every other
changes the list of the node and the marks of what is below it, and nothing else in the whole tree
(`revised_classes`).
-/

namespace StyledScene

/-! ## §1 Changes of all nodes -/

namespace Forest

theorem map_map (g h : Node → Node) (f : Forest) : (f.map h).map g = f.map fun n => g (h n) := by
  induction f with
  | nil => rfl
  | tree n children rest ihc ihr => rw [map, map, map, ihc, ihr]

theorem map_congr {g h : Node → Node} {f : Forest} (hsame : ∀ n ∈ f.nodes, g n = h n) :
    f.map g = f.map h := by
  induction f with
  | nil => rfl
  | tree n children rest ihc ihr =>
    simp only [nodes, List.mem_cons, List.mem_append] at hsame
    have hchildren := ihc fun m hm => hsame m (.inr (.inl hm))
    have hrest := ihr fun m hm => hsame m (.inr (.inr hm))
    rw [map, map, hsame n (.inl rfl), hchildren, hrest]

theorem map_id (f : Forest) : f.map (fun n => n) = f := by
  induction f with
  | nil => rfl
  | tree n children rest ihc ihr => rw [map, ihc, ihr]

theorem map_eq_self {g : Node → Node} {f : Forest} (hsame : ∀ n ∈ f.nodes, g n = n) : f.map g = f :=
  (map_congr hsame).trans f.map_id

/-- The node, marked if it is one of these. -/
def markAmong (ids : List NodeId) (n : Node) : Node := if n.id ∈ ids then n.mark else n

theorem map_markAmong_eq_self {ids : List NodeId} {f : Forest} (hout : ∀ k ∈ f.ids, k ∉ ids) :
    f.map (markAmong ids) = f :=
  map_eq_self fun n hn => if_neg (hout n.id (List.mem_map_of_mem hn))

/-- Marking below a node marks the nodes of its subtree, wherever they are looked for. -/
theorem markUnder_eq_map {f : Forest} (hnd : f.ids.Nodup) {id : NodeId} {sub : Node × Forest}
    (hsub : f.subtree? id = some sub) : f.markUnder id = f.map (markAmong (single sub).ids) := by
  induction f with
  | nil => cases hsub
  | tree n children rest ihc ihr =>
    obtain ⟨⟨hnc, hnr⟩, hcnd, hrnd, hdisj⟩ := nodup_ids_tree.mp hnd
    rw [subtree?] at hsub
    rw [markUnder, map]
    split at hsub
    · rename_i hid
      obtain rfl := Option.some.inj hsub
      have hroot : markAmong (single (n, children)).ids n = n.mark :=
        if_pos (mem_ids_single.mpr (.inl rfl))
      have hbelow : children.map (markAmong (single (n, children)).ids) = children.map Node.mark :=
        map_congr fun m hm => if_pos (mem_ids_single.mpr (.inr (List.mem_map_of_mem hm)))
      have hbeside : rest.map (markAmong (single (n, children)).ids) = rest := by
        refine map_markAmong_eq_self fun k hk hin => ?_
        rcases mem_ids_single.mp hin with rfl | hkc
        · exact hnr hk
        · exact hdisj k hkc hk
      rw [if_pos hid, hroot, hbelow, hbeside]
    · rename_i hid
      rw [if_neg hid]
      rcases Option.or_eq_some_iff.mp hsub with hbelow | ⟨hnot, hbeside⟩
      · have hin := ids_single_subset hbelow
        have hidc : id ∈ children.ids := (subtree?_isSome id children).mp (by rw [hbelow]; rfl)
        have hroot : markAmong (single sub).ids n = n := if_neg fun hk => hnc (hin hk)
        rw [markUnder_of_not_mem (hdisj id hidc), ihc hcnd hbelow, hroot,
          map_markAmong_eq_self fun k hk hk' => hdisj k (hin hk') hk]
      · have hin := ids_single_subset hbeside
        have hidc : id ∉ children.ids := not_mem_ids_of_subtree? hnot
        have hroot : markAmong (single sub).ids n = n := if_neg fun hk => hnr (hin hk)
        rw [markUnder_of_not_mem hidc, ihr hrnd hbeside, hroot,
          map_markAmong_eq_self fun k hk hk' => hdisj k hk (hin hk')]

end Forest

/-! ## §2 Calls about one node -/

/-- The node, with other classes if it has the id, and marked if it is one of these. -/
def Node.reclassed (id : NodeId) (names : List String) (marked : List NodeId) (n : Node) : Node :=
  { n with
    classes := if n.id = id then names else n.classes
    dirty := n.dirty || decide (n.id ∈ marked) }

/-- A node whose classes were replaced and that was then marked. -/
theorem Node.markAmong_eq_reclassed {id : NodeId} {marked : List NodeId} (hin : id ∈ marked)
    {k n : Node} (hsame : k.id = id → k = n) (names : List String) :
    Forest.markAmong marked (if k.id = id then { n with classes := names } else k) =
      k.reclassed id names marked := by
  by_cases hself : k.id = id
  · obtain rfl := hsame hself
    simp [Forest.markAmong, reclassed, hself, hin, mark]
  · by_cases hmarked : k.id ∈ marked
    · simp [Forest.markAmong, reclassed, hself, hmarked, mark]
    · simp [Forest.markAmong, reclassed, hself, hmarked]

namespace ClassCall

/-- What a call makes of the node; none if there is nothing to change. -/
def edit? (c : ClassCall) (n : Node) : Option Node :=
  match c with
  | .add name => n.addClass? name
  | .remove name => n.removeClass? name
  | .toggle name => if n.hasClass name then n.removeClass? name else n.addClass? name
  | .has _ => none

/-- What a call answers. -/
def reply (c : ClassCall) (n : Node) : Bool :=
  match c with
  | .add name | .toggle name => !n.hasClass name
  | .remove name | .has name => n.hasClass name

variable {past : List ClassCall} {n : Node}

theorem Lists.hasClass_eq (h : Lists past n.classes) (name : String) :
    n.hasClass name = decide (Text.lowercase name ∈ members past) := by
  rw [Node.hasClass, List.contains_eq_mem]
  exact decide_eq_decide.mpr (h.mem_iff _)

theorem Lists.reply_eq (h : Lists past n.classes) (c : ClassCall) :
    c.reply n = c.answer (members past) := by
  cases c with
  | add name => simp [reply, answer, after, h.hasClass_eq]
  | remove name => simp [reply, answer, after, h.hasClass_eq]
  | toggle name =>
    by_cases hin : Text.lowercase name ∈ members past
    · simp [reply, answer, h.hasClass_eq, hin]
    · simp [reply, answer, after, h.hasClass_eq, hin]
  | has name => simp [reply, answer, h.hasClass_eq]

/-- A name that comes in is added to the list. -/
theorem Lists.edit?_insert (h : Lists past n.classes) {c : ClassCall} {name : String}
    (hout : Text.lowercase name ∉ members past)
    (hafter : c.after (members past) = insert (Text.lowercase name) (members past)) :
    c.after (members past) ≠ members past ∧
      ∃ names, n.addClass? name = some { n with classes := names } ∧ Lists (past ++ [c]) names := by
  refine ⟨fun hsame => hout (Finset.insert_eq_self.mp (hafter.symm.trans hsame)), _, ?_,
    h.of_insert hout hafter⟩
  simp [Node.addClass?, h.hasClass_eq, hout]

/-- A name that goes is removed from the list. -/
theorem Lists.edit?_erase (h : Lists past n.classes) {c : ClassCall} {name : String}
    (hin : Text.lowercase name ∈ members past)
    (hafter : c.after (members past) = (members past).erase (Text.lowercase name)) :
    c.after (members past) ≠ members past ∧
      ∃ names, n.removeClass? name = some { n with classes := names } ∧ Lists (past ++ [c]) names := by
  refine ⟨fun hsame => Finset.erase_eq_self.mp (hafter.symm.trans hsame) hin, _, ?_, h.of_erase hafter⟩
  simp [Node.removeClass?, h.hasClass_eq, hin]

/-- The node is edited iff the set changes, and its list goes along with the set. -/
theorem Lists.edit?_cases (h : Lists past n.classes) (c : ClassCall) :
    (c.after (members past) = members past ∧ c.edit? n = none ∧ Lists (past ++ [c]) n.classes) ∨
      (c.after (members past) ≠ members past ∧
        ∃ names, c.edit? n = some { n with classes := names } ∧ Lists (past ++ [c]) names) := by
  cases c with
  | add name =>
    by_cases hin : Text.lowercase name ∈ members past
    · have hsame : (ClassCall.add name).after (members past) = members past := Finset.insert_eq_self.mpr hin
      exact .inl ⟨hsame, by simp [edit?, Node.addClass?, h.hasClass_eq, hin], h.of_same hsame⟩
    · exact .inr (h.edit?_insert hin rfl)
  | remove name =>
    by_cases hin : Text.lowercase name ∈ members past
    · exact .inr (h.edit?_erase hin rfl)
    · have hsame : (ClassCall.remove name).after (members past) = members past :=
        Finset.erase_eq_self.mpr hin
      exact .inl ⟨hsame, by simp [edit?, Node.removeClass?, h.hasClass_eq, hin], h.of_same hsame⟩
  | toggle name =>
    -- a toggle always changes the set
    refine .inr ?_
    by_cases hin : Text.lowercase name ∈ members past
    · have hafter : (ClassCall.toggle name).after (members past) =
          (members past).erase (Text.lowercase name) := if_pos hin
      have hclass : n.hasClass name = true := by simp [h.hasClass_eq, hin]
      rw [edit?, if_pos hclass]
      exact h.edit?_erase hin hafter
    · have hafter : (ClassCall.toggle name).after (members past) =
          insert (Text.lowercase name) (members past) := if_neg hin
      have hclass : ¬ n.hasClass name = true := by simp [h.hasClass_eq, hin]
      rw [edit?, if_neg hclass]
      exact h.edit?_insert hin hafter
  | has name => exact .inl ⟨rfl, rfl, h.of_same rfl⟩

end ClassCall

namespace NodeTree

variable {t t' : NodeTree} {id : NodeId} {sub : Node × Forest} {past : List ClassCall}

open ClassCall (Lists members answers)

/-- Makes a call about the classes of a node. -/
def call (t : NodeTree) (id : NodeId) : ClassCall → Except TreeError (Bool × NodeTree)
  | .add name => t.addClass id name
  | .remove name => t.removeClass id name
  | .toggle name => t.toggleClass id name
  | .has name => (t.hasClass id name).map fun yes => (yes, t)

/-- Makes calls about the classes of a node, one after the other. -/
def callAll (t : NodeTree) (id : NodeId) : List ClassCall → Except TreeError (List Bool × NodeTree)
  | [] => .ok ([], t)
  | c :: calls =>
    match t.call id c with
    | .error e => .error e
    | .ok (yes, after) => (after.callAll id calls).map fun (answers, last) => (yes :: answers, last)

/-- The tree with other classes at one node, and that node and everything below it marked. -/
def reclassed (t : NodeTree) (id : NodeId) (names : List String) : NodeTree :=
  { t with forest := t.forest.map (Node.reclassed id names (t.subtreeIds id)) }

/-- Other classes for a node change nothing else but marks below it. -/
theorem revised_classes (hnd : t.forest.ids.Nodup) (hsub : t.subtree? id = some sub)
    (names : List String) : t.revised id { sub.1 with classes := names } = t.reclassed id names := by
  have hid := subtree?_id hsub
  have hkeeps (k : Node) : (if k.id = id then { sub.1 with classes := names } else k).id = k.id := by
    split
    · rename_i hk
      exact hid.trans hk.symm
    · rfl
  have hids := Forest.ids_map hkeeps
  have hmodified := Forest.subtree?_map hkeeps t.forest id
  rw [← subtree?_eq, hsub, Option.map_some] at hmodified
  have hmarked := Forest.markUnder_eq_map ((hids t.forest).symm ▸ hnd) hmodified
  have hsame : (Forest.single (if sub.1.id = id then { sub.1 with classes := names } else sub.1,
      sub.2.map fun k => if k.id = id then { sub.1 with classes := names } else k)).ids =
      t.subtreeIds id := by
    rw [subtreeIds_of_subtree? hsub]
    exact hids (Forest.single sub)
  rw [hsame, Forest.map_map] at hmarked
  have hin : id ∈ t.subtreeIds id := by
    rw [subtreeIds_of_subtree? hsub]
    exact Forest.mem_ids_single.mpr (.inl hid.symm)
  have hnodes : ∀ k ∈ t.forest.nodes, k.id = id → k = sub.1 := fun k hk hself =>
    eq_of_id_eq hnd hk (mem_nodes_of_subtree? hsub) (hself.trans hid.symm)
  have hforest : (t.revised id { sub.1 with classes := names }).forest = (t.reclassed id names).forest :=
    hmarked.trans (Forest.map_congr fun k hk => Node.markAmong_eq_reclassed hin (hnodes k hk) names)
  exact congrArg (fun forest => ({ t with forest := forest } : NodeTree)) hforest

/-- A call asks the node and edits it. -/
theorem call_eq (hsub : t.subtree? id = some sub) (c : ClassCall) :
    t.call id c = .ok (c.reply sub.1, match c.edit? sub.1 with
      | some n => t.revised id n
      | none => t) := by
  have hrevise (edit : Node → Option Node) : t.revise id edit = .ok (match edit sub.1 with
      | some n => (true, t.revised id n)
      | none => (false, t)) := by
    rw [revise, ask, hsub]
    rfl
  have hhas (name : String) : t.hasClass id name = .ok (sub.1.hasClass name) := by
    rw [hasClass, ask, hsub]
  cases c with
  | add name =>
    rw [call, addClass, hrevise, ClassCall.edit?, ClassCall.reply, Node.addClass?]
    cases sub.1.hasClass name <;> rfl
  | remove name =>
    rw [call, removeClass, hrevise, ClassCall.edit?, ClassCall.reply, Node.removeClass?]
    cases sub.1.hasClass name <;> rfl
  | toggle name =>
    rw [call, toggleClass, hhas, removeClass, addClass, hrevise, hrevise, ClassCall.edit?, ClassCall.reply,
      Node.addClass?, Node.removeClass?]
    cases sub.1.hasClass name <;> rfl
  | has name =>
    rw [call, hhas]
    rfl

/-! ## §3 Runs of calls -/

@[simp] theorem ids_reclassed (t : NodeTree) (id : NodeId) (names : List String) :
    (t.reclassed id names).forest.ids = t.forest.ids := by
  have hkeeps (n : Node) : (n.reclassed id names (t.subtreeIds id)).id = n.id := rfl
  exact Forest.ids_map hkeeps t.forest

theorem exists_get?_reclassed (hsub : t.subtree? id = some sub) (names : List String) :
    ∃ n, (t.reclassed id names).get? id = some n ∧ n.classes = names := by
  have hkeeps (n : Node) : (n.reclassed id names (t.subtreeIds id)).id = n.id := rfl
  have hmap := Forest.subtree?_map hkeeps t.forest id
  rw [← subtree?_eq, hsub, Option.map_some] at hmap
  exact ⟨_, congrArg (Option.map Prod.fst) hmap, if_pos (subtree?_id hsub)⟩

/-- **One call.** It is never refused, answers as the set tells, and changes the classes of the node and
the marks below it if it changes the set, and else nothing. -/
theorem exists_call (hwf : t.WellFormed) {n : Node} (hget : t.get? id = some n)
    (h : Lists past n.classes) (c : ClassCall) :
    ∃ t' n', t.call id c = .ok (c.answer (members past), t') ∧ t'.get? id = some n' ∧
      Lists (past ++ [c]) n'.classes ∧
      (t' = if c.after (members past) = members past then t else t.reclassed id n'.classes) ∧
      t'.WellFormed := by
  obtain ⟨⟨k, below⟩, hsub, rfl⟩ := Option.map_eq_some_iff.mp hget
  have hcall := call_eq hsub c
  rw [h.reply_eq c] at hcall
  rcases h.edit?_cases c with ⟨hsame, hedit, hlists⟩ | ⟨hother, names, hedit, hlists⟩
  · rw [hedit] at hcall
    exact ⟨t, k, hcall, hget, hlists, (if_pos hsame).symm, hwf⟩
  · rw [hedit] at hcall
    have hreclassed := revised_classes hwf.nodup_ids hsub names
    obtain ⟨n', hn', rfl⟩ := exists_get?_reclassed hsub names
    refine ⟨t.reclassed id n'.classes, n', hreclassed ▸ hcall, hn', hlists, (if_neg hother).symm, ?_⟩
    exact hwf.of_perm ⟨.of_eq (t.ids_reclassed id n'.classes), rfl⟩

/-- **A run of calls** is never refused, and its answers are those of the set. -/
theorem exists_callAll (hwf : t.WellFormed) {n : Node} (hget : t.get? id = some n)
    (h : Lists past n.classes) (calls : List ClassCall) :
    ∃ t' n', t.callAll id calls = .ok (answers past calls, t') ∧ t'.get? id = some n' ∧
      Lists (past ++ calls) n'.classes ∧ t'.WellFormed := by
  induction calls generalizing t n past with
  | nil => exact ⟨t, n, rfl, hget, (List.append_nil past).symm ▸ h, hwf⟩
  | cons c calls ih =>
    obtain ⟨t₁, n₁, hcall, hget₁, hlists, -, hwf₁⟩ := exists_call hwf hget h c
    obtain ⟨t₂, n₂, hcalls, hget₂, hlists₂, hwf₂⟩ := ih hwf₁ hget₁ hlists
    rw [List.append_assoc, List.singleton_append] at hlists₂
    refine ⟨t₂, n₂, ?_, hget₂, hlists₂, hwf₂⟩
    rw [callAll, hcall]
    simp only [hcalls]
    rfl

end NodeTree

end StyledScene
