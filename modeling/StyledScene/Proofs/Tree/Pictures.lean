import StyledScene.Proofs.Tree.Drawing
import StyledScene.Proofs.Tree.Subtrees

/-!
# Pictures and questions

A picture is drawn on the way down, by calls that are told how deep they are and whether others follow. What it
shows can also be asked for: the nodes in pre-order, and for each of them the depth, the place among the
siblings and the data, which are found by walks of their own. Both ways give the same text, whatever the
options are and wherever the picture is cut off (`outline_run`).
-/

namespace StyledScene

/-! ## §1 A picture from questions -/

/-- The questions about a tree that tell a picture of it. -/
structure Questions (m : Type → Type) where
  node : NodeId → m Node
  depth : NodeId → m Nat
  siblingPosition : NodeId → m (Option (Nat × Nat))
  preorder : NodeId → m (List NodeId)

/-- The strokes of a picture. -/
structure Strokes where
  /-- Stands for a level that the line passes by. -/
  passing : String
  /-- Leads to a child that others follow. -/
  inner : String
  /-- Leads to the last child. -/
  last : String

/-- The strokes of each style. -/
def OutlineStyle.strokes : OutlineStyle → Strokes
  | .ascii => ⟨"|", "+--", "\x60--"⟩
  | .unicode => ⟨"│", "├──", "└──"⟩
  | .compact => ⟨"", "-", "-"⟩

namespace Node

/-- The id that the author gave, behind its sign, or else the id that the tree gave, in brackets. -/
def idWord (n : Node) : String :=
  match n.authorId with
  | some id => "#" ++ id
  | none => "(" ++ n.autoId ++ ")"

/-- Each class behind its sign. -/
def classWords (n : Node) : List String := n.classes.map ("." ++ ·)

/-- A word for a node that needs a style, and one for a node that is not shown. -/
def flagWords (n : Node) : List String :=
  (if n.dirty then ["*dirty*"] else []) ++ (if n.isVisible then [] else ["[hidden]"])

end Node

namespace OutlineOptions

/-- The words of a label: the tags, joined by slashes, then what the switches ask for. -/
def words (o : OutlineOptions) (n : Node) : List String :=
  String.intercalate "/" n.tags ::
    ((if o.showIds then [n.idWord] else []) ++ (if o.showClasses then n.classWords else []) ++
      (if o.showFlags then n.flagWords else []))

/-- The label of a node: its words with a blank between neighbours. -/
def labelFor (o : OutlineOptions) (n : Node) : String := String.intercalate " " (o.words n)

/-- What stands before the label of a node that lies a number of levels below the root of the picture: nothing
at the root, else a cell for each level above that of the parent, then the corner. -/
def leadFor (o : OutlineOptions) (level : Nat) (place : Option (Nat × Nat)) : String :=
  if level = 0 then ""
  else
    let cell := o.style.strokes.passing ++ String.ofList (List.replicate o.indent ' ')
    let isLast := place.any fun (index, count) => index + 1 == count
    String.join (List.replicate (level - 1) cell) ++
      (if isLast then o.style.strokes.last else o.style.strokes.inner) ++ " "

end OutlineOptions

/-- The picture of a node and everything below it, told by the questions: for each node in pre-order that does
not lie too deep, what its depth and its place call for, its label and a line break. -/
def Questions.describe {m : Type → Type} [Monad m] (q : Questions m) (o : OutlineOptions)
    (top : NodeId) : m String := do
  let order ← q.preorder top
  let base ← q.depth top
  let levels ← order.mapM fun id => do return (← q.depth id) - base
  let shown := (order.zip levels).filter fun (_, level) => o.maxDepth.all (level ≤ ·)
  let lines ← shown.mapM fun (id, level) => do
    let place ← q.siblingPosition id
    let n ← q.node id
    return o.leadFor level place ++ o.labelFor n ++ "\n"
  return String.join lines

/-- The questions as a tree answers them. -/
def NodeTree.questions (t : NodeTree) : Questions (Except TreeError) :=
  ⟨t.node, t.depth, t.siblingPosition, t.preorder⟩

namespace LinkedTree

/-- The index among the children of the parent and their number; none for roots. -/
def siblingPosition (id : NodeId) : Work (Option (Nat × Nat)) := do
  let r ← read id
  match r.parent with
  | none => return none
  | some parent =>
    let above ← read parent
    return if id ∈ above.children then some (above.children.idxOf id, above.children.length) else none

/-- The questions as they are answered along the links. -/
def questions : Questions Work :=
  ⟨fun id => Record.data <$> read id, depth, siblingPosition, preorder⟩

end LinkedTree

/-! ## §2 The figures of a picture -/

namespace Forest

/-- A node of a picture, with the level on which it stands. -/
structure Figure where
  level : Nat
  /-- Whether the node has no later siblings. -/
  isLast : Bool
  node : Node

/-- The figures of a forest whose roots stand on a level, in pre-order. -/
def figures (level : Nat) : Forest → List Figure
  | nil => []
  | tree n children rest =>
    ⟨level, rest == .nil, n⟩ :: (children.figures (level + 1) ++ rest.figures level)

theorem nodes_figures (f : Forest) (level : Nat) : (f.figures level).map Figure.node = f.nodes := by
  induction f generalizing level with
  | nil => rfl
  | tree n children rest ihc ihr => simp [figures, nodes, ihc, ihr]

theorem le_of_mem_figures {f : Forest} {level : Nat} {g : Figure} (h : g ∈ f.figures level) :
    level ≤ g.level := by
  induction f generalizing level with
  | nil => simp [figures] at h
  | tree n children rest ihc ihr =>
    simp only [figures, List.mem_cons, List.mem_append] at h
    rcases h with rfl | h | h
    · exact Nat.le_refl level
    · exact Nat.le_of_succ_le (ihc h)
    · exact ihr h

/-- The line of a figure. -/
def Figure.line (o : OutlineOptions) (g : Figure) : String := o.line g.level g.isLast g.node

end Forest

theorem OutlineOptions.shows_of_le {o : OutlineOptions} {level level' : Nat} (hle : level ≤ level')
    (h : o.shows level' = true) : o.shows level = true := by
  cases hdeepest : o.maxDepth with
  | none => simp [shows, hdeepest]
  | some deepest =>
    simp only [shows, hdeepest, Option.all_some, decide_eq_true_eq] at h ⊢
    exact Nat.le_trans hle h

/-- **A forest is drawn figure by figure**, those on levels that are not shown left out. -/
theorem OutlineOptions.draw_eq_join (o : OutlineOptions) (level : Nat) (f : Forest) :
    o.draw level f =
      String.join (((f.figures level).filter fun g => o.shows g.level).map (Forest.Figure.line o)) := by
  induction f generalizing level with
  | nil => rfl
  | tree n children rest ihc ihr =>
    simp only [draw, Forest.figures, ihc, ihr, List.filter_cons, List.filter_append]
    cases hshown : o.shows level with
    | true => simp [Forest.Figure.line, String.append_assoc]
    | false =>
      -- what is below lies still deeper
      have hnone : (children.figures (level + 1)).filter (fun g => o.shows g.level) = [] := by
        apply List.filter_eq_nil_iff.mpr
        intro g hg hgshown
        have hle := Nat.le_of_succ_le (Forest.le_of_mem_figures hg)
        simp [shows_of_le hle hgshown] at hshown
      simp [hnone]

namespace Forest

/-- The nodes among which the node stands that has the given ones above it. -/
def siblings (f : Forest) : List Node → List NodeId
  | [] => f.rootIds
  | parent :: _ => f.childIds parent.id

/-- What the figure of a node shows is where the node stands: its level counts the nodes above it, and it is
last if its place among its siblings is. -/
theorem exists_path_of_mem_figures {f : Forest} (hnd : f.ids.Nodup) {level : Nat} {g : Figure}
    (h : g ∈ f.figures level) :
    ∃ above, f.path? g.node.id = some (g.node :: above) ∧ g.level = level + above.length ∧
      (g.isLast = true ↔
        (f.siblings above).idxOf g.node.id + 1 = (f.siblings above).length) := by
  induction f generalizing level with
  | nil => simp [figures] at h
  | tree n children rest ihc ihr =>
    obtain ⟨⟨hnc, hnr⟩, hcnd, hrnd, hdisj⟩ := nodup_ids_tree.mp hnd
    simp only [figures, List.mem_cons, List.mem_append] at h
    rcases h with rfl | h | h
    · refine ⟨[], by simp [path?_tree], rfl, ?_⟩
      cases rest <;> simp [siblings]
    · -- a node below the root of this tree
      obtain ⟨above, hp, hlevel, hlast⟩ := ihc hcnd h
      have hin := mem_ids_of_path? hp
      refine ⟨above ++ [n], by simp [path?_below hnc hin, hp], ?_, ?_⟩
      · simp only [hlevel, List.length_append, List.length_singleton]
        omega
      · have hsame : (tree n children rest).siblings (above ++ [n]) = children.siblings above := by
          cases above with
          | nil => simp [siblings, childIds_tree]
          | cons m above =>
            have hm : m.id ∈ children.ids := mem_ids_of_mem_path hp (by simp)
            have hne : ¬ n.id = m.id := fun heq => hnc (heq ▸ hm)
            simp [siblings, childIds_tree, hne, hm]
        rw [hsame, hlast]
    · -- a node of one of the trees beside
      obtain ⟨above, hp, hlevel, hlast⟩ := ihr hrnd h
      have hin := mem_ids_of_path? hp
      have hne : n.id ≠ g.node.id := fun heq => hnr (heq ▸ hin)
      refine ⟨above, ?_, hlevel, ?_⟩
      · rw [path?_beside hne fun hc => hdisj _ hc hin, hp]
      · rw [hlast]
        cases above with
        | nil => simp [siblings, List.idxOf_cons_ne _ hne]
        | cons m above =>
          have hm : m.id ∈ rest.ids := mem_ids_of_mem_path hp (by simp)
          have hnm : ¬ n.id = m.id := fun heq => hnr (heq ▸ hm)
          have hmc : m.id ∉ children.ids := fun hc => hdisj _ hc hm
          simp [siblings, childIds_tree, hnm, hmc]

/-- The path of a node in a subtree goes on above the root of the subtree. -/
theorem path?_of_subtree? {f : Forest} (hnd : f.ids.Nodup) {id k : NodeId} {sub : Node × Forest}
    {n : Node} {above p : List Node} (hsub : f.subtree? id = some sub)
    (hid : f.path? id = some (n :: above)) (hk : (single sub).path? k = some p) :
    f.path? k = some (p ++ above) := by
  induction f generalizing above with
  | nil => cases hsub
  | tree m children rest ihc ihr =>
    obtain ⟨⟨hmc, hmr⟩, hcnd, hrnd, hdisj⟩ := nodup_ids_tree.mp hnd
    have hin := mem_ids_of_path? hk
    rw [subtree?] at hsub
    split at hsub
    · -- the subtree is the first tree, and nothing is above its root
      rename_i hm
      obtain rfl := Option.some.inj hsub
      rw [path?_tree, if_pos hm] at hid
      obtain ⟨-, rfl⟩ := List.cons.inj (Option.some.inj hid)
      rw [single, path?_tree] at hk
      rw [path?_tree, List.append_nil]
      split at hk
      · rename_i hmk
        rw [if_pos hmk, hk]
      · rename_i hmk
        simp only [path?, Option.or_none] at hk
        rw [if_neg hmk, hk, Option.some_or]
    · rename_i hm
      rcases Option.or_eq_some_iff.mp hsub with hbelow | ⟨hnot, hbeside⟩
      · have hidc : id ∈ children.ids := (subtree?_isSome id children).mp (by simp [hbelow])
        have hkc := ids_single_subset hbelow hin
        rw [path?_below hmc hidc] at hid
        obtain ⟨q, hq, hqm⟩ := Option.map_eq_some_iff.mp hid
        obtain ⟨a, lower, rfl, -⟩ := path?_head hq
        obtain ⟨rfl, rfl⟩ := List.cons.inj hqm
        rw [path?_below hmc hkc, ihc hcnd hbelow hq]
        simp
      · have hidr : id ∈ rest.ids := (subtree?_isSome id rest).mp (by simp [hbeside])
        have hkr := ids_single_subset hbeside hin
        rw [path?_beside hm fun hc => hdisj _ hc hidr] at hid
        rw [path?_beside (fun heq => hmr (heq ▸ hkr)) fun hc => hdisj _ hc hkr]
        exact ihr hrnd hbeside hid

end Forest

/-! ## §3 The answers of a tree -/

theorem ok_bind {α β : Type} (a : α) (f : α → Except TreeError β) : Except.ok a >>= f = f a := rfl

/-- Answers that are given one by one are given together. -/
theorem mapM_map_eq_ok {α β γ : Type} {f : β → Except TreeError γ} {a : α → β} {c : α → γ}
    {xs : List α} (h : ∀ x ∈ xs, f (a x) = .ok (c x)) : (xs.map a).mapM f = .ok (xs.map c) := by
  induction xs with
  | nil => rfl
  | cons x xs ih =>
    rw [List.map_cons, List.mapM_cons, h x List.mem_cons_self, ih fun y hy => h y (by simp [hy])]
    rfl

theorem intercalate_cons_eq_join (sign word : String) (words : List String) :
    sign.intercalate (word :: words) = word ++ String.join (words.map (sign ++ ·)) := by
  induction words generalizing word with
  | nil => simp
  | cons next words ih => simp [String.intercalate_cons_cons, ih, String.append_assoc]

namespace OutlineOptions

/-- The strokes of a style are those that it is drawn with. -/
theorem strokes_eq (style : OutlineStyle) :
    style.strokes = ⟨style.branch, style.corner, style.lastCorner⟩ := by
  cases style <;> rfl

/-- The corner that a place calls for is the one that a figure in this place has. -/
theorem leadFor_eq_lead {o : OutlineOptions} {level index count : Nat} {isLast : Bool}
    (h : isLast = true ↔ index + 1 = count) :
    o.leadFor (level + 1) (some (index, count)) = o.lead (level + 1) isLast := by
  have hlast : (index + 1 == count) = isLast := by
    rw [Bool.eq_iff_iff, h, beq_iff_eq]
  simp [leadFor, lead, hlast, strokes_eq]

/-- The words of a label stand in it one after the other, each but the first behind a blank. -/
theorem labelFor_eq_label (o : OutlineOptions) (n : Node) : o.labelFor n = o.label n := by
  have hclasses : n.classWords.map (" " ++ ·) = n.classes.map (" ." ++ ·) := by
    simp [Node.classWords, ← String.append_assoc]
  have hflags : String.join (n.flagWords.map (" " ++ ·)) =
      (if n.dirty then " *dirty*" else "") ++ (if !n.isVisible then " [hidden]" else "") := by
    unfold Node.flagWords
    cases n.dirty <;> cases n.isVisible <;> rfl
  rw [labelFor, words, intercalate_cons_eq_join, label, ← hclasses]
  simp only [List.map_append, String.join_append]
  -- what a switch does not ask for is written in neither
  cases hauthor : n.authorId <;> cases o.showIds <;> cases o.showClasses <;> cases o.showFlags <;>
    simp [hauthor, hflags, Node.idWord, ← String.append_assoc]

end OutlineOptions

namespace NodeTree

variable {t : NodeTree} {top : NodeId} {sub : Node × Forest} {n : Node} {up : List Node}

/-- In a picture below `top`, the questions about the node of a figure are answered by what the figure shows. -/
theorem answers_of_mem_figures (hnd : t.forest.ids.Nodup) (hsub : t.subtree? top = some sub)
    (hup : t.path? top = some (n :: up)) (o : OutlineOptions) {g : Forest.Figure}
    (hg : g ∈ (Forest.single sub).figures 0) :
    t.node g.node.id = .ok g.node ∧ t.depth g.node.id = .ok (g.level + up.length) ∧
      ∃ place, t.siblingPosition g.node.id = .ok place ∧
        o.leadFor g.level place ++ o.labelFor g.node ++ "\n" = g.line o := by
  obtain ⟨above, hp, hlevel, hlast⟩ :=
    Forest.exists_path_of_mem_figures (Forest.nodup_ids_single hnd hsub) hg
  have hpath : t.path? g.node.id = some (g.node :: (above ++ up)) :=
    Forest.path?_of_subtree? hnd hsub hup hp
  obtain ⟨below, hbelow⟩ := subtree?_of_path? hpath
  refine ⟨by simp [node, ask, hbelow], ?_, t.siblingPlace? g.node.id, ?_, ?_⟩
  · simp [depth, ask, hbelow, hpath, hlevel]
  · simp [siblingPosition, ask, hbelow]
  · rw [OutlineOptions.labelFor_eq_label]
    cases above with
    | nil =>
      -- the root of the picture has no lead, wherever it stands in the tree
      simp at hlevel
      simp [Forest.Figure.line, OutlineOptions.line, hlevel, OutlineOptions.leadFor,
        OutlineOptions.lead]
    | cons m above =>
      have hm : m.id ∈ (Forest.single sub).ids := Forest.mem_ids_of_mem_path hp (by simp)
      have hsame : (Forest.single sub).childIds m.id = t.childIds m.id := by
        rw [Forest.childIds, Forest.subtree?_of_mem_single hnd hsub hm]
        rfl
      simp only [Forest.siblings, hsame] at hlast
      have hlead : o.leadFor (above.length + 1) _ = o.lead (above.length + 1) g.isLast :=
        OutlineOptions.leadFor_eq_lead hlast
      simp only [List.length_cons, Nat.zero_add] at hlevel
      rw [Forest.Figure.line, OutlineOptions.line, hlevel, ← hlead, siblingPlace?,
        parentId?_of_path? hpath]
      rfl

/-- The walk meets the nodes of the figures in their order. -/
theorem preorder_eq_figures (hsub : t.subtree? top = some sub) :
    t.preorder top = .ok (((Forest.single sub).figures 0).map fun g => g.node.id) := by
  have hids : ((Forest.single sub).figures 0).map (fun g => g.node.id) = (Forest.single sub).ids := by
    rw [Forest.ids, ← Forest.nodes_figures (.single sub) 0, List.map_map]
    rfl
  rw [hids, preorder, ask, hsub, ← subtree?_id hsub]
  simp [Forest.single]

theorem outline_eq_figures (hsub : t.subtree? top = some sub) (o : OutlineOptions) :
    t.outline o top = .ok (String.join
      ((((Forest.single sub).figures 0).filter fun g => o.shows g.level).map (Forest.Figure.line o))) := by
  rw [← OutlineOptions.draw_eq_join]
  simp [outline, ask, hsub, Forest.single]

/-- **A tree draws the picture that its answers describe.** -/
theorem describe_eq_outline (hnd : t.forest.ids.Nodup) (o : OutlineOptions) (top : NodeId) :
    t.questions.describe o top = t.outline o top := by
  cases hsub : t.subtree? top with
  | none => simp [Questions.describe, questions, preorder, outline, ask, hsub, bind, Except.bind]
  | some sub =>
    obtain ⟨n, up, hup, -⟩ := path?_of_contains (contains_iff.mpr (mem_ids_of_subtree? hsub))
    generalize hfigures : (Forest.single sub).figures 0 = figures
    have hanswers {g : Forest.Figure} (hg : g ∈ figures) :=
      answers_of_mem_figures hnd hsub hup o (hfigures ▸ hg)
    have horder : t.preorder top = .ok (figures.map fun g => g.node.id) :=
      hfigures ▸ preorder_eq_figures hsub
    have hbase : t.depth top = .ok up.length := by simp [depth, ask, hsub, hup]
    -- the depths of the nodes tell the levels of the figures
    have hlevels : (figures.map fun g => g.node.id).mapM
        (fun id => do return (← t.depth id) - up.length) = .ok (figures.map Forest.Figure.level) := by
      apply mapM_map_eq_ok
      intro g hg
      rw [(hanswers hg).2.1, ok_bind, Nat.add_sub_cancel]
      rfl
    -- what is asked about the figures that are shown gives their lines
    have hshown : ((figures.map fun g => g.node.id).zip (figures.map Forest.Figure.level)).filter
        (fun (_, level) => o.maxDepth.all (level ≤ ·)) =
        (figures.filter fun g => o.shows g.level).map fun g => (g.node.id, g.level) := by
      rw [List.zip_map', List.filter_map]
      rfl
    have hlines : ((figures.filter fun g => o.shows g.level).map fun g => (g.node.id, g.level)).mapM
        (fun (id, level) => do
          let place ← t.siblingPosition id
          let n ← t.node id
          return o.leadFor level place ++ o.labelFor n ++ "\n") =
        .ok ((figures.filter fun g => o.shows g.level).map (Forest.Figure.line o)) := by
      apply mapM_map_eq_ok
      intro g hg
      obtain ⟨hnode, -, place, hplace, hline⟩ := hanswers (List.mem_of_mem_filter hg)
      simp only [hplace, hnode, ok_bind, hline]
      rfl
    rw [outline_eq_figures hsub, hfigures, Questions.describe]
    simp only [questions, horder, hbase, ok_bind, hlevels, hshown, hlines]
    rfl

end NodeTree

/-! ## §4 The answers along the links -/

namespace LinkedTree

section Answers

variable {l : LinkedTree} {α β : Type}

/-- The work on a table answers all questions in a given way and leaves the table as it is. -/
structure Answers (l : LinkedTree) (q : Questions Work) (q' : Questions (Except TreeError)) :
    Prop where
  node (id : NodeId) : Ends (q.node id) l (q'.node id) l
  depth (id : NodeId) : Ends (q.depth id) l (q'.depth id) l
  siblingPosition (id : NodeId) : Ends (q.siblingPosition id) l (q'.siblingPosition id) l
  preorder (id : NodeId) : Ends (q.preorder id) l (q'.preorder id) l

/-- Same answers, same description. -/
theorem Answers.describe {q : Questions Work} {q' : Questions (Except TreeError)}
    (h : l.Answers q q') (o : OutlineOptions) (top : NodeId) :
    Ends (q.describe o top) l (q'.describe o top) l := by
  apply (h.preorder top).bind_answer
  intro order
  apply (h.depth top).bind_answer
  intro base
  have hlevel (id : NodeId) := (h.depth id).bind_answer fun d => ends_pure (d - base)
  apply (Ends.mapM hlevel order).bind_answer
  intro levels
  have hline (shown : NodeId × Nat) :=
    (h.siblingPosition shown.1).bind_answer fun place => (h.node shown.1).bind_answer fun n =>
      ends_pure (o.leadFor shown.2 place ++ o.labelFor n ++ "\n")
  apply (Ends.mapM hline _).bind_answer
  intro lines
  exact ends_pure (String.join lines)

end Answers

namespace Represents

variable {l : LinkedTree} {t : NodeTree}

theorem ends_siblingPosition (h : l.Represents t) (hnd : t.forest.ids.Nodup) {id : NodeId}
    {n : Node} {above : List Node} (hp : t.path? id = some (n :: above)) :
    Ends (siblingPosition id) l (.ok (t.siblingPlace? id)) l := by
  have hread := ends_read (h.record?_of_path? hp)
  cases above with
  | nil =>
    rw [NodeTree.siblingPlace?, NodeTree.parentId?_of_root hp]
    rw [NodeTree.parentId?_of_root hp] at hread
    exact hread.bind (ends_pure none)
  | cons m above =>
    have hparent := NodeTree.parentId?_of_path? hp
    have habove := ends_read (h.record?_of_path? (Forest.path?_above hnd hp))
    rw [NodeTree.siblingPlace?, hparent]
    rw [hparent] at hread
    -- the parent lists its child
    have hlisted : id ∈ t.childIds m.id := (NodeTree.mem_childIds_iff_parentId? hnd).mpr hparent
    refine hread.bind (habove.bind ?_)
    simpa [hlisted] using ends_pure (some ((t.childIds m.id).idxOf id, (t.childIds m.id).length))

/-- A question has two cases: the node is dead, or it has a place in the tree. -/
theorem ends_ask {α : Type} {x : Work α} {id : NodeId} {answer : Node → Forest → α}
    (dead : t.subtree? id = none → Ends x l (.error (.invalidNode id)) l)
    (live : ∀ n below up, t.subtree? id = some (n, below) → t.path? id = some (n :: up) →
      Ends x l (.ok (answer n below)) l) : Ends x l (t.ask id answer) l := by
  unfold NodeTree.ask
  cases hsub : t.subtree? id with
  | none => exact dead hsub
  | some sub =>
    obtain ⟨n, up, hp, -⟩ :=
      NodeTree.path?_of_contains (NodeTree.contains_iff.mpr (NodeTree.mem_ids_of_subtree? hsub))
    obtain ⟨below, hsub'⟩ := NodeTree.subtree?_of_path? hp
    obtain rfl := Option.some.inj (hsub.symm.trans hsub')
    exact live n below up hsub hp

/-- The questions are answered as the tree answers them, for dead nodes as well. -/
theorem answers (h : l.Represents t) (hnd : t.forest.ids.Nodup) :
    l.Answers questions t.questions where
  node id := by
    apply ends_ask
    · exact fun hsub => (h.ends_read_of_dead hsub).map Record.data
    · intro n below up _ hp
      exact (ends_read (h.record?_of_path? hp)).map Record.data
  depth id := by
    apply ends_ask
    · exact fun hsub => (h.ends_read_of_dead hsub).bind_error
    · intro n below up _ hp
      show Ends (LinkedTree.depth id) l _ l
      simpa [hp] using ends_depth h.recorded hnd hp
  siblingPosition id := by
    apply ends_ask
    · exact fun hsub => (h.ends_read_of_dead hsub).bind_error
    · exact fun n below up _ hp => h.ends_siblingPosition hnd hp
  preorder id := by
    apply ends_ask
    · exact fun hsub => Ends.bind_error (h.ends_read_of_dead hsub).bind_error
    · intro n below up hsub _
      obtain ⟨_, hsingle⟩ := h.single_recorded hsub
      have hid : n.id = id := NodeTree.subtree?_id hsub
      show Ends (LinkedTree.preorder id) l _ l
      simpa [Forest.single, hid] using LinkedTree.ends_preorder hsingle

end Represents

end LinkedTree

/-! ## §5 Every run -/

/-- The picture of all trees holds those of the roots, one after the other. -/
theorem NodeTree.exists_mapM_outline {t : NodeTree} (o : OutlineOptions) {f : Forest}
    (hnd : f.ids.Nodup) (hsame : ∀ id ∈ f.rootIds, t.subtree? id = f.subtree? id) :
    ∃ pictures, f.rootIds.mapM (t.outline o) = .ok pictures ∧ o.draw 0 f = String.join pictures := by
  induction f with
  | nil => exact ⟨[], rfl, rfl⟩
  | tree n children rest _ ihr =>
    obtain ⟨⟨hnc, hnr⟩, -, hrnd, hdisj⟩ := Forest.nodup_ids_tree.mp hnd
    simp only [Forest.rootIds_tree, List.mem_cons] at hsame
    have hbeside : ∀ id ∈ rest.rootIds, t.subtree? id = rest.subtree? id := by
      intro id hid
      have hin := Forest.mem_ids_of_mem_rootIds hid
      have hne : ¬ n.id = id := fun heq => hnr (heq ▸ hin)
      rw [hsame id (.inr hid), Forest.subtree?, if_neg hne,
        Forest.subtree?_eq_none fun hc => hdisj id hc hin, Option.none_or]
    obtain ⟨pictures, hpictures, hdraw⟩ := ihr hrnd hbeside
    have hfirst : t.outline o n.id = .ok (o.draw 0 (.single (n, children))) := by
      rw [outline, ask, hsame n.id (.inl rfl), Forest.subtree?, if_pos rfl]
      rfl
    refine ⟨o.draw 0 (.single (n, children)) :: pictures, ?_, ?_⟩
    · rw [Forest.rootIds_tree, List.mapM_cons, hfirst, hpictures]
      rfl
    · rw [LinkedTree.draw_tree, hdraw, String.join_cons]

namespace LinkedTree

/-- The picture of a node, drawn on the way down or told by the questions, in a tree and in its table. -/
structure PicturedBy (l : LinkedTree) (t : NodeTree) (o : OutlineOptions) (id : NodeId)
    (text : String) : Prop where
  outline_eq : t.outline o id = .ok text
  describe_eq : t.questions.describe o id = .ok text
  ends_outline : Ends (outline o id) l (.ok text) l
  ends_describe : Ends (questions.describe o id) l (.ok text) l

/-- The picture of all trees, which holds those of the roots. -/
structure AllPicturedBy (l : LinkedTree) (t : NodeTree) (o : OutlineOptions)
    (pictures : List String) : Prop where
  /-- The roots are the living nodes without a parent, in slot order. -/
  roots : l.Enumerates t.ids ∧ t.ids.length = t.nodeCount ∧ l.rootsAmong t.ids = t.roots
  each : t.roots.mapM (t.outline o) = .ok pictures
  ends_each : Ends (t.roots.mapM (outline o)) l (.ok pictures) l
  outlineAll_eq : t.outlineAll o = "Node Tree (" ++ toString t.nodeCount ++ " total nodes):\n" ++
    (if t.roots = [] then "  (empty)\n" else "") ++ String.join pictures
  ends_outlineAll : Ends (outlineAll o t.ids) l (.ok (t.outlineAll o)) l

namespace Represents

variable {l : LinkedTree} {t : NodeTree}

theorem picturedBy (h : l.Represents t) (hnd : t.forest.ids.Nodup) (o : OutlineOptions)
    {id : NodeId} {r : Record} (hr : l.record? id = some r) : ∃ text, l.PicturedBy t o id text := by
  obtain ⟨up, hp, -, -⟩ := h.record?_eq_some hr
  obtain ⟨below, hsub⟩ := NodeTree.subtree?_of_path? hp
  have houtline : t.outline o id = .ok (o.draw 0 (.tree r.data below .nil)) := by
    rw [NodeTree.outline, NodeTree.ask, hsub]
  have hdescribe := NodeTree.describe_eq_outline hnd o id
  have hends := h.ends_outline o id
  have hends' := (h.answers hnd).describe o id
  rw [houtline] at hdescribe hends
  rw [hdescribe] at hends'
  exact ⟨_, houtline, hdescribe, hends, hends'⟩

theorem allPicturedBy (h : l.Represents t) (hwf : t.WellFormed) (hroots : t.RootsAscend)
    (o : OutlineOptions) :
    ∃ pictures, l.AllPicturedBy t o pictures := by
  obtain ⟨pictures, heach, hdraw⟩ := t.exists_mapM_outline o hwf.nodup_ids fun _ _ => rfl
  refine ⟨pictures, ?_, heach, ?_, ?_, h.ends_outlineAll hwf hroots o⟩
  · exact ⟨h.enumerates hwf, t.length_ids, h.rootsAmong_eq hwf hroots (h.enumerates hwf)⟩
  · have hends := Ends.mapM (h.ends_outline o) t.roots
    rwa [show t.roots.mapM (t.outline o) = .ok pictures from heach] at hends
  · rw [NodeTree.outlineAll, hdraw, ← t.isEmpty_roots]
    simp

end Represents

/-- **A picture shows what the questions tell.** After any run of edits and with any options, the picture of a
living node is drawn without being refused, and it is the text that the walk in pre-order, the depths, the
places among siblings and the data of the nodes describe. The picture of all trees counts the nodes, says so if
there are none, and goes on with the pictures of the roots. -/
theorem outline_run (edits : List TreeEdit) (o : OutlineOptions) :
    ∃ l, empty.run edits = some l ∧ l.Represents (NodeTree.empty.run edits) ∧
      (∀ id r, l.record? id = some r →
        ∃ text, l.PicturedBy (NodeTree.empty.run edits) o id text) ∧
      ∃ pictures, l.AllPicturedBy (NodeTree.empty.run edits) o pictures := by
  have hroots : (NodeTree.empty.run edits).RootsAscend :=
    NodeTree.rootsAscend_run NodeTree.wellFormed_empty List.Pairwise.nil edits
  have hwf := NodeTree.wellFormed_run NodeTree.wellFormed_empty edits
  obtain ⟨l, hrun, h⟩ := represents_empty.run NodeTree.wellFormed_empty edits
  refine ⟨l, hrun, h, ?_, h.allPicturedBy hwf hroots o⟩
  intro id r hr
  exact h.picturedBy hwf.nodup_ids o hr

end LinkedTree

end StyledScene
