import StyledScene.Text.Quoted
import StyledScene.Tree.Basic

/-!
# Outlines

The indented picture of a tree: one line per node, parents before children. A line starts with a cell
for each level between the node and the root of the picture, then a corner that tells the last child
from the others, and goes on with the node's tags, id, classes and marks.
-/

namespace StyledScene

/-- The characters that an outline is drawn with. -/
inductive OutlineStyle where
  | ascii
  | unicode
  | compact
deriving DecidableEq, Repr

namespace OutlineStyle

/-- The stroke of a level that the line passes by. -/
def branch : OutlineStyle → String
  | .ascii => "|"
  | .unicode => "│"
  | .compact => ""

/-- The corner of a child that others follow. -/
def corner : OutlineStyle → String
  | .ascii => "+--"
  | .unicode => "├──"
  | .compact => "-"

/-- The corner of the last child. -/
def lastCorner : OutlineStyle → String
  | .ascii => "\x60--"
  | .unicode => "└──"
  | .compact => "-"

end OutlineStyle

/-- What an outline shows. -/
structure OutlineOptions where
  style : OutlineStyle
  showIds : Bool
  showClasses : Bool
  showFlags : Bool
  /-- The deepest level that is shown, counted from the root of the picture. -/
  maxDepth : Option Nat
  /-- The number of spaces after the stroke of a level. -/
  indent : Nat
deriving DecidableEq, Repr

namespace OutlineOptions

/-- Shows everything. -/
def full : OutlineOptions := ⟨.unicode, true, true, true, none, 2⟩

/-- Shows tags only. -/
def minimal : OutlineOptions := { full with showIds := false, showClasses := false, showFlags := false }

/-- Whether nodes at a level are shown. -/
def shows (o : OutlineOptions) (depth : Nat) : Bool := o.maxDepth.all fun deepest => depth ≤ deepest

/-- What stands before the tags of a node at a level. -/
def lead (o : OutlineOptions) (depth : Nat) (isLast : Bool) : String :=
  match depth with
  | 0 => ""
  | levels + 1 =>
    let cell := o.style.branch ++ String.ofList (List.replicate o.indent ' ')
    String.join (List.replicate levels cell) ++
      (if isLast then o.style.lastCorner else o.style.corner) ++ " "

/-- The tags, id, classes and marks of a node. -/
def label (o : OutlineOptions) (n : Node) : String :=
  let id := match n.authorId with
    | some id => " #" ++ id
    | none => " (" ++ n.autoId ++ ")"
  String.intercalate "/" n.tags ++
    (if o.showIds then id else "") ++
    (if o.showClasses then String.join (n.classes.map (" ." ++ ·)) else "") ++
    (if o.showFlags && n.dirty then " *dirty*" else "") ++
    (if o.showFlags && !n.isVisible then " [hidden]" else "")

/-- The line of a node. -/
def line (o : OutlineOptions) (depth : Nat) (isLast : Bool) (n : Node) : String :=
  o.lead depth isLast ++ o.label n ++ "\n"

/-- The lines of a forest whose roots stand at a level. -/
def draw (o : OutlineOptions) (depth : Nat) : Forest → String
  | .nil => ""
  | .tree n children rest =>
    -- where a level is too deep, so is everything below it
    (if o.shows depth then o.line depth (rest == .nil) n ++ o.draw (depth + 1) children else "") ++
      o.draw depth rest

end OutlineOptions

namespace NodeTree

/-- The picture of a node and everything below it. -/
def outline (t : NodeTree) (o : OutlineOptions) (id : NodeId) : Except TreeError String :=
  t.ask id fun n below => o.draw 0 (.tree n below .nil)

/-- The picture of all trees, under a line with the number of nodes. -/
def outlineAll (t : NodeTree) (o : OutlineOptions) : String :=
  "Node Tree (" ++ toString t.nodeCount ++ " total nodes):\n" ++
    (if t.forest == .nil then "  (empty)\n" else "") ++ o.draw 0 t.forest

end NodeTree

/-- The diagnostic text of a node. -/
def Node.diagnostic (n : Node) : String :=
  "NodeRef \x7b id: " ++ n.id.text ++ ", tags: [" ++
    String.intercalate ", " (n.tags.map Text.quoted) ++ "] \x7d"

end StyledScene
