import StyledScene.Cascade.Declaration
import StyledScene.Selector.Matching
import StyledScene.Style.InheritTable

/-!
# The cascade

How the style of a node comes about. From the weakest source to the strongest: the values for every
node, what the parent passes on, the matching declarations by ascending weight and, within a weight,
by age, and the values given to the node itself. Default values fill what is still absent.
-/

namespace StyledScene

/-- What the style of a node depends on besides the node and the declarations. -/
structure StyleContext where
  /-- The style of the parent, already up to date. -/
  parent : Option Style
  /-- The values given to the node itself. -/
  ownValues : Option Style
  /-- The values that fill what is absent in the end. -/
  defaults : Option Style
  /-- What the node takes over from its parent. -/
  inherits : InheritTable

/-- The declarations that match a node, in their given order. -/
def matchingDeclarations (m : Matcher) (declarations : List Declaration) (lineage : Lineage) :
    List Declaration :=
  declarations.filter fun d => m.accepts d.selector lineage

/-- Declarations by ascending weight; equal weights keep their order. -/
def byWeight (declarations : List Declaration) : List Declaration :=
  declarations.mergeSort fun d e => decide (d.weight ≤ e.weight)

/-- A style with a possible other style laid over it. -/
def Style.overlayOption (s : Style) : Option Style → Style
  | some other => s.overlay other
  | none => s

/-- Computes the style of the first node of the lineage. -/
def computeStyle (m : Matcher) (everywhere : Option Declaration) (declarations : List Declaration)
    (lineage : Lineage) (context : StyleContext) : Style :=
  let base := Style.empty.overlayOption (everywhere.map Declaration.style)
  -- what is inherited goes before what is declared for every node
  let inherited := match context.parent with
    | some parent => base.overlayInherited parent context.inherits
    | none => base
  -- the heaviest declaration comes last, so it has the last word
  let declared := (byWeight (matchingDeclarations m declarations lineage)).foldl
    (fun s d => s.overlay d.style) inherited
  let own := declared.overlayOption context.ownValues
  match context.defaults with
  | some defaults => own.fillFrom defaults
  | none => own

end StyledScene
