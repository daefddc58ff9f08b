import StyledScene.Cascade.Manager
import StyledScene.Journal.Event

/-!
# Events of selectors and managers

What reading a selector, addressing a declaration and computing a style report.
-/

namespace StyledScene

/-- The reports of reading a selector. -/
def Selector.parseEvents (text : String) : List Event :=
  let lowered := Text.lowercase text
  (Selector.unknownPseudos text).map (fun name => .unknownPseudo name lowered) ++
    if (Selector.parse? text).isSome then [] else [.noCompound text]

namespace StyleManager

/-- The reports of addressing a declaration. -/
def accessEvents (m : StyleManager) (text : String) : List Event :=
  match slotOf text with
  | .everywhere => []
  | .keyed key =>
    if (m.declarations.find? key).isSome then []
    else
      Selector.parseEvents key ++
        match Selector.parse? key with
        | some selector => [.declarationCreated key selector.weight m.nextOrder]
        | none => []

/-- The warning of a text that has no selector, where the configuration asks for it. -/
def warningEvents (m : StyleManager) (text : String) : List Event :=
  if m.config.warnOnInvalid && (m.access? text).isNone then [.selectorRefused text] else []

/-- The reports of an edit. -/
def editEvents (m : StyleManager) : ManagerEdit → List Event
  | .access text => m.accessEvents text
  | .removeStyle text => if (m.declaration? text).isSome then [.declarationRemoved (keyOf text)] else []
  | .clear => [.declarationsCleared]
  | .registerFont name _ => [.fontRegistered name]
  | .registerSkin name _ => [.skinRegistered name]
  | .change _ _ | .invalidate | .markValid => []

/-- The report of computing a style. -/
def computeEvent (m : StyleManager) (lineage : Lineage) (result : Style) : Event :=
  .styleComputed (m.matchCount lineage) result.size

end StyleManager

end StyledScene
