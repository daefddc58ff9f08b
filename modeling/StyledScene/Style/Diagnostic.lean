import StyledScene.Decimal.Shortest
import StyledScene.Style.Edit
import StyledScene.Text.Quoted

/-!
# Diagnostic text of stores

The one-line listing of a store: its values by category, each under the capitalized name of its
property, and whether anyone watches it.
-/

namespace StyledScene

/-- The text of a value. -/
def Category.valueText : (c : Category) → c.Value → String
  | .color, v => "Color(" ++ toString v.argb.toNat ++ ")"
  | .string, v => Text.quoted v
  | .float, v => Decimal.ofFloat v
  | .integer, v => toString v.toInt
  | .boolean, v => if v then "true" else "false"

/-- The word under which a store lists the values of a category. -/
def Category.plural : Category → String
  | .color => "colors"
  | .string => "strings"
  | .float => "floats"
  | .integer => "ints"
  | .boolean => "bools"

/-- The values of one category between braces, in the order of `Key.all`. -/
def Style.categoryText (s : Style) (c : Category) : String :=
  let entries := (Key.all c).filterMap fun k =>
    (s.get? k).map fun v => k.label ++ ": " ++ c.valueText v
  "\x7b" ++ String.intercalate ", " entries ++ "\x7d"

/-- The listing of a store. -/
def Store.diagnostic (store : Store) : String :=
  let fields := Category.all.map fun c => c.plural ++ ": " ++ store.style.categoryText c
  "Style \x7b " ++ String.intercalate ", " fields ++ ", has_on_change: " ++
    (if store.watched then "true" else "false") ++ " \x7d"

end StyledScene
