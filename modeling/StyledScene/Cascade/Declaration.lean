import StyledScene.Selector.Basic
import StyledScene.Style.Edit

/-!
# Declarations

A declaration pairs a selector with the values that it declares for the nodes it matches. It keeps
the weight of its selector, and the number that tells which of two declarations is the older.
-/

namespace StyledScene

/-- Values for the nodes that a selector matches. -/
structure Declaration where
  selector : Selector
  /-- The weight of the selector. -/
  weight : Nat
  /-- Later declarations have higher numbers. -/
  order : Nat
  store : Store

namespace Declaration

/-- A declaration without values. -/
def new (selector : Selector) (order : Nat) (watched : Bool) : Declaration :=
  ⟨selector, selector.weight, order, Store.new watched⟩

/-- The declared values. -/
def style (d : Declaration) : Style := d.store.style

/-- A declaration with the same values that nobody watches. -/
def copy (d : Declaration) : Declaration := { d with store := Store.ofStyle d.style }

end Declaration

end StyledScene
