import StyledScene.Text.Quoted

/-!
# Errors of style authoring

The ways in which text handed to the style side can fail to mean anything. The cascade itself
never fails.
-/

namespace StyledScene

/-- Why a text was refused. -/
inductive StyleError where
  /-- The selector text has no compound in it. -/
  | invalidSelector (text : String)
  /-- No property of the category has the name. -/
  | unknownProperty (category : String) (name : String)
  /-- The text is no hexadecimal color. -/
  | invalidColor (text : String)
  /-- The selector text has no compound in it, and the author wants to be stopped by that. -/
  | assertionFailed (text : String)
deriving DecidableEq, Repr

/-- The wording shown to an author. -/
def StyleError.message : StyleError → String
  | .invalidSelector text => "Invalid selector '" ++ text ++ "': no selector segment"
  | .unknownProperty category name => "Unknown " ++ category ++ " property '" ++ name ++ "'"
  | .invalidColor text => "Invalid color '" ++ text ++ "'"
  | .assertionFailed text => "invalid selector " ++ Text.quoted text

end StyledScene
