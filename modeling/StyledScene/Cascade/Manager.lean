import StyledScene.Box.Paint
import StyledScene.Cascade.Compute
import StyledScene.Cascade.Registry
import StyledScene.Selector.Parse
import StyledScene.Text.Quoted

/-!
# Style managers

A manager keeps the declarations, fonts and skins of a window. Declarations are kept in the order of
their creation, each under the trimmed and lower-cased text that created it; the text `*` stands for
the one declaration that applies to every node. A manager is valid as long as no declaration has
changed since it was last marked so; a new one is not.
-/

namespace StyledScene

/-! ## Parts -/

/-- How a manager works. -/
structure ManagerConfig where
  /-- Whether its matcher uses the depth fast path. -/
  depthFastPath : Bool
  /-- Whether it warns of selector texts that cannot be read. -/
  warnOnInvalid : Bool
  /-- Whether it stops at selector texts that cannot be read. -/
  assertOnInvalid : Bool
deriving DecidableEq, Repr

/-- The usual configuration. -/
def ManagerConfig.usual : ManagerConfig := ⟨true, true, false⟩

/-- Where a declaration is kept. -/
inductive Slot where
  /-- The declaration that applies to every node. -/
  | everywhere
  /-- The declaration under a key. -/
  | keyed (key : String)
deriving DecidableEq, Repr

/-- What an author may do to the store of a declaration. -/
inductive StoreChange where
  | edit (e : Edit)
  /-- Cuts the store off from its manager, which hears of no later edit. -/
  | unwatch

/-- Declarations, fonts and skins of a window. -/
structure StyleManager where
  config : ManagerConfig
  /-- The declarations under their keys, oldest first. -/
  declarations : Registry Declaration
  /-- The declaration that applies to every node. -/
  everywhere : Option Declaration
  /-- The number of the next declaration; it never goes back. -/
  nextOrder : Nat
  fonts : Registry Nat
  skins : Registry Skin
  /-- Whether no declaration has changed since the manager was last marked valid. -/
  valid : Bool

namespace StyleManager

/-- A manager without declarations. -/
def new (config : ManagerConfig) : StyleManager := ⟨config, [], none, 0, [], [], false⟩

/-! ## Addressing declarations -/

/-- The text that stands for every node. -/
def everywhereKey : String := "*"

/-- The key of a selector text. -/
def keyOf (text : String) : String := Text.lowercase (Text.trim text)

/-- The slot that a text addresses, whether or not there is a declaration in it. -/
def slotOf (text : String) : Slot :=
  if keyOf text = everywhereKey then .everywhere else .keyed (keyOf text)

/-- The declaration in a slot. -/
def at? (m : StyleManager) : Slot → Option Declaration
  | .everywhere => m.everywhere
  | .keyed key => m.declarations.find? key

/-- The declaration that a text addresses. -/
def declaration? (m : StyleManager) (text : String) : Option Declaration := m.at? (slotOf text)

/-- Puts a new declaration under a key. -/
def append (m : StyleManager) (key : String) (selector : Selector) : StyleManager :=
  { m with
    -- a text that is declared again goes to the end, with a new number
    declarations := m.declarations.insert key (Declaration.new selector m.nextOrder true)
    nextOrder := m.nextOrder + 1 }

/-- Finds or creates the declaration that a text addresses; none if the text has no selector. -/
def access? (m : StyleManager) (text : String) : Option (Slot × StyleManager) :=
  let slot := slotOf text
  if (m.at? slot).isSome then some (slot, m)
  else
    match slot with
    -- the declaration for every node takes no number: it is never weighed against others
    | .everywhere =>
      some (slot, { m with everywhere := some (Declaration.new Selector.universal 0 true) })
    | .keyed key => (Selector.parse? key).map fun selector => (slot, m.append key selector)

/-- Like `access?`, with a reason for the refusal. -/
def tryAccess (m : StyleManager) (text : String) : Except StyleError (Slot × StyleManager) :=
  match m.access? text with
  | some found => .ok found
  | none => .error (.invalidSelector text)

/-- What an author gets to write to. -/
inductive Target where
  /-- The store of a declaration. -/
  | declared (slot : Slot)
  /-- A store that no node ever reads. -/
  | scratch
deriving DecidableEq, Repr

/-- Finds or creates the declaration that a text addresses. A text without a selector gives a scratch
store, or stops the author where the configuration says so. -/
def access (m : StyleManager) (text : String) : Except StyleError (Target × StyleManager) :=
  match m.access? text with
  | some (slot, after) => .ok (.declared slot, after)
  | none =>
    if m.config.assertOnInvalid then .error (.assertionFailed text) else .ok (.scratch, m)

/-! ## Changing declarations -/

/-- The manager, in need of a new look at every node. -/
def invalidate (m : StyleManager) : StyleManager := { m with valid := false }

/-- The manager with no change since now. -/
def markValid (m : StyleManager) : StyleManager := { m with valid := true }

/-- Marks the manager valid; the answer says whether it was valid before. -/
def swapValid (m : StyleManager) : Bool × StyleManager := (m.valid, m.markValid)

/-- Replaces the store in a slot. -/
def setStore (m : StyleManager) (slot : Slot) (store : Store) : StyleManager :=
  match slot with
  | .everywhere => { m with everywhere := m.everywhere.map fun d => { d with store := store } }
  | .keyed key =>
    { m with declarations := m.declarations.modify key fun d => { d with store := store } }

/-- Changes the store of the declaration in a slot. An edit that the store reports makes the manager
invalid. -/
def change (m : StyleManager) (slot : Slot) (c : StoreChange) : StyleManager :=
  match m.at? slot with
  | none => m
  | some d =>
    match c with
    | .edit e =>
      -- whether the edit fires is asked of the store as it was before
      let after := m.setStore slot (d.store.edit e)
      if d.store.reports e then after.invalidate else after
    | .unwatch => m.setStore slot d.store.unwatch

/-- Removes the declaration that a text addresses; the answer says whether there was one. -/
def removeStyle (m : StyleManager) (text : String) : Bool × StyleManager :=
  if (m.declaration? text).isNone then (false, m)
  else
    match slotOf text with
    | .everywhere => (true, { m with everywhere := none }.invalidate)
    | .keyed key => (true, { m with declarations := m.declarations.erase key }.invalidate)

/-- Removes every declaration; fonts and skins stay. -/
def clear (m : StyleManager) : StyleManager :=
  { m with declarations := [], everywhere := none }.invalidate

/-! ## Reading -/

/-- The declarations other than the one for every node, oldest first. -/
def listed (m : StyleManager) : List Declaration := m.declarations.map Prod.snd

/-- The number of declarations. -/
def declarationCount (m : StyleManager) : Nat :=
  m.declarations.length + if m.everywhere.isSome then 1 else 0

/-- How the manager matches selectors. -/
def matcher (m : StyleManager) : Matcher := ⟨m.config.depthFastPath⟩

/-- Computes the style of the first node of the lineage. -/
def computeStyle (m : StyleManager) (lineage : Lineage) (context : StyleContext) : Style :=
  StyledScene.computeStyle m.matcher m.everywhere m.listed lineage context

/-- The number of declarations, other than the one for every node, that match. -/
def matchCount (m : StyleManager) (lineage : Lineage) : Nat :=
  (matchingDeclarations m.matcher m.listed lineage).length

/-! ## Fonts and skins -/

/-- Registers a font under a name in any case. -/
def registerFont (m : StyleManager) (name : String) (font : Nat) : StyleManager :=
  { m with fonts := m.fonts.insert (Text.lowercase name) font }

/-- The font with a name. -/
def font? (m : StyleManager) (name : String) : Option Nat := m.fonts.find? (Text.lowercase name)

/-- The font that a style names. -/
def fontFor? (m : StyleManager) (s : Style) : Option Nat := m.font? (s.get .fontName)

/-- Registers a skin under a name in any case. -/
def registerSkin (m : StyleManager) (name : String) (skin : Skin) : StyleManager :=
  { m with skins := m.skins.insert (Text.lowercase name) skin }

/-- The skin with a name. -/
def skin? (m : StyleManager) (name : String) : Option Skin := m.skins.find? (Text.lowercase name)

/-- The skin that a style names. -/
def skinFor? (m : StyleManager) (s : Style) : Option Skin := m.skin? (s.get .skin)

/-! ## Diagnostics -/

/-- The text of a truth value. -/
def yesNo (b : Bool) : String := if b then "true" else "false"

/-- The one-line summary of a manager. -/
def diagnostic (m : StyleManager) : String :=
  "StyleManager \x7b config: StyleManagerConfig \x7b depth_fast_path: " ++
    yesNo m.config.depthFastPath ++ ", warn_on_invalid_selector: " ++
    yesNo m.config.warnOnInvalid ++ ", assert_on_invalid_selector: " ++
    yesNo m.config.assertOnInvalid ++ " \x7d, declarations: " ++
    toString m.declarationCount ++ ", fonts: " ++ toString m.fonts.length ++ ", skins: " ++
    toString m.skins.length ++ ", valid: " ++ yesNo m.valid ++ " \x7d"

end StyleManager

/-! ## Edits as data -/

/-- One thing that a host does to a manager. -/
inductive ManagerEdit where
  /-- Finds or creates the declaration that a text addresses. -/
  | access (text : String)
  /-- Changes the store of a declaration. -/
  | change (slot : Slot) (c : StoreChange)
  | removeStyle (text : String)
  | clear
  | invalidate
  | markValid
  | registerFont (name : String) (font : Nat)
  | registerSkin (name : String) (skin : Skin)

/-- The manager after an edit. -/
def StyleManager.after (m : StyleManager) : ManagerEdit → StyleManager
  | .access text => ((m.access? text).map Prod.snd).getD m
  | .change slot c => m.change slot c
  | .removeStyle text => (m.removeStyle text).2
  | .clear => m.clear
  | .invalidate => m.invalidate
  | .markValid => m.markValid
  | .registerFont name font => m.registerFont name font
  | .registerSkin name skin => m.registerSkin name skin

/-- The manager after a run of edits. -/
def StyleManager.run (m : StyleManager) (edits : List ManagerEdit) : StyleManager :=
  edits.foldl after m

end StyledScene
