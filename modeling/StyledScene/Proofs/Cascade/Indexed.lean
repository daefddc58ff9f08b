import StyledScene.Cascade.Manager

/-!
# Indexed managers

A manager that keeps its declarations in a plain list, with an index of their positions beside it. A
text is looked up in the index and the position leads to the declaration; whoever takes a declaration
out of the list has to correct every later position in the index. Nothing about the two rules out an
index that leads beyond the list or to another declaration than the one meant, and a position beyond the
list stops whoever follows it.

`IndexedManager.after` makes the same changes as `StyleManager.run`; that the two agree, and so that no
position is ever wrong, is shown in the module that builds on this one.
-/

namespace StyledScene

open StyleManager (keyOf everywhereKey)

/-- Declarations in a list, with an index of their positions. -/
structure IndexedManager where
  config : ManagerConfig
  /-- The declarations other than the one for every node, oldest first. -/
  listed : List Declaration
  /-- The position of the declaration under a key. -/
  index : Registry Nat
  /-- The declaration that applies to every node. -/
  everywhere : Option Declaration
  /-- The number of the next declaration. -/
  nextOrder : Nat
  /-- The store for texts without a selector; no node ever reads it. -/
  scratch : Store
  fonts : Registry Nat
  skins : Registry Skin
  valid : Bool

/-- Where an indexed manager keeps a declaration. -/
inductive Place where
  /-- Apart from the list, for every node. -/
  | everywhere
  /-- In the list. -/
  | position (p : Nat)
deriving DecidableEq, Repr

/-- The store that an author may write to. -/
inductive Handle where
  /-- The store of a declaration. -/
  | kept (place : Place)
  | scratch
deriving DecidableEq, Repr

/-- Takes a position out of an index: later ones move up by one. -/
def Registry.closeGap (index : Registry Nat) (gap : Nat) : Registry Nat :=
  index.map fun entry => if gap < entry.2 then (entry.1, entry.2 - 1) else entry

namespace IndexedManager

/-- A manager without declarations. -/
def new (config : ManagerConfig) : IndexedManager :=
  ⟨config, [], [], none, 0, Store.new false, [], [], false⟩

/-- The number of declarations. -/
def declarationCount (m : IndexedManager) : Nat :=
  m.listed.length + if m.everywhere.isSome then 1 else 0

/-- The manager, in need of a new look at every node. -/
def invalidate (m : IndexedManager) : IndexedManager := { m with valid := false }

/-! ## §1 Asking for a store -/

/-- Adds a declaration at the end of the list. -/
def push (m : IndexedManager) (key : String) (selector : Selector) : IndexedManager :=
  { m with
    listed := m.listed ++ [Declaration.new selector m.nextOrder true]
    index := m.index.insert key m.listed.length
    nextOrder := m.nextOrder + 1 }

/-- Finds or makes the place that a text addresses; none if the text has no selector. -/
def ensure (m : IndexedManager) (text : String) : Option Place × IndexedManager :=
  let key := keyOf text
  if key = everywhereKey then (some .everywhere, m)
  else
    match m.index.find? key with
    | some p => (some (.position p), m)
    | none =>
      match Selector.parse? key with
      | none => (none, m)
      | some selector => (some (.position m.listed.length), m.push key selector)

theorem ensure_keyed (m : IndexedManager) {text : String} (hne : keyOf text ≠ everywhereKey) :
    m.ensure text =
      match m.index.find? (keyOf text) with
      | some p => (some (.position p), m)
      | none =>
        match Selector.parse? (keyOf text) with
        | none => (none, m)
        | some selector => (some (.position m.listed.length), m.push (keyOf text) selector) := by
  rw [ensure, if_neg hne]

/-- Goes to a place. The declaration for every node is made when somebody first goes there; a position
beyond the list has no result. -/
def goTo (m : IndexedManager) : Place → Option IndexedManager
  | .everywhere =>
    match m.everywhere with
    | some _ => some m
    | none => some { m with everywhere := some (Declaration.new Selector.universal 0 true) }
  | .position p => if p < m.listed.length then some m else none

/-- The store that a text addresses. A text without a selector gives the scratch store, emptied, or
stops the author where the configuration says so. -/
def style (m : IndexedManager) (text : String) :
    Option (Except StyleError Handle × IndexedManager) :=
  match m.ensure text with
  | (some place, found) => (found.goTo place).map fun there => (.ok (.kept place), there)
  | (none, same) =>
    if same.config.assertOnInvalid then some (.error (.assertionFailed text), same)
    else some (.ok .scratch, { same with scratch := Store.new false })

/-- Like `style`, with a reason for the refusal. -/
def tryStyle (m : IndexedManager) (text : String) :
    Option (Except StyleError Handle × IndexedManager) :=
  match m.ensure text with
  | (some place, found) => (found.goTo place).map fun there => (.ok (.kept place), there)
  | (none, same) => some (.error (.invalidSelector text), same)

/-- The declaration that a text addresses, if there is one. -/
def declaration (m : IndexedManager) (text : String) : Option (Option Declaration) :=
  let key := keyOf text
  if key = everywhereKey then some m.everywhere
  else
    match m.index.find? key with
    | none => some none
    | some p => m.listed[p]?.map some

theorem declaration_keyed (m : IndexedManager) {text : String} (hne : keyOf text ≠ everywhereKey) :
    m.declaration text =
      match m.index.find? (keyOf text) with
      | none => some none
      | some p => m.listed[p]?.map some := by
  rw [declaration, if_neg hne]

/-! ## §2 Writing to a store -/

/-- The store behind a handle. -/
def store? (m : IndexedManager) : Handle → Option Store
  | .kept .everywhere => m.everywhere.map Declaration.store
  | .kept (.position p) => m.listed[p]?.map Declaration.store
  | .scratch => some m.scratch

/-- Replaces the store behind a handle. -/
def putStore (m : IndexedManager) (handle : Handle) (store : Store) : IndexedManager :=
  match handle with
  | .kept .everywhere => { m with everywhere := m.everywhere.map fun d => { d with store := store } }
  | .kept (.position p) => { m with listed := m.listed.modify p fun d => { d with store := store } }
  | .scratch => { m with scratch := store }

/-- Changes the store behind a handle. An edit that the store reports makes the manager invalid. -/
def write (m : IndexedManager) (handle : Handle) (c : StoreChange) : Option IndexedManager :=
  match m.store? handle with
  | none => none
  | some store =>
    match c with
    | .edit e =>
      let after := m.putStore handle (store.edit e)
      some (if store.reports e then after.invalidate else after)
    | .unwatch => some (m.putStore handle store.unwatch)

/-- Changes the store behind a handle several times. -/
def writeAll (m : IndexedManager) (handle : Handle) (changes : List StoreChange) :
    Option IndexedManager :=
  changes.foldlM (fun current c => current.write handle c) m

/-! ## §3 Removing declarations -/

/-- Removes the declaration that a text addresses; the answer says whether there was one. -/
def removeStyle (m : IndexedManager) (text : String) : Option (Bool × IndexedManager) :=
  let key := keyOf text
  if key = everywhereKey then
    if m.everywhere.isSome then some (true, { m with everywhere := none }.invalidate)
    else some (false, m)
  else
    match m.index.find? key with
    | none => some (false, m)
    | some p =>
      if p < m.listed.length then
        some (true,
          { m with
            index := (m.index.erase key).closeGap p
            listed := m.listed.eraseIdx p }.invalidate)
      else none

theorem removeStyle_everywhere (m : IndexedManager) {text : String}
    (hkey : keyOf text = everywhereKey) :
    m.removeStyle text =
      if m.everywhere.isSome then some (true, { m with everywhere := none }.invalidate)
      else some (false, m) := by
  rw [removeStyle, if_pos hkey]

theorem removeStyle_keyed (m : IndexedManager) {text : String} (hne : keyOf text ≠ everywhereKey) :
    m.removeStyle text =
      match m.index.find? (keyOf text) with
      | none => some (false, m)
      | some p =>
        if p < m.listed.length then
          some (true,
            { m with
              index := (m.index.erase (keyOf text)).closeGap p
              listed := m.listed.eraseIdx p }.invalidate)
        else none := by
  rw [removeStyle, if_neg hne]

/-- Removes every declaration; fonts and skins stay. -/
def clear (m : IndexedManager) : IndexedManager :=
  { m with listed := [], index := [], everywhere := none }.invalidate

end IndexedManager

/-! ## §4 Runs -/

/-- What an author calls. -/
inductive ManagerCall where
  /-- Asks for a store and writes to it. -/
  | style (text : String) (changes : List StoreChange)
  /-- Asks for a store, prepared for a refusal, and writes to it. -/
  | tryStyle (text : String) (changes : List StoreChange)
  | lookUp (text : String)
  | removeStyle (text : String)
  | clear
  | invalidate
  | markValid
  | registerFont (name : String) (font : Nat)
  | registerSkin (name : String) (skin : Skin)

namespace IndexedManager

/-- Writes to the store that was asked for; who was refused writes nothing. -/
def writeTo (changes : List StoreChange) :
    Except StyleError Handle × IndexedManager → Option IndexedManager
  | (.ok handle, m) => m.writeAll handle changes
  | (.error _, m) => some m

/-- The manager after a call; none if the call follows a position beyond the list. -/
def after (m : IndexedManager) : ManagerCall → Option IndexedManager
  | .style text changes => (m.style text).bind (writeTo changes)
  | .tryStyle text changes => (m.tryStyle text).bind (writeTo changes)
  | .lookUp text => (m.declaration text).map fun _ => m
  | .removeStyle text => (m.removeStyle text).map Prod.snd
  | .clear => some m.clear
  | .invalidate => some m.invalidate
  | .markValid => some { m with valid := true }
  | .registerFont name font =>
    some { m with fonts := m.fonts.insert (Text.lowercase name) font }
  | .registerSkin name skin =>
    some { m with skins := m.skins.insert (Text.lowercase name) skin }

/-- The manager after a run of calls. -/
def run (m : IndexedManager) (calls : List ManagerCall) : Option IndexedManager :=
  calls.foldlM after m

end IndexedManager

end StyledScene
