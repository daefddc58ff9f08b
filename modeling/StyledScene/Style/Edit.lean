import StyledScene.Style.InheritTable

/-!
# Edits and watched stores

An author changes a style by edits. A store is a style that may be watched: a watched store reports
an edit when the edit fires. Merges always fire; every other edit fires exactly when it changes
something, and otherwise leaves the values as they are.
-/

namespace StyledScene

/-- One change that an author makes to a style. -/
inductive Edit where
  /-- Gives a property a value; a value that counts as the same is left alone. -/
  | set {c : Category} (k : Key c) (v : c.Value)
  /-- Takes the value of a property away. -/
  | remove {c : Category} (k : Key c)
  /-- Lays another style over this one. -/
  | overlay (other : Style)
  /-- Lays the listed values of another style over this one. -/
  | overlayInherited (other : Style) (table : InheritTable)
  /-- Takes values from another style where this one has none. -/
  | fillFrom (other : Style)
  /-- Takes every value away. -/
  | clear

namespace Edit

/-- Whether a property already has a value that counts as the given one. -/
def alreadySet (s : Style) {c : Category} (k : Key c) (v : c.Value) : Bool :=
  (s.get? k).any fun current => c.sameValue current v

/-- The style after the edit. -/
def apply (s : Style) : Edit → Style
  | set k v => if alreadySet s k v then s else s.put k (some v)
  | remove k => s.put k none
  | overlay other => s.overlay other
  | overlayInherited other table => s.overlayInherited other table
  | fillFrom other => s.fillFrom other
  | clear => Style.empty

/-- Whether the edit is reported by a watched store that holds the style. -/
def fires (s : Style) : Edit → Bool
  | set k v => !alreadySet s k v
  | remove k => s.has k
  -- these two are reported even if every value stays
  | overlay _ => true
  | overlayInherited _ _ => true
  | fillFrom other => Category.all.any fun c => (Key.all c).any fun k => other.has k && !s.has k
  | clear => !s.isEmpty

end Edit

/-- The style that a list of written values builds up, one after the other. -/
def Style.ofEdits (edits : List Edit) : Style := edits.foldl Edit.apply Style.empty

/-! ## Stores -/

/-- A style together with whether its changes are reported. -/
structure Store where
  style : Style
  watched : Bool

namespace Store

/-- An empty store. -/
def new (watched : Bool) : Store := ⟨Style.empty, watched⟩

/-- A store of its own with the values of a style; nobody watches it. -/
def ofStyle (s : Style) : Store := ⟨s, false⟩

/-- The store after an edit. -/
def edit (store : Store) (e : Edit) : Store := { store with style := e.apply store.style }

/-- Whether the store reports an edit that is about to be made. -/
def reports (store : Store) (e : Edit) : Bool := store.watched && e.fires store.style

/-- Starts to report, replacing whoever watched before. -/
def watch (store : Store) : Store := { store with watched := true }

/-- Stops reporting. -/
def unwatch (store : Store) : Store := { store with watched := false }

end Store

end StyledScene
