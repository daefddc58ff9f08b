import StyledScene.Selector.Basic
import StyledScene.StyleError
import StyledScene.Text.Blank
import StyledScene.Text.Lowercase

/-!
# Reading selectors

The text is lower-cased and cut into runs, the maximal stretches without blanks and `>`; each run
becomes a compound, and a `>` between two runs makes the left one a direct-child condition. A run is
cut at `#`, `.` and `:`. Reading is lenient: a piece without a meaning contributes nothing, and only
a text without any run is refused.
-/

namespace StyledScene

/-! ## Tokens -/

/-- What a selector text consists of once blanks are gone. -/
inductive SelectorToken where
  /-- A maximal stretch of other characters. -/
  | run (cs : List Char)
  /-- The sign `>`. -/
  | child
deriving DecidableEq, Repr

namespace SelectorToken

/-- Puts a run in front of tokens, if it has characters. -/
def push (cs : List Char) (tokens : List SelectorToken) : List SelectorToken :=
  if cs.isEmpty then tokens else run cs :: tokens

/-- Reads a text from its end: the characters of the run that is still open at its start, and the
tokens after that run. -/
def scan : List Char → List Char × List SelectorToken
  | [] => ([], [])
  | c :: rest =>
    let (current, tokens) := scan rest
    -- a blank or a `>` closes the run that starts after it
    if c = '>' then ([], child :: push current tokens)
    else if Text.isBlank c then ([], push current tokens)
    else (c :: current, tokens)

/-- The tokens of a text, from left to right. -/
def ofChars (cs : List Char) : List SelectorToken :=
  let (current, tokens) := scan cs
  push current tokens

end SelectorToken

/-! ## Compounds -/

/-- The signs that start a piece of a run. -/
inductive Marker where
  | id
  | className
  | pseudo
deriving DecidableEq, Repr

/-- The meaning of a character as a marker. -/
def Marker.ofChar? : Char → Option Marker
  | '#' => some .id
  | '.' => some .className
  | ':' => some .pseudo
  | _ => none

namespace Compound

/-- Cuts a run at its markers: the piece before the first, and each marker with the piece after it. -/
def pieces : List Char → List Char × List (Marker × List Char)
  | [] => ([], [])
  | c :: rest =>
    let (first, marked) := pieces rest
    match Marker.ofChar? c with
    | some m => ([], (m, first) :: marked)
    | none => (c :: first, marked)

/-- The tag that the first piece of a run requires. -/
def tagOf (piece : List Char) : Option String :=
  if piece = [] ∨ piece = ['*'] then none else some (String.ofList piece)

/-- Adds the condition of a marked piece; a later id replaces an earlier one. -/
def addPiece (c : Compound) (piece : Marker × List Char) : Compound :=
  -- a marker with nothing after it has no meaning
  if piece.2 = [] then c else
  match piece.1 with
  | .id => { c with id := some (String.ofList piece.2) }
  | .className => { c with classes := insertName (String.ofList piece.2) c.classes }
  | .pseudo =>
    match PseudoState.ofName? (String.ofList piece.2) with
    | some p => { c with pseudo := c.pseudo.union (FlagSet.singleton p) }
    -- an unknown name is dropped; `unknownPseudos` tells of it
    | none => c

/-- The compound that a run describes. -/
def ofRun (cs : List Char) : Compound :=
  let (first, marked) := pieces cs
  marked.foldl addPiece { universal with tag := tagOf first }

/-- The names after a colon in a run that no pseudo-state has, from left to right. -/
def unknownPseudos (cs : List Char) : List String :=
  (pieces cs).2.filterMap fun piece =>
    let name := String.ofList piece.2
    if piece.1 = .pseudo ∧ piece.2 ≠ [] ∧ PseudoState.ofName? name = none then some name else none

end Compound

/-! ## Chains -/

namespace Selector

/-- Extends a chain, held from right to left, by the next token of the text. -/
def extend (chain : List Compound) : SelectorToken → List Compound
  | .run cs => Compound.ofRun cs :: chain
  | .child =>
    match chain with
    -- a `>` with nothing to its left has no meaning
    | [] => []
    | c :: rest => { c with directChild := true } :: rest

/-- The selector that the compounds of a chain form, if there is one. -/
def ofCompounds? : List Compound → Option Selector
  | [] => none
  | c :: rest => some ⟨c, rest⟩

/-- Reads a selector from lower-case characters. -/
def ofLowerChars? (cs : List Char) : Option Selector :=
  ofCompounds? ((SelectorToken.ofChars cs).foldl extend [])

/-- Reads a selector from characters of any case. -/
def ofChars? (cs : List Char) : Option Selector := ofLowerChars? (Text.lowerChars cs)

/-- Reads a selector from a text. -/
def parse? (text : String) : Option Selector := ofChars? text.toList

/-- Reads a selector, or reports the text as it was given. -/
def parse (text : String) : Except StyleError Selector :=
  match parse? text with
  | some s => .ok s
  | none => .error (.invalidSelector text)

/-- The names in a text that were meant as pseudo-states and are none, from left to right. -/
def unknownPseudos (text : String) : List String :=
  (SelectorToken.ofChars (Text.lowerChars text.toList)).flatMap fun
    | .run cs => Compound.unknownPseudos cs
    | .child => []

end Selector

end StyledScene
