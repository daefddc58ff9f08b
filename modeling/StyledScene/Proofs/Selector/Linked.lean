import StyledScene.Selector.Parse

/-!
# Linked chains

A selector kept as a chain of links. A link holds its compound, the number of links that it takes to
stand to its left, and the link to its left. The number is stored when the link is made and not counted
again, and nothing about the type makes it right.

The text is read from left to right. Words between blanks are cut at every `>`; a `>` marks the link
that was read last; a run is cut at its markers by a scan that remembers the marker it has passed.
`ChainLink.parse?_eq` shows that this gives the chain of the compounds that `Selector.parse?` finds, and
that every link stores the true number.
-/

namespace StyledScene

/-- A link of a chain, with everything to its left. -/
inductive ChainLink where
  /-- A link with nothing to its left. -/
  | leftmost (compound : Compound) (depth : Nat)
  /-- A link with another one to its left. -/
  | joined (compound : Compound) (depth : Nat) (next : ChainLink)
deriving DecidableEq

namespace ChainLink

/-! ## §1 Links -/

/-- The conditions of the link itself. -/
def compound : ChainLink → Compound
  | leftmost c _ => c
  | joined c _ _ => c

/-- The number of links to the left, as the link has stored it. -/
def depth : ChainLink → Nat
  | leftmost _ d => d
  | joined _ d _ => d

/-- The number of links from this one on, told by the stored number. -/
def length (l : ChainLink) : Nat := l.depth + 1

/-- The link to the left. -/
def next? : ChainLink → Option ChainLink
  | leftmost _ _ => none
  | joined _ _ next => some next

/-- The link, then the links to its left from right to left. -/
def links : ChainLink → List ChainLink
  | leftmost c d => [leftmost c d]
  | joined c d next => joined c d next :: next.links

/-- The link, as a direct-child condition. -/
def markDirect : ChainLink → ChainLink
  | leftmost c d => leftmost { c with directChild := true } d
  | joined c d next => joined { c with directChild := true } d next

/-- The chain of some compounds from right to left, in which every link stores the true number. -/
def ofCompounds (c : Compound) : List Compound → ChainLink
  | [] => leftmost c 0
  | next :: rest => joined c (rest.length + 1) (ofCompounds next rest)

/-- The chain of a selector. -/
def ofSelector (s : Selector) : ChainLink := ofCompounds s.subject s.left

/-! ## §2 Reading -/

/-- The stretches between blanks. -/
def words (cs : List Char) : List (List Char) :=
  (cs.splitOnP Text.isBlank).filter fun word => !word.isEmpty

/-- The tokens of a word: what stands before its first `>`, that sign, and the tokens of the rest. -/
def wordTokens (rest : List Char) : List SelectorToken :=
  match _h : rest.dropWhile (· != '>') with
  | [] => SelectorToken.push rest []
  | _ :: after => SelectorToken.push (rest.takeWhile (· != '>')) (.child :: wordTokens after)
termination_by rest.length
decreasing_by
  have hle := (List.dropWhile_suffix (l := rest) (· != '>')).length_le
  simp only [_h, List.length_cons] at hle
  omega

/-- The tokens of a text. -/
def tokens (cs : List Char) : List SelectorToken := (words cs).flatMap wordTokens

/-- Adds the condition of a piece to a compound; the piece before the first marker is a tag. -/
def flush (c : Compound) (marker : Option Marker) (piece : List Char) : Compound :=
  match marker with
  | some m => c.addPiece (m, piece)
  | none =>
    if piece = [] ∨ piece = ['*'] then c else { c with tag := some (String.ofList piece) }

/-- A run that is being cut at its markers. -/
structure Cutting where
  /-- What the pieces so far require. -/
  compound : Compound
  /-- The marker in front of the open piece, if there was one yet. -/
  marker : Option Marker
  /-- The open piece. -/
  piece : List Char

/-- What the run requires if it ends here. -/
def Cutting.close (s : Cutting) : Compound := flush s.compound s.marker s.piece

/-- Goes on by one character. -/
def Cutting.step (s : Cutting) (ch : Char) : Cutting :=
  match Marker.ofChar? ch with
  | some m => ⟨s.close, some m, []⟩
  | none => { s with piece := s.piece ++ [ch] }

/-- The compound that a run describes. -/
def compoundOf (run : List Char) : Compound :=
  (run.foldl Cutting.step ⟨Compound.universal, none, []⟩).close

/-- Extends a chain by the next token of the text. -/
def extend (current : Option ChainLink) : SelectorToken → Option ChainLink
  | .child => current.map markDirect
  | .run cs =>
    match current with
    | none => some (leftmost (compoundOf cs) 0)
    | some prev => some (joined (compoundOf cs) (prev.depth + 1) prev)

/-- Reads the chain of a text; there is none if the text has no run. -/
def parse? (text : String) : Option ChainLink :=
  (tokens (Text.lowerChars text.toList)).foldl extend none

/-! ## §3 The tokens are the same -/

/-- The tokens of a word after the run at its start. -/
def afterRun (word : List Char) : List SelectorToken :=
  match word.dropWhile (· != '>') with
  | [] => []
  | _ :: after => .child :: wordTokens after

@[simp] theorem afterRun_nil : afterRun [] = [] := rfl

@[simp] theorem afterRun_child (word : List Char) :
    afterRun ('>' :: word) = .child :: wordTokens word := by
  simp [afterRun]

theorem afterRun_cons {c : Char} (h : c ≠ '>') (word : List Char) :
    afterRun (c :: word) = afterRun word := by
  simp [afterRun, h]

theorem wordTokens_eq (word : List Char) :
    wordTokens word = SelectorToken.push (word.takeWhile (· != '>')) (afterRun word) := by
  rw [wordTokens, afterRun]
  split
  · rename_i hdrop
    have hwhole := List.takeWhile_append_dropWhile (p := (· != '>')) (l := word)
    rw [hdrop, List.append_nil] at hwhole
    rw [hdrop, hwhole]
  · rename_i hdrop
    rw [hdrop]

theorem wordTokens_nil : wordTokens [] = [] := by
  simp [wordTokens_eq, SelectorToken.push]

/-- Words without characters have no tokens, so it does not matter that they are left out. -/
theorem tokens_eq_flatMap (cs : List Char) :
    tokens cs = (cs.splitOnP Text.isBlank).flatMap wordTokens := by
  unfold tokens words
  induction cs.splitOnP Text.isBlank with
  | nil => rfl
  | cons word rest ih =>
    cases word with
    | nil => simpa [wordTokens_nil] using ih
    | cons c word => simpa using ih

theorem push_append (run : List Char) (tokens rest : List SelectorToken) :
    SelectorToken.push run (tokens ++ rest) = SelectorToken.push run tokens ++ rest := by
  unfold SelectorToken.push
  split <;> rfl

/-- The scan from the end of a text finds the run at the start of the first word, and the tokens of
all that follows. -/
theorem scan_eq {cs word : List Char} {rest : List (List Char)}
    (h : cs.splitOnP Text.isBlank = word :: rest) :
    SelectorToken.scan cs =
      (word.takeWhile (· != '>'), afterRun word ++ rest.flatMap wordTokens) := by
  induction cs generalizing word rest with
  | nil =>
    simp only [List.splitOnP_nil, List.cons.injEq] at h
    obtain ⟨rfl, rfl⟩ := h
    rfl
  | cons c cs ih =>
    obtain ⟨word', rest', hsplit⟩ :=
      List.exists_cons_of_ne_nil (List.splitOnP_ne_nil Text.isBlank cs)
    have hscan := ih hsplit
    rw [List.splitOnP_cons_eq_if_modifyHead, hsplit] at h
    by_cases hchild : c = '>'
    · -- the sign belongs to the first word and ends the run there
      subst hchild
      have hblank : Text.isBlank '>' = false := by decide
      simp only [hblank, Bool.false_eq_true, if_false, List.modifyHead_cons, List.cons.injEq] at h
      obtain ⟨rfl, rfl⟩ := h
      simp [SelectorToken.scan, hscan, push_append, wordTokens_eq]
    · by_cases hblank : Text.isBlank c = true
      · -- a blank starts a new word
        simp only [hblank, if_true, List.cons.injEq] at h
        obtain ⟨rfl, rfl⟩ := h
        simp [SelectorToken.scan, hchild, hblank, hscan, push_append, wordTokens_eq]
      · simp only [hblank, List.modifyHead_cons] at h
        obtain ⟨rfl, rfl⟩ := h
        simp [SelectorToken.scan, hchild, hblank, hscan, afterRun_cons]

/-- Reading words from left to right gives the tokens of a scan from the end. -/
theorem tokens_eq (cs : List Char) : tokens cs = SelectorToken.ofChars cs := by
  obtain ⟨word, rest, hsplit⟩ :=
    List.exists_cons_of_ne_nil (List.splitOnP_ne_nil Text.isBlank cs)
  simp [tokens_eq_flatMap, hsplit, SelectorToken.ofChars, scan_eq hsplit, push_append, wordTokens_eq]

/-! ## §4 The compounds are the same -/

theorem flush_tag (piece : List Char) :
    flush Compound.universal none piece =
      { Compound.universal with tag := Compound.tagOf piece } := by
  by_cases h : piece = [] ∨ piece = ['*'] <;> simp [flush, Compound.tagOf, h, Compound.universal]

/-- A cut that goes on through the rest of a run closes its open piece at the next marker, and then
adds the marked pieces of the rest. -/
theorem close_foldl_step (rest : List Char) (s : Cutting) :
    (rest.foldl Cutting.step s).close =
      (Compound.pieces rest).2.foldl Compound.addPiece
        (flush s.compound s.marker (s.piece ++ (Compound.pieces rest).1)) := by
  induction rest generalizing s with
  | nil => simp [Compound.pieces, Cutting.close]
  | cons c rest ih =>
    rw [List.foldl_cons, ih]
    cases hmarker : Marker.ofChar? c with
    | none => simp [Compound.pieces, Cutting.step, hmarker]
    | some m => simp [Compound.pieces, Cutting.step, Cutting.close, hmarker, flush]

theorem compoundOf_eq (run : List Char) : compoundOf run = Compound.ofRun run := by
  have hcut := close_foldl_step run ⟨Compound.universal, none, []⟩
  rw [List.nil_append, flush_tag] at hcut
  exact hcut

/-! ## §5 The chains are the same -/

@[simp] theorem depth_ofCompounds (c : Compound) (left : List Compound) :
    (ofCompounds c left).depth = left.length := by
  cases left <;> rfl

@[simp] theorem compound_ofCompounds (c : Compound) (left : List Compound) :
    (ofCompounds c left).compound = c := by
  cases left <;> rfl

theorem markDirect_ofCompounds (c : Compound) (left : List Compound) :
    (ofCompounds c left).markDirect = ofCompounds { c with directChild := true } left := by
  cases left <;> rfl

/-- A token extends the linked chain as it extends the list of compounds. -/
theorem extend_ofCompounds (chain : List Compound) (token : SelectorToken) :
    extend ((Selector.ofCompounds? chain).map ofSelector) token =
      (Selector.ofCompounds? (Selector.extend chain token)).map ofSelector := by
  cases chain with
  | nil => cases token <;> simp [extend, Selector.extend, Selector.ofCompounds?, ofSelector,
      ofCompounds, compoundOf_eq]
  | cons c left =>
    cases token with
    | child =>
      simp [extend, Selector.extend, Selector.ofCompounds?, ofSelector, markDirect_ofCompounds]
    | run cs =>
      simp [extend, Selector.extend, Selector.ofCompounds?, ofSelector, ofCompounds, compoundOf_eq]

theorem foldl_extend (tokens : List SelectorToken) (chain : List Compound) :
    tokens.foldl extend ((Selector.ofCompounds? chain).map ofSelector) =
      (Selector.ofCompounds? (tokens.foldl Selector.extend chain)).map ofSelector := by
  induction tokens generalizing chain with
  | nil => rfl
  | cons token rest ih => rw [List.foldl_cons, List.foldl_cons, extend_ofCompounds, ih]

/-- **The chain of a text.** Read link by link, a text gives the compounds of its selector, and every
link stores the number of links to its left. -/
theorem parse?_eq (text : String) : parse? text = (Selector.parse? text).map ofSelector := by
  rw [parse?, tokens_eq]
  exact foldl_extend _ []

end ChainLink

end StyledScene
