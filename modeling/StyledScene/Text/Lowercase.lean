import StyledScene.Text.CaseData

/-!
# Lower-casing

Full Unicode lower-casing of a text. Each character maps on its own, with one exception: a capital
sigma becomes the final sigma `ς` where a word ends and `σ` elsewhere. A word ends at a sigma when a
cased letter comes before it and none after it, not counting case-ignorable characters in between.
-/

namespace StyledScene.Text

/-! ## Single characters -/

/-- The run that covers a code point; the runs ascend, so the search stops at the first later one. -/
def findRun (n : Nat) : List CaseRun → Option CaseRun
  | [] => none
  | r :: rest => if n < r.first then none else if r.covers n then some r else findRun n rest

/-- The one-to-one lower-case mapping. -/
def smallForm (c : Char) : Char :=
  match findRun c.toNat caseRuns with
  | some r => Char.ofNat (r.lower c.toNat)
  | none => c

/-- The lower-case form of a character taken by itself; only the dotted capital I has two. -/
def lowerChar (c : Char) : List Char :=
  if c = '\u0130' then ['i', '\u0307'] else [smallForm c]

/-- Whether the character is a letter with case, of either case or in title case. -/
def isCased (c : Char) : Bool := inRanges c.toNat casedRanges

/-- Whether the character is looked through when a neighbouring letter's case is asked for. -/
def isCaseIgnorable (c : Char) : Bool := inRanges c.toNat caseIgnorableRanges

/-! ## Texts -/

/-- Whether the first character that is not case-ignorable is cased. -/
def reachesCased (cs : List Char) : Bool := ((cs.dropWhile isCaseIgnorable).head?).any isCased

/-- Lower-cases what follows `before`, which holds the characters already read, nearest first. -/
def lowerAfter (before : List Char) : List Char → List Char
  | [] => []
  | c :: after =>
    let low :=
      -- the context is the text as given, not as lower-cased so far
      if c = 'Σ' then [if reachesCased before && !reachesCased after then 'ς' else 'σ']
      else lowerChar c
    low ++ lowerAfter (c :: before) after

/-- The lower-case characters of a text given by its characters. -/
def lowerChars (cs : List Char) : List Char := lowerAfter [] cs

/-- The lower-case form of a text. -/
def lowercase (s : String) : String := String.ofList (lowerChars s.toList)

/-! ## First facts -/

@[simp] theorem lowerChars_nil : lowerChars [] = [] := rfl

@[simp] theorem lowercase_toList (s : String) : (lowercase s).toList = lowerChars s.toList := by
  simp [lowercase]

end StyledScene.Text
