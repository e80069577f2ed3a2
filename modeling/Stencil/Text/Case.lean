import Stencil.Text.Case.Table

/-!
# Upper and lower case

Case mappings of texts. The upper case of one character may be several characters. The lower case
of a capital sigma depends on its place: at the end of a word it is a final sigma.
-/

namespace Stencil.Text

/-- The character a run maps a code point to. -/
def CaseRun.target? (run : CaseRun) (n : Nat) : Option Char :=
  if run.first ≤ n ∧ n ≤ run.last ∧ (n - run.first) % run.step = 0 then
    some (Char.ofNat (n + run.offset).toNat)
  else none

/-- The upper case of a character. -/
def upperChar (c : Char) : List Char :=
  if c.toNat < 128 then [c.toUpper]
  else match upperExpansions.lookup c.toNat with
    | some expansion => expansion.map Char.ofNat
    | none => [(upperRuns.findSome? (·.target? c.toNat)).getD c]

/-- The lower case of a character on its own. -/
def lowerChar (c : Char) : List Char :=
  if c.toNat < 128 then [c.toLower]
  else if c = 'İ' then ['i', Char.ofNat 0x307]
  else [(lowerRuns.findSome? (·.target? c.toNat)).getD c]

/-- Whether a character is an upper or a lower case letter. -/
def isCaseLetter (c : Char) : Bool :=
  if c.toNat < 128 then c.isAlpha
  else inRanges casedRanges c.toNat && !inRanges titleRanges c.toNat

/-- Whether a character has case. -/
def isCased (c : Char) : Bool := inRanges casedRanges c.toNat

/-- Whether a character is passed over when the end of a word is looked for. -/
def isCaseIgnorable (c : Char) : Bool := inRanges caseIgnorableRanges c.toNat

/-- Whether the first character that is not passed over has case. -/
def startsCased (cs : List Char) : Bool :=
  match cs.dropWhile isCaseIgnorable with
  | c :: _ => isCased c
  | [] => false

/-- The lower case of the end of a text; `before` is what precedes it, the last character first. -/
def lowerFrom : (before : List Char) → List Char → List Char
  | _, [] => []
  | before, c :: cs =>
    let mapped :=
      if c = 'Σ' then (if startsCased before && !startsCased cs then ['ς'] else ['σ'])
      else lowerChar c
    mapped ++ lowerFrom (c :: before) cs

/-- In ASCII the lower case is that of the characters one by one. -/
theorem lowerFrom_of_ascii {cs : List Char} (h : ∀ c ∈ cs, c.toNat < 128) (before : List Char) :
    lowerFrom before cs = cs.map Char.toLower := by
  induction cs generalizing before with
  | nil => rfl
  | cons c cs ih =>
    rw [List.forall_mem_cons] at h
    have hsigma : ¬c = 'Σ' := by
      rintro rfl
      exact absurd h.1 (by decide)
    rw [lowerFrom, if_neg hsigma, lowerChar, if_pos h.1, ih h.2]
    rfl

/-- A text in lower case. -/
def lower (cs : List Char) : List Char := lowerFrom [] cs

/-- A text in upper case. -/
def upper (cs : List Char) : List Char := cs.flatMap upperChar

/-- A text whose first character is in upper case. -/
def capFirst : List Char → List Char
  | [] => []
  | c :: cs => upperChar c ++ cs

/-- A text whose first character is in upper case, the others in lower case one by one. -/
def capitalize : List Char → List Char
  | [] => []
  | c :: cs => upperChar c ++ cs.flatMap lowerChar

end Stencil.Text
