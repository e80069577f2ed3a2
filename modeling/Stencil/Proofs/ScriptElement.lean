import Stencil.Proofs.Escaping
import Stencil.Proofs.JsonText
import Stencil.Text.Html.Script

/-!
# Data inside script elements

A script element (`scriptElement`) writes the angle brackets and ampersands of JSON text by their
codes. In the compact text of a value they stand inside strings only, and there each of them is
written as it is, so that none follows an unfinished escape. The codes are thus read as what they
stand for, and everything else as before. What encloses the data is closed as well: the name of the
element is escaped, hence the first closing bracket ends the opening tag, and the first opening
bracket behind it begins the closing tag.
-/

namespace Stencil

namespace Text

/-! ## Characters of markup -/

/-- Whether a character of JSON text is written by its code. -/
def isMarkup (c : Char) : Bool := c == '<' || c == '>' || c == '&'

/-- JSON text as it stands in a script element. -/
def scriptData (json : List Char) : List Char := json.flatMap scriptChar

theorem isMarkup_iff {c : Char} : isMarkup c = true ↔ c = '<' ∨ c = '>' ∨ c = '&' := by
  simp [isMarkup, or_assoc]

/-- What is true of none of the three characters is true of other characters only. -/
theorem plain_of {P : Char → Prop} (hP : ¬P '<' ∧ ¬P '>' ∧ ¬P '&') {c : Char} (h : P c) :
    isMarkup c = false := by
  by_contra hmarkup
  rcases isMarkup_iff.1 (Bool.eq_true_of_not_eq_false hmarkup) with rfl | rfl | rfl
  · exact hP.1 h
  · exact hP.2.1 h
  · exact hP.2.2 h

@[simp] theorem scriptData_nil : scriptData [] = [] := rfl

theorem scriptData_cons (c : Char) (cs : List Char) :
    scriptData (c :: cs) = scriptChar c ++ scriptData cs := rfl

theorem scriptChar_of_plain {c : Char} (h : isMarkup c = false) : scriptChar c = [c] := by
  unfold scriptChar
  split
  · exact absurd h (by decide)
  · exact absurd h (by decide)
  · exact absurd h (by decide)
  · rfl

theorem scriptData_cons_of_plain {c : Char} (h : isMarkup c = false) (cs : List Char) :
    scriptData (c :: cs) = c :: scriptData cs := by
  rw [scriptData_cons, scriptChar_of_plain h, List.singleton_append]

theorem scriptData_append_of_plain {before : List Char} (h : ∀ c ∈ before, isMarkup c = false)
    (cs : List Char) : scriptData (before ++ cs) = before ++ scriptData cs := by
  induction before with
  | nil => rfl
  | cons b before ih =>
    rw [List.forall_mem_cons] at h
    rw [List.cons_append, scriptData_cons_of_plain h.1, ih h.2, List.cons_append]

/-- Data begin with the character of the text or with the backslash of a code. -/
theorem exists_scriptData_cons (c : Char) (cs : List Char) :
    ∃ d tail, scriptData (c :: cs) = d :: tail ∧ (d = c ∨ d = '\\') := by
  cases hmarkup : isMarkup c with
  | true => rcases isMarkup_iff.1 hmarkup with rfl | rfl | rfl <;> exact ⟨_, _, rfl, .inr rfl⟩
  | false => exact ⟨c, _, scriptData_cons_of_plain hmarkup cs, .inl rfl⟩

section Scan

variable {p : Char → Bool} (hslash : p '\\' = false)
  (hmarkup : ¬p '<' = true ∧ ¬p '>' = true ∧ ¬p '&' = true)
include hslash hmarkup

/-- A scan that stops at markup and at codes takes the same characters of the data, and leaves what
the data of the rest are. -/
theorem scan_scriptData (cs : List Char) :
    (scriptData cs).takeWhile p = cs.takeWhile p ∧
      (scriptData cs).dropWhile p = scriptData (cs.dropWhile p) := by
  induction cs with
  | nil => exact ⟨rfl, rfl⟩
  | cons c cs ih =>
    cases hc : p c with
    | true =>
      -- What the scan takes is no markup, so it is written as it is.
      rw [scriptData_cons_of_plain (plain_of (P := (p · = true)) hmarkup hc),
        List.takeWhile_cons_of_pos hc, List.takeWhile_cons_of_pos hc,
        List.dropWhile_cons_of_pos hc, List.dropWhile_cons_of_pos hc, ih.1]
      exact ⟨rfl, ih.2⟩
    | false =>
      obtain ⟨d, tail, htail, hd⟩ := exists_scriptData_cons c cs
      have hstops : ¬p d = true := by
        rcases hd with rfl | rfl
        · simp [hc]
        · simp [hslash]
      rw [List.takeWhile_cons_of_neg (by simp [hc]), List.dropWhile_cons_of_neg (by simp [hc]),
        htail, List.takeWhile_cons_of_neg hstops, List.dropWhile_cons_of_neg hstops]
      exact ⟨rfl, rfl⟩

end Scan

end Text

namespace Json

open Text

/-! ## Strings -/

theorem readString_markup {c : Char} (h : isMarkup c = true) (cs : List Char) :
    readString (scriptChar c ++ cs) = (readString cs).map fun (s, rest) => (c :: s, rest) := by
  rcases isMarkup_iff.1 h with rfl | rfl | rfl <;> rfl

/-- The escapes of a JSON string hold no markup. -/
theorem plain_of_mem_jsonChar {c x : Char} (hc : isMarkup c = false)
    (hx : x ∈ Value.jsonChar c) : isMarkup x = false := by
  rcases jsonChar_cases c with ⟨letter, hcode, hletter⟩ | ⟨hcontrol, hcode⟩ | ⟨-, -, hcode⟩
  · rw [hcode, List.mem_pair] at hx
    rcases hx with rfl | rfl
    · rfl
    · exact plain_of (P := (escapedChar? · = some c)) ⟨nofun, nofun, nofun⟩ hletter
  · have hall : ∀ n < 0x20, ['\\', 'u', '0', '0', Value.hexDigit (n / 16),
        Value.hexDigit (n % 16)].all (!isMarkup ·) = true := by decide
    rw [hcode] at hx
    simpa using List.all_eq_true.1 (hall c.toNat hcontrol) x hx
  · rw [hcode, List.mem_singleton] at hx
    rwa [hx]

/-- A character of a JSON string is read from its escape or from its code. -/
theorem readString_scriptData_jsonChar (c : Char) (cs : List Char) :
    readString (scriptData (Value.jsonChar c ++ cs)) =
      (readString (scriptData cs)).map fun (s, rest) => (c :: s, rest) := by
  cases hmarkup : isMarkup c with
  | true =>
    -- No backslash is written before markup, so its code stands by itself.
    have hself : Value.jsonChar c = [c] := by
      rcases isMarkup_iff.1 hmarkup with rfl | rfl | rfl <;> rfl
    rw [hself, List.singleton_append, scriptData_cons, readString_markup hmarkup]
  | false =>
    rw [scriptData_append_of_plain fun _ => plain_of_mem_jsonChar hmarkup, readString_jsonChar]

theorem readString_scriptData (s rest : List Char) :
    readString (scriptData (s.flatMap Value.jsonChar ++ '"' :: rest)) =
      some (s, scriptData rest) := by
  induction s with
  | nil => rfl
  | cons c s ih =>
    rw [List.flatMap_cons, List.append_assoc, readString_scriptData_jsonChar, ih]
    rfl

/-! ## Tokens -/

theorem plain_of_isOutside {c : Char} (h : isOutside c = true) : isMarkup c = false :=
  plain_of (P := (isOutside · = true)) (by decide) h

/-- What is made of strings and of characters outside them has the same tokens where it is the data
of a script element. -/
theorem tokens?_scriptData {json : List Char} (h : Segmented json) :
    tokens? (scriptData json) = tokens? json := by
  match json with
  | [] => rw [scriptData_nil]
  | c :: rest =>
    rcases h.cons_cases with ⟨houtside, hrest⟩ | ⟨rfl, s, after, hwritten, hafter⟩
    · rw [scriptData_cons_of_plain (plain_of_isOutside houtside)]
      by_cases hblank : isBlank c = true
      · rw [tokens?_blank hblank, tokens?_blank hblank, tokens?_scriptData hrest]
      · cases hmark : mark? c with
        | some token =>
          rw [tokens?_mark hblank hmark, tokens?_mark hblank hmark, tokens?_scriptData hrest]
        | none =>
          have hquote : ¬c = '"' := by
            rintro rfl
            exact absurd houtside (by decide)
          by_cases hnumber : (c.isDigit || c == '-') = true
          · have hshorter := (List.dropWhile_suffix isNumberChar (l := rest)).length_le
            obtain ⟨htake, hdrop⟩ := scan_scriptData (p := isNumberChar) rfl (by decide) rest
            rw [tokens?_number hblank hmark hquote hnumber,
              tokens?_number hblank hmark hquote hnumber, htake, hdrop,
              tokens?_scriptData (hrest.dropWhile (by decide))]
          · have hshorter := (List.dropWhile_suffix Char.isAlpha (l := rest)).length_le
            obtain ⟨htake, hdrop⟩ := scan_scriptData (p := Char.isAlpha) rfl (by decide) rest
            rw [tokens?_word hblank hmark hquote hnumber,
              tokens?_word hblank hmark hquote hnumber, htake, hdrop,
              tokens?_scriptData (hrest.dropWhile (by decide))]
    · have hshorter : after.length < rest.length := by
        rw [hwritten, List.length_append, List.length_cons]
        omega
      have hplain : isMarkup '"' = false := rfl
      rw [hwritten, scriptData_cons_of_plain hplain, tokens?_string (readString_scriptData s after),
        tokens?_string (readString_written s after), tokens?_scriptData hafter]
  termination_by json.length
  decreasing_by
    all_goals simp only [List.length_cons]
    all_goals omega

/-- So the compact text of a value is read as before. -/
theorem read?_scriptData_compact (v : Value) : read? (scriptData v.compact) = read? v.compact := by
  rw [read?, read?, tokens?_scriptData (Value.segmented_compact v)]

end Json

namespace Text

/-! ## Elements -/

theorem plain_of_mem_scriptData {json : List Char} {c : Char} (h : c ∈ scriptData json) :
    isMarkup c = false := by
  rw [scriptData, List.mem_flatMap] at h
  obtain ⟨x, -, hx⟩ := h
  cases hmarkup : isMarkup x with
  | true =>
    have hcode : (scriptChar x).all (!isMarkup ·) = true := by
      rcases isMarkup_iff.1 hmarkup with rfl | rfl | rfl <;> rfl
    simpa using List.all_eq_true.1 hcode c hx
  | false =>
    rw [scriptChar_of_plain hmarkup, List.mem_singleton] at hx
    rwa [hx]

/-- An escaped text ends neither the attribute that it stands in nor the tag. -/
theorem ne_of_mem_escape {cs : List Char} {c : Char} (h : c ∈ escape cs) :
    c ≠ '"' ∧ c ≠ '\'' ∧ c ≠ '<' ∧ c ≠ '>' := by
  have hne {d : Char} (hd : d ∈ specials) (hampersand : d ≠ '&') : c ≠ d := by
    rintro rfl
    exact hampersand (eq_of_mem_forceEscape h hd)
  exact ⟨hne (by decide) (by decide), hne (by decide) (by decide), hne (by decide) (by decide),
    hne (by decide) (by decide)⟩

/-- No value and no name breaks out of a script element. Between the tags there is no markup, and
what stands there is read as the compact text of the value is, so as the value itself if that is.
Between the quotes of the attribute stands the escaped name, in which there are neither quotes nor
brackets. -/
theorem scriptElement_closed (name : List Char) (v : Value) :
    ∃ idPart data,
      scriptElement name v.compact = "<script".toList ++ idPart ++
        " type=\"application/json\">".toList ++ data ++ "</script>".toList ∧
      (∀ c ∈ data, c ≠ '<' ∧ c ≠ '>' ∧ c ≠ '&') ∧
      Json.read? data = Json.read? v.compact ∧
      ((name = [] ∧ idPart = []) ∨
        (idPart = " id=\"".toList ++ escape name ++ ['"'] ∧
          ∀ c ∈ escape name, c ≠ '"' ∧ c ≠ '\'' ∧ c ≠ '<' ∧ c ≠ '>')) := by
  refine ⟨idAttribute name, scriptData v.compact, rfl, ?_, Json.read?_scriptData_compact v, ?_⟩
  · intro c hc
    have hplain : ¬isMarkup c = true := Bool.not_eq_true _ ▸ plain_of_mem_scriptData hc
    rw [isMarkup_iff, not_or, not_or] at hplain
    exact hplain
  · cases name with
    | nil => exact .inl ⟨rfl, rfl⟩
    | cons c cs => exact .inr ⟨rfl, fun _ => ne_of_mem_escape⟩

/-- A value and a name that both try to end the element. -/
theorem scriptElement_closed_hostile :
    let v : Value := .dict [("a&b", .list [.str "</script>\\<", .int (-5), .null])]
    Json.read? v.compact = some v ∧
      ∃ idPart data,
        scriptElement "x\"><".toList v.compact = "<script".toList ++ idPart ++
          " type=\"application/json\">".toList ++ data ++ "</script>".toList ∧
        Json.read? data = some v := by
  intro v
  have h : Json.read? v.compact = some v := by
    cbv
  obtain ⟨idPart, data, helement, -, hdata, -⟩ := scriptElement_closed "x\"><".toList v
  exact ⟨h, idPart, data, helement, hdata.trans h⟩

end Text

end Stencil
