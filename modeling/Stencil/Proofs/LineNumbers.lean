import Stencil.Proofs.Arguments
import Stencil.Proofs.Halting
import Stencil.Proofs.IntegerArithmetic
import Stencil.Proofs.NumberWidth

/-!
# Numbered lines

The column that the texts of numbered lines start in is worked out from the last number
(`lineNumbersValue`). A number that is wider than the last one uses up blanks of its gap, or all of
them. Numbers get wider on the way up from zero, so this happens to negative numbers only, whose
sign and digits get lost on the way up.

The number is moved on once more behind the last line, so the run halts already if the number after
the next one is beyond 64 bits.
-/

namespace Stencil

open Condition (fits_iff)

/-! ## Numbers read from values -/

theorem Double.fits_toInt (x : Float) : fits (toInt x) = true := by
  have hbounds : minInt ≤ 0 ∧ 0 ≤ maxInt ∧ minInt ≤ maxInt := by decide
  rw [fits, Bool.and_eq_true, decide_eq_true_iff, decide_eq_true_iff]
  unfold toInt
  split
  · exact ⟨hbounds.1, hbounds.2.1⟩
  · split_ifs
    · exact ⟨le_rfl, hbounds.2.2⟩
    · exact ⟨hbounds.2.2, le_rfl⟩
  · omega

theorem Double.fits_of_readInt? {cs : List Char} {n : Int} (h : readInt? cs = some n) :
    fits n = true := by
  simp only [readInt?] at h
  split at h
  · rw [Option.ite_none_right_eq_some] at h
    obtain ⟨hfits, hsome⟩ := h
    rwa [← Option.some_inj.1 hsome]
  · cases h

/-- Whatever reads as an integer reads as one of 64 bits. -/
theorem Value.fits_of_toInt? {v : Value} {n : Int} (h : v.toInt? = some n) :
    Double.fits n = true := by
  cases v with
  | int m =>
    obtain rfl := Option.some_inj.1 h
    rw [fits_iff]
    simp only [clampInt, Double.minInt, Double.maxInt]
    omega
  | float x =>
    obtain rfl := Option.some_inj.1 h
    exact Double.fits_toInt x
  | str t =>
    simp only [toInt?] at h
    cases hread : Double.readInt? (Text.trim t.toList) with
    | none =>
      rw [hread] at h
      obtain ⟨x, -, rfl⟩ := Option.map_eq_some_iff.1 h
      exact Double.fits_toInt x
    | some m =>
      rw [hread] at h
      obtain rfl := Option.some_inj.1 h
      exact Double.fits_of_readInt? hread
  | bool b =>
    obtain rfl := Option.some_inj.1 h
    cases b <;> rfl
  | null | list | dict => cases h

namespace Filter

/-! ## Lines with numbers -/

/-- A line of text with its number. -/
structure NumberedLine where
  number : Int
  symbol : List Char
  /-- How many blanks stand between the symbol and the text. -/
  blanks : Nat
  text : List Char

namespace NumberedLine

/-- The line as it is written, with a line break behind it. -/
def print (line : NumberedLine) : List Char :=
  Double.intDigits line.number ++ line.symbol ++ List.replicate line.blanks ' ' ++ line.text ++
    ['\n']

/-- The column in which the text starts. -/
def column (line : NumberedLine) : Nat :=
  (Double.intDigits line.number ++ line.symbol).length + line.blanks

end NumberedLine

/-- Lines are aligned if all texts start in one column, behind a gap of some blanks at least. -/
structure Aligned (gap : Nat) (lines : List NumberedLine) : Prop where
  gap_le : ∀ line ∈ lines, gap ≤ line.blanks
  column_eq : ∀ line ∈ lines, ∀ other ∈ lines, line.column = other.column

/-! ## The lines that are written -/

/-- Lines numbered from a start on, with blanks up to a column. -/
def numberedLines (start : Int) (symbol : List Char) (column : Nat) (texts : List (List Char)) :
    List NumberedLine :=
  texts.mapIdx fun k text =>
    let number := start + k
    ⟨number, symbol, column - (Double.intDigits number ++ symbol).length, text⟩

theorem numberedLines_cons (start : Int) (symbol : List Char) (column : Nat) (text : List Char)
    (texts : List (List Char)) :
    numberedLines start symbol column (text :: texts) =
      ⟨start, symbol, column - (Double.intDigits start ++ symbol).length, text⟩ ::
        numberedLines (start + 1) symbol column texts := by
  have hnumber (k : Nat) : start + 1 + k = start + (k + 1 : Nat) := by omega
  simp only [numberedLines, List.mapIdx_cons, hnumber, Nat.cast_zero, add_zero]

theorem value_numberLines (start : Int) (symbol : List Char) (column : Nat)
    (texts : List (List Char)) :
    (numberLines symbol column start texts).value =
      (numberedLines start symbol column texts).flatMap NumberedLine.print := by
  induction texts generalizing start with
  | nil => rfl
  | cons text texts ih =>
    rw [numberedLines_cons, List.flatMap_cons, numberLines]
    simp [ih, NumberedLine.print]

/-- Numbering lines halts the run if the number behind the last line is the last of 64 bits or
beyond. -/
theorem halts_numberLines {start : Int} (hstart : Double.fits start = true) (symbol : List Char)
    (column : Nat) (texts : List (List Char)) :
    (numberLines symbol column start texts).halts = true ↔ 2 ^ 63 ≤ start + texts.length + 1 := by
  have hrange := fits_iff.1 hstart
  induction texts generalizing start with
  | nil =>
    rw [numberLines, List.length_nil]
    simp [← Bool.not_eq_true, fits_iff]
    omega
  | cons text texts ih =>
    rw [numberLines, List.length_cons]
    by_cases hnext : Double.fits (start + 1) = true
    · have htail := ih hnext (fits_iff.1 hnext)
      simp [hnext, htail]
      omega
    · rw [fits_iff] at hnext
      simp [← Bool.not_eq_true, fits_iff]
      omega

theorem map_text_numberedLines (start : Int) (symbol : List Char) (column : Nat)
    (texts : List (List Char)) :
    (numberedLines start symbol column texts).map NumberedLine.text = texts := by
  rw [numberedLines, List.mapIdx_eq_zipIdx_map, List.map_map]
  exact List.zipIdx_map_fst 0 texts

/-- What stands in one of the lines. -/
theorem line_of_getElem? {start : Int} {symbol : List Char} {column : Nat}
    {texts : List (List Char)} {k : Nat} {line : NumberedLine}
    (h : (numberedLines start symbol column texts)[k]? = some line) :
    k < texts.length ∧ line.number = start + k ∧ line.symbol = symbol ∧
      line.blanks = column - (Double.width line.number + symbol.length) := by
  rw [numberedLines, List.getElem?_mapIdx] at h
  obtain ⟨text, htext, rfl⟩ := Option.map_eq_some_iff.1 h
  refine ⟨(List.getElem?_eq_some_iff.1 htext).1, rfl, rfl, ?_⟩
  rw [Double.width, ← List.length_append]

theorem exists_line {start : Int} {symbol : List Char} {column : Nat} {texts : List (List Char)}
    {k : Nat} (hk : k < texts.length) :
    ∃ line, (numberedLines start symbol column texts)[k]? = some line := by
  rw [numberedLines, List.getElem?_mapIdx, List.getElem?_eq_getElem hk]
  exact ⟨_, rfl⟩

theorem value_clampWidth (filter : String) (n : Nat) :
    (clampWidth filter n).value = min n maxWidth := by
  rw [clampWidth]
  split_ifs with hwide
  · exact (min_eq_right hwide.le).symm
  · exact (min_eq_left (not_lt.1 hwide)).symm

/-- The gap that an argument asks for, cut to the bound. -/
def gapWidth (gap : Value) : Nat :=
  match gap.toInt? with
  | some g => if g < 0 then 1 else min g.toNat maxWidth
  | none => 1

theorem gapWidth_le (gap : Value) : gapWidth gap ≤ maxWidth := by
  have hone : 1 ≤ maxWidth := by decide
  unfold gapWidth
  split
  · split_ifs
    · exact hone
    · exact min_le_right _ _
  · exact hone

theorem gapWidth_of_toInt? {gap : Value} {g : Nat} (hgap : gap.toInt? = some (g : Int))
    (hg : g ≤ maxWidth) : gapWidth gap = g := by
  simp only [gapWidth, hgap, if_neg (Int.natCast_nonneg g).not_gt, Int.toNat_natCast]
  exact min_eq_left hg

/-- The last of some line numbers; an integer beyond 64 bits goes to the nearest bound. -/
def lastNumber (start : Int) (count : Nat) : Int := Value.clampInt (start + count - 1)

theorem fits_lastNumber (start : Int) (count : Nat) :
    Double.fits (lastNumber start count) = true :=
  Value.fits_of_toInt? (rfl : (Value.int (start + count - 1)).toInt? = some _)

theorem lastNumber_eq {start : Int} {count : Nat} (hstart : Double.fits start = true)
    (hcount : 0 < count) (hlast : start + count ≤ 2 ^ 63) :
    lastNumber start count = start + count - 1 := by
  rw [fits_iff] at hstart
  simp only [lastNumber, Value.clampInt, Double.minInt, Double.maxInt]
  omega

theorem value_lineGap (gap : Value) : (lineGap gap).value = gapWidth gap := by
  unfold lineGap gapWidth
  cases gap.toInt? with
  | none => rfl
  | some g =>
    dsimp only
    split_ifs
    · rfl
    · exact value_clampWidth _ _

section Written

variable {value start gap symbol : Value} {given : List Value} {texts : List (List Char)}
  (htexts : linesOf? value = some texts)
  (hgiven : (lineNumbers.resolveArguments given).value = [start, gap, symbol])

include htexts hgiven

/-- The column of the texts is that of the last number with a gap behind it. -/
theorem value_lineNumbers (s : Surroundings) :
    let first := (start.toInt?).getD 1
    let mark := symbol.displayChars
    let column := Double.width (lastNumber first texts.length) + mark.length + gapWidth gap
    (lineNumbers.apply s value given).value = .str (String.ofList
      ((numberedLines first mark column texts).flatMap NumberedLine.print)) := by
  rw [value_apply, hgiven]
  show (lineNumbersValue value start gap symbol).value = _
  simp only [lineNumbersValue, htexts, Logged.value_bind, Logged.value_pure, value_lineGap,
    value_numberLines]
  rfl

/-- The run halts if the number behind the last line is the last of 64 bits or beyond. -/
theorem halts_lineNumbers (s : Surroundings) {first : Int} (hstart : start.toInt? = some first) :
    (lineNumbers.apply s value given).halts = true ↔ 2 ^ 63 ≤ first + texts.length + 1 := by
  rw [halts_apply, hgiven]
  show (lineNumbersValue value start gap symbol).halts = true ↔ _
  simp only [lineNumbersValue, htexts, Logged.halts_bind, Logged.halts_pure,
    (plain_lineGap gap).halts_eq, hstart, Option.getD_some, Bool.false_or, Bool.or_false]
  exact halts_numberLines (Value.fits_of_toInt? hstart) _ _ _

/-- Where the run goes on, the last number fits, so the column is worked out from that. -/
theorem outcome?_lineNumbers (s : Surroundings) {first : Int} (hstart : start.toInt? = some first) :
    let mark := symbol.displayChars
    let column := Double.width (first + texts.length - 1) + mark.length + gapWidth gap
    (lineNumbers.apply s value given).outcome? =
      if first + texts.length + 1 < 2 ^ 63 then
        some (.str (String.ofList
          ((numberedLines first mark column texts).flatMap NumberedLine.print)))
      else none := by
  intro mark column
  have hvalue := value_lineNumbers htexts hgiven s
  have hhalts := halts_lineNumbers htexts hgiven s hstart
  simp only [hstart, Option.getD_some] at hvalue
  split_ifs with hfit
  · rw [Logged.outcome?_eq_some_iff, hvalue, ← Bool.not_eq_true, hhalts]
    refine ⟨not_le.2 hfit, ?_⟩
    rcases eq_or_ne texts [] with rfl | hne
    · rfl
    · rw [lastNumber_eq (Value.fits_of_toInt? hstart) (List.length_pos_iff.2 hne) (by omega)]
  · rw [Logged.outcome?_eq_none_iff, hhalts]
    exact not_lt.1 hfit

end Written

/-! ## Alignment -/

/-- A text starts in the column that was asked for, or right behind a number that reaches farther.
-/
theorem column_of_getElem? {start : Int} {symbol : List Char} {column : Nat}
    {texts : List (List Char)} {k : Nat} {line : NumberedLine}
    (h : (numberedLines start symbol column texts)[k]? = some line) :
    line.column = max column (Double.width line.number + symbol.length) := by
  obtain ⟨-, -, hsymbol, hblanks⟩ := line_of_getElem? h
  rw [NumberedLine.column, List.length_append, ← Double.width, hsymbol, hblanks]
  omega

section Alignment

variable {first : Int} {symbol : List Char} {texts : List (List Char)} (gap : Nat)

/-- Lines whose first number is no wider than the last are aligned, for no number is wider. -/
theorem aligned_of_width_le
    (hwidth : Double.width first ≤ Double.width (first + texts.length - 1)) :
    Aligned gap (numberedLines first symbol
      (Double.width (first + texts.length - 1) + symbol.length + gap) texts) := by
  obtain ⟨last, hlastNumber⟩ : ∃ last, last = first + texts.length - 1 := ⟨_, rfl⟩
  rw [← hlastNumber] at hwidth ⊢
  have hnarrow {k : Nat} {line : NumberedLine} (h : (numberedLines first symbol
      (Double.width last + symbol.length + gap) texts)[k]? = some line) :
      Double.width line.number ≤ Double.width last := by
    obtain ⟨hk, hnumber, -, -⟩ := line_of_getElem? h
    rw [hnumber, ← max_eq_right hwidth]
    exact Double.width_le_max (by omega) (by omega)
  constructor
  · intro line hline
    obtain ⟨k, hk⟩ := List.getElem?_of_mem hline
    have hle := hnarrow hk
    obtain ⟨-, -, -, hblanks⟩ := line_of_getElem? hk
    omega
  · intro line hline other hother
    obtain ⟨k, hk⟩ := List.getElem?_of_mem hline
    obtain ⟨l, hl⟩ := List.getElem?_of_mem hother
    have hle := hnarrow hk
    have hle' := hnarrow hl
    rw [column_of_getElem? hk, column_of_getElem? hl]
    omega

/-- In aligned lines the first number is no wider than the last: its gap would be too narrow, or its
text too far to the right. -/
theorem width_le_of_aligned (hne : texts ≠ [])
    (haligned : Aligned gap (numberedLines first symbol
      (Double.width (first + texts.length - 1) + symbol.length + gap) texts)) :
    Double.width first ≤ Double.width (first + texts.length - 1) := by
  have hpos : 0 < texts.length := List.length_pos_iff.2 hne
  have hend : texts.length - 1 < texts.length := Nat.sub_one_lt_of_lt hpos
  obtain ⟨top, htop⟩ := exists_line hpos
  obtain ⟨bottom, hbottom⟩ := exists_line hend
  have hgap := haligned.gap_le top (List.mem_of_getElem? htop)
  have hcolumn := haligned.column_eq top (List.mem_of_getElem? htop) bottom
    (List.mem_of_getElem? hbottom)
  obtain ⟨-, htopNumber, -, hblanks⟩ := line_of_getElem? htop
  obtain ⟨-, hbottomNumber, -, -⟩ := line_of_getElem? hbottom
  rw [Nat.cast_zero, add_zero] at htopNumber
  rw [Nat.cast_sub hpos, Nat.cast_one, ← add_sub_assoc] at hbottomNumber
  rw [htopNumber] at hblanks
  rw [column_of_getElem? htop, column_of_getElem? hbottom, htopNumber, hbottomNumber] at hcolumn
  omega

end Alignment

/-- Numbered lines are, in order, a number counted up from the start, the symbol, blanks and the
text of the line. They are aligned behind the gap unless the last number is narrower than the first,
which takes a negative start. They are written if the number behind the last line is less than the
greatest one of 64 bits; else the run halts. -/
theorem lines_aligned_unless_last_narrower (s : Surroundings)
    {value start gap symbol : Value} {given : List Value} {texts : List (List Char)}
    (htexts : linesOf? value = some texts)
    (hgiven : (lineNumbers.resolveArguments given).value = [start, gap, symbol])
    {first : Int} (hstart : start.toInt? = some first)
    {g : Nat} (hgap : gap.toInt? = some (g : Int)) (hg : g ≤ 4096) :
    let last := first + texts.length - 1
    ∃ lines : List NumberedLine,
      (lineNumbers.apply s value given).outcome? =
          (if first + texts.length + 1 < 2 ^ 63 then
            some (.str (String.ofList (lines.flatMap NumberedLine.print))) else none) ∧
        lines.map NumberedLine.text = texts ∧
        (∀ (k : Nat) (line : NumberedLine), lines[k]? = some line →
          line.number = first + k ∧ line.symbol = symbol.displayChars ∧
            line.blanks = Double.width last + g - Double.width line.number) ∧
        (Aligned g lines ↔ texts = [] ∨ Double.width first ≤ Double.width last) ∧
        (0 ≤ first → Aligned g lines) := by
  intro last
  have hlines := outcome?_lineNumbers htexts hgiven s hstart
  simp only [gapWidth_of_toInt? hgap hg] at hlines
  have haligned : Aligned g (numberedLines first symbol.displayChars
      (Double.width last + symbol.displayChars.length + g) texts) ↔
        texts = [] ∨ Double.width first ≤ Double.width last := by
    constructor
    · intro h
      rw [or_iff_not_imp_left]
      exact fun hne => width_le_of_aligned g hne h
    · rintro (rfl | hwidth)
      · exact ⟨by simp [numberedLines], by simp [numberedLines]⟩
      · exact aligned_of_width_le g hwidth
  refine ⟨numberedLines first symbol.displayChars
    (Double.width last + symbol.displayChars.length + g) texts, hlines,
    map_text_numberedLines _ _ _ _, ?_, haligned, ?_⟩
  · intro k line hk
    obtain ⟨-, hnumber, hsymbol, hblanks⟩ := line_of_getElem? hk
    refine ⟨hnumber, hsymbol, ?_⟩
    omega
  · intro hnonneg
    rw [haligned, or_iff_not_imp_left]
    intro hne
    have hpos : 0 < texts.length := List.length_pos_iff.2 hne
    exact Double.width_mono hnonneg (by omega)

/-- Two negative numbers of the same width; the line break is spelled with a backslash. -/
theorem lines_aligned_unless_last_narrower_below_zero :
    let value : Value := .str "a\\nb"
    let given : List Value := [.int (-2), .str " 1 "]
    linesOf? value = some [['a'], ['b']] ∧
      (lineNumbers.resolveArguments given).value = [.int (-2), .str " 1 ", .str "."] ∧
      (Value.int (-2)).toInt? = some (-2) ∧ (Value.str " 1 ").toInt? = some (1 : Nat) ∧ 1 ≤ 4096 ∧
      ∀ s : Surroundings, ∃ lines : List NumberedLine,
        (lineNumbers.apply s value given).outcome? =
            some (.str (String.ofList (lines.flatMap NumberedLine.print))) ∧
          lines.map NumberedLine.text = [['a'], ['b']] ∧ Aligned 1 lines := by
  intro value given
  have htexts : linesOf? value = some [['a'], ['b']] := rfl
  have hgiven : (lineNumbers.resolveArguments given).value =
      [.int (-2), .str " 1 ", .str "."] := rfl
  have hstart : (Value.int (-2)).toInt? = some (-2) := rfl
  have hgap : (Value.str " 1 ").toInt? = some (1 : Nat) := rfl
  refine ⟨htexts, hgiven, hstart, hgap, by decide, fun s => ?_⟩
  obtain ⟨lines, hlines, htext, -, haligned, -⟩ :=
    lines_aligned_unless_last_narrower s htexts hgiven hstart hgap (by decide)
  exact ⟨lines, hlines, htext, haligned.2 (.inr (by decide))⟩

/-- Minus one is wider than zero, so its text follows the symbol without a blank. And a single line
with the last number but one of 64 bits is not written at all. -/
theorem lines_not_aligned_across_zero :
    (¬∀ (s : Surroundings) (value start gap symbol : Value) (texts : List (List Char)) (first : Int)
      (g : Nat), linesOf? value = some texts → start.toInt? = some first →
        first + texts.length ≤ 2 ^ 63 → gap.toInt? = some (g : Int) → g ≤ 4096 →
        (lineNumbers.resolveArguments [start, gap, symbol]).value = [start, gap, symbol] →
        ∃ lines : List NumberedLine,
          (lineNumbers.apply s value [start, gap, symbol]).outcome? =
              some (.str (String.ofList (lines.flatMap NumberedLine.print))) ∧
            lines.map NumberedLine.text = texts ∧
            (∀ (k : Nat) (line : NumberedLine), lines[k]? = some line →
              line.number = first + k ∧ line.symbol = symbol.displayChars) ∧
            Aligned g lines) ∧
      linesOf? (.str "a") = some [['a']] ∧
      ∀ s : Surroundings,
        (lineNumbers.apply s (.str "a") [.int 9223372036854775806, .int 1, .str "."]).outcome? =
          none := by
  let given : List Value := [.int 9223372036854775806, .int 1, .str "."]
  have hone : linesOf? (.str "a") = some [['a']] := rfl
  have hgiven : (lineNumbers.resolveArguments given).value = given := rfl
  have hstart : (Value.int 9223372036854775806).toInt? = some 9223372036854775806 := rfl
  have hhalts (s : Surroundings) : (lineNumbers.apply s (.str "a") given).outcome? = none := by
    rw [Logged.outcome?_eq_none_iff, halts_lineNumbers hone hgiven s hstart]
    decide
  refine ⟨fun hall => ?_, hone, hhalts⟩
  obtain ⟨lines, hlines, htext, hnumber, haligned⟩ := hall ⟨⟨0, 0, 0⟩, fun _ => 0⟩ (.str "a\nb")
    (.int (-1)) (.int 1) (.str ".") [['a'], ['b']] (-1) 1 rfl rfl (by decide) rfl (by decide) rfl
  obtain ⟨top, rest, rfl⟩ : ∃ top rest, lines = top :: rest := by
    cases lines with
    | nil => cases htext
    | cons top rest => exact ⟨top, rest, rfl⟩
  obtain ⟨hnum, hsymbol⟩ := hnumber 0 top rfl
  obtain ⟨b, hb⟩ : ∃ b, top.blanks = b + 1 :=
    Nat.exists_eq_add_of_le' (haligned.gap_le top (by simp))
  -- The fourth character of the output is the text, where the gap should be.
  have hvalue : "-1.a\n0. b\n" = String.ofList ((top :: rest).flatMap NumberedLine.print) :=
    Value.str.inj (Logged.outcome?_eq_some_iff.1 hlines).2
  have hchar := congrArg (fun t : String => t.toList[3]?) hvalue
  simp only [String.toList_ofList, List.flatMap_cons, NumberedLine.print, hnum, hsymbol, hb,
    List.replicate_succ] at hchar
  cases hchar

end Filter

end Stencil
