import Stencil.Proofs.DecimalPlaces
import Stencil.Proofs.FormatSpec
import Stencil.Proofs.RadixDigits

/-!
# Bounds on fill characters and digits

Templates cannot make a filter write more than 4096 (`maxWidth`) fill characters, blanks of a gap or
digits after a point, except for the filter that rounds numbers: its number of places has a bound of
its own (`maxPlaces`), which is sixteen times as large.
-/

namespace Stencil.Filter

open Double (fractionLength)

/-! ## Padding to a width -/

theorem paddedWithin_center (fill : Char) (width : Nat) (cs : List Char) :
    PaddedWithin width cs (Text.center fill width cs) := by
  rw [Text.center]
  split_ifs with hwide
  · exact paddedWithin_self width cs
  · refine paddedWithin_sides ?_ fill cs
    split_ifs <;> omega

theorem paddedWithin_ljust (fill : Char) (width : Nat) (cs : List Char) :
    PaddedWithin width cs (Text.ljust fill width cs) :=
  paddedWithin_behind (Nat.sub_le _ _) fill cs

theorem paddedWithin_rjust (fill : Char) (width : Nat) (cs : List Char) :
    PaddedWithin width cs (Text.rjust fill width cs) :=
  paddedWithin_before (Nat.sub_le _ _) fill cs

theorem PaddedWithin.mono {bound bound' : Nat} (h : bound ≤ bound') {text out : List Char}
    (hout : PaddedWithin bound text out) : PaddedWithin bound' text out := by
  obtain ⟨p, front, back, htext, hout, hcount⟩ := hout
  exact ⟨p, front, back, htext, hout, hcount.trans h⟩

theorem widthAndFill_le (width fill : Value) : (widthAndFill width fill).value.1 ≤ maxWidth := by
  unfold widthAndFill
  split
  · split_ifs
    · exact Nat.zero_le _
    · show (clampWidth "padding" _).value ≤ maxWidth
      rw [value_clampWidth]
      exact min_le_right _ _
  · exact Nat.zero_le _

/-- A filter that pads the text of a value. Values without a text become null. -/
theorem value_padText (filter : String) (value width fill : Value)
    {pad : Char → Nat → List Char → List Char}
    (hpad : ∀ c n cs, PaddedWithin n cs (pad c n cs)) :
    ((text? filter value).value = none → (padText filter value width fill pad).value = .null) ∧
      ∀ cs, (text? filter value).value = some cs →
        ∃ out, (padText filter value width fill pad).value = .str (String.ofList out) ∧
          PaddedWithin maxWidth cs out := by
  cases value with
  | null | list | dict =>
    refine ⟨fun _ => rfl, fun cs hcs => ?_⟩
    cases hcs
  | bool | int | float | str =>
    refine ⟨fun hnone => ?_, fun cs hcs => ?_⟩
    · cases hnone
    · obtain rfl := Option.some_inj.1 hcs
      exact ⟨_, rfl, (hpad _ _ _).mono (widthAndFill_le width fill)⟩

/-- The filters that pad keep to the bound. -/
theorem padded_within (s : Surroundings) {f : Filter} (hf : f ∈ [center, ljust, rjust])
    (value : Value) (given : List Value) :
    ((text? f.name value).value = none → (f.apply s value given).value = .null) ∧
      ∀ cs, (text? f.name value).value = some cs →
        ∃ out, (f.apply s value given).value = .str (String.ofList out) ∧
          PaddedWithin maxWidth cs out := by
  obtain ⟨pad, hwithin, hrun⟩ : ∃ pad : Char → Nat → List Char → List Char,
      (∀ c n cs, PaddedWithin n cs (pad c n cs)) ∧
        ∀ a b c, f.run s value a b c = padText f.name value a b pad := by
    simp only [List.mem_cons, List.not_mem_nil, or_false] at hf
    rcases hf with rfl | rfl | rfl
    · exact ⟨_, paddedWithin_center, fun _ _ _ => rfl⟩
    · exact ⟨_, paddedWithin_ljust, fun _ _ _ => rfl⟩
    · exact ⟨_, paddedWithin_rjust, fun _ _ _ => rfl⟩
  simp only [value_apply, hrun]
  exact value_padText f.name value _ _ hwithin

/-! ## Gaps -/

/-- Numbered lines have a gap behind the last number, and the blanks that bring a narrower number to
its width. -/
theorem gaps_within (s : Surroundings) {value : Value} {texts : List (List Char)}
    (htexts : linesOf? value = some texts) (given : List Value) :
    ∃ (lines : List NumberedLine) (gap : Nat) (last : Int),
      (lineNumbers.apply s value given).value =
          .str (String.ofList (lines.flatMap NumberedLine.print)) ∧
        lines.map NumberedLine.text = texts ∧ gap ≤ maxWidth ∧ Double.width last ≤ 20 ∧
        ∀ line ∈ lines, line.blanks = Double.width last + gap - Double.width line.number := by
  obtain ⟨start, gap, symbol, hgiven⟩ : ∃ start gap symbol,
      (lineNumbers.resolveArguments given).value = [start, gap, symbol] :=
    List.length_eq_three.1 (length_resolveFrom _ _ _ _)
  refine ⟨_, gapWidth gap, lastNumber ((start.toInt?).getD 1) texts.length,
    value_lineNumbers htexts hgiven s, map_text_numberedLines _ _ _ _, gapWidth_le gap,
    Double.width_le_of_fits (fits_lastNumber _ _), fun line hline => ?_⟩
  obtain ⟨k, hk⟩ := List.getElem?_of_mem hline
  obtain ⟨-, -, -, hblanks⟩ := line_of_getElem? hk
  omega

/-! ## Places of formatted numbers -/

theorem fractionLength_addSign (flags cs : List Char) :
    fractionLength (addSign flags cs) = fractionLength cs := by
  rw [addSign]
  split_ifs
  · rfl
  · exact Double.fractionLength_cons (by decide) cs
  · exact Double.fractionLength_cons (by decide) cs
  · rfl

theorem Signed.not_mem_point {sign rest : List Char} (h : Signed sign rest) : '.' ∉ sign := by
  cases h with
  | bare => exact List.not_mem_nil
  | sign rest hc =>
    rw [List.mem_singleton]
    rintro rfl
    rcases hc with hc | hc | hc <;> cases hc

/-- Padding adds no digits behind a point. -/
theorem fractionLength_padTo (flags : List Char) (numeric : Bool) (width : Nat) (cs : List Char) :
    fractionLength (padTo flags numeric width cs) = fractionLength cs := by
  obtain ⟨sign, rest, rfl, hsigned⟩ := exists_signed cs
  obtain ⟨count, -, hpad⟩ := padTo_cases hsigned flags numeric width
  have hblanks : '.' ∉ List.replicate count ' ' := fun h => by
    cases List.eq_of_mem_replicate h
  have hzeros : '.' ∉ List.replicate count '0' := fun h => by
    cases List.eq_of_mem_replicate h
  rcases hpad with h | h | h
  · rw [h]
    refine Double.fractionLength_append_of_head (fun c hc => ?_) hblanks _
    rw [List.eq_of_mem_replicate (List.mem_of_mem_head? hc)]
    rfl
  · rw [h, List.append_assoc, Double.fractionLength_append hsigned.not_mem_point,
      Double.fractionLength_append hzeros, Double.fractionLength_append hsigned.not_mem_point]
  · rw [h, Double.fractionLength_append hblanks]

theorem fractionLength_displayChars_le {value : Value} {x : Float}
    (h : formatNumber? value = some x) : fractionLength value.displayChars ≤ 416 := by
  cases value with
  | bool b => cases b <;> exact Nat.zero_le _
  | int n =>
    rw [Value.displayChars, Double.fractionLength_intDigits]
    exact Nat.zero_le _
  | float y => exact Double.fractionLength_text_le _ y
  | null | str | list | dict => cases h

/-- A converted number has no more digits behind its point than the bound on widths. -/
theorem fractionLength_convert?_le {conversion : Char} {precision : Option Nat} {value : Value}
    {x : Float} {converted : List Char} {numeric : Bool} (hx : formatNumber? value = some x)
    (hprecision : ∀ p ∈ precision, p ≤ maxWidth)
    (h : convert? conversion precision value = some (converted, numeric)) :
    fractionLength converted ≤ maxWidth := by
  have hshown : fractionLength value.displayChars ≤ maxWidth :=
    (fractionLength_displayChars_le hx).trans (by decide)
  have hplaces : precision.getD 6 ≤ maxWidth := by
    cases precision with
    | none => decide
    | some p => exact hprecision p rfl
  have hfixed (places : Nat) (hle : places ≤ maxWidth) :
      fractionLength (Double.fixed places x) ≤ maxWidth := by
    rw [Double.fractionLength_fixed]
    split_ifs
    · exact hle
    · exact Nat.zero_le _
  have hscientific (places : Nat) (hle : places ≤ maxWidth) :
      fractionLength (scientificPlaces places x) ≤ maxWidth := by
    rw [Double.fractionLength_scientificPlaces]
    split_ifs
    · exact hle
    · exact Nat.zero_le _
  cases hbase : radix? conversion with
  | some base =>
    obtain ⟨digits, hconvert, hdigits⟩ := convert?_integer hbase precision hx
    rw [hconvert] at h
    obtain ⟨rfl, -⟩ := Prod.mk.inj (Option.some_inj.1 h)
    rw [Double.fractionLength_signed,
      Double.fractionLength_of_not_mem (not_mem_of_readRadix? hdigits rfl)]
    exact Nat.zero_le _
  | none =>
    simp only [convert?, hx, Option.map_some] at h
    split at h
    · obtain ⟨rfl, -⟩ := Prod.mk.inj (Option.some_inj.1 h)
      cases precision with
      | none => exact hshown
      | some p =>
        calc fractionLength (value.displayChars.take p)
            ≤ (value.displayChars.take p).length := Double.fractionLength_le_length _
          _ ≤ p := List.length_take_le _ _
          _ ≤ maxWidth := hprecision p rfl
    · obtain ⟨rfl, -⟩ := Prod.mk.inj (Option.some_inj.1 h)
      split
      · cases hx
      · exact hshown
    · cases hbase
    · cases hbase
    · cases hbase
    · cases hbase
    · cases hbase
    · obtain ⟨rfl, -⟩ := Prod.mk.inj (Option.some_inj.1 h)
      exact hfixed _ hplaces
    · obtain ⟨rfl, -⟩ := Prod.mk.inj (Option.some_inj.1 h)
      exact hfixed _ hplaces
    · obtain ⟨rfl, -⟩ := Prod.mk.inj (Option.some_inj.1 h)
      exact hscientific _ hplaces
    · obtain ⟨rfl, -⟩ := Prod.mk.inj (Option.some_inj.1 h)
      rw [Double.fractionLength_map_toUpper]
      exact hscientific _ hplaces
    · cases h

/-- A text formatted by a specification within a bound: not more fill characters than that around
the value as the specification converts it, with a bounded precision, and not more digits behind the
point of a number. -/
structure FormattedWithin (bound : Nat) (value : Value) (format : String) (out : List Char) :
    Prop where
  padded : ∃ (spec : Spec) (d : Settled) (converted : List Char) (numeric : Bool),
    Spec.parse? (specText format) = some spec ∧ spec.settle? = some d ∧
      (∀ p ∈ d.precision, p ≤ bound) ∧
      convert? d.conversion d.precision value = some (converted, numeric) ∧
      PaddedWithin bound (if numeric then addSign d.flags converted else converted) out
  places : formatNumber? value ≠ none → fractionLength out ≤ bound

theorem formattedWithin_of_formatBy? {value : Value} {spec : String} {out : List Char}
    (h : formatBy? value spec = some out) : FormattedWithin maxWidth value spec out := by
  obtain ⟨parsed, hparse, h⟩ := Option.bind_eq_some_iff.1 h
  obtain ⟨d, hsettle, h⟩ := Option.bind_eq_some_iff.1 h
  obtain ⟨⟨converted, numeric⟩, hconvert, rfl⟩ := Option.map_eq_some_iff.1 h
  obtain ⟨-, -, hwidth, hprecision⟩ := Spec.settled_of_settle? hsettle
  constructor
  · exact ⟨parsed, d, converted, numeric, hparse, hsettle, hprecision, hconvert,
      paddedWithin_padTo _ _ hwidth _⟩
  · intro hnumber
    obtain ⟨x, hx⟩ := Option.ne_none_iff_exists'.1 hnumber
    have hconverted := fractionLength_convert?_le hx hprecision hconvert
    rw [fractionLength_padTo]
    cases numeric with
    | false => exact hconverted
    | true => rwa [if_pos rfl, fractionLength_addSign]

/-! ## Rounding -/

/-- The number that is rounded. -/
def numberToRound? : Value → Option Float
  | .null => some (Double.ofInt 0)
  | .str s => if s.isEmpty then some (Double.ofInt 0) else (Value.str s).toFloat?
  | v => v.toFloat?

theorem value_floatFormat (s : Surroundings) (value : Value) (given : List Value) :
    let decimals := ((floatFormat.resolveArguments given).value.getD 0 .null).toInt?.getD (-1)
    (floatFormat.apply s value given).value = match numberToRound? value with
      | some x => .str (String.ofList (formatPlaces decimals x))
      | none => value := by
  rw [value_apply]
  show (floatFormatValue value _).value = _
  unfold floatFormatValue numberToRound?
  cases value with
  | null => rfl
  | str t =>
    by_cases hempty : t.isEmpty = true
    · simp only [if_pos hempty]
      rfl
    · simp only [if_neg hempty]
      cases (Value.str t).toFloat? <;> rfl
  | bool | int | float | list | dict => rfl

/-- A rounded number has more places than the bound exactly if more are asked for and it is finite.
-/
theorem places_within_iff (s : Surroundings) {value : Value} {x : Float}
    (hx : numberToRound? value = some x) (given : List Value) :
    let decimals := ((floatFormat.resolveArguments given).value.getD 0 .null).toInt?.getD (-1)
    ∃ out, (floatFormat.apply s value given).value = .str (String.ofList out) ∧
      fractionLength out ≤ maxPlaces ∧
      (maxWidth < fractionLength out ↔ maxWidth < decimals ∧ Double.isFinite x = true) := by
  intro decimals
  have hmaxWidth : maxWidth = 4096 := rfl
  have hmaxPlaces : maxPlaces = 65535 := rfl
  refine ⟨formatPlaces decimals x, by rw [value_floatFormat, hx], ?_⟩
  rcases lt_or_ge decimals 0 with hneg | hnonneg
  · have hfew := Double.fractionLength_formatPlaces_le hneg x
    omega
  · obtain ⟨places, hplaces⟩ := Int.eq_ofNat_of_zero_le hnonneg
    rw [hplaces, Double.fractionLength_formatPlaces]
    split_ifs with hfinite
    · simp only [hfinite, and_true]
      omega
    · exact ⟨Nat.zero_le _, fun h => absurd h (by decide), fun h => absurd h.2 hfinite⟩

/-- The texts that are padded, the gaps of numbered lines and formatted values keep to the bound of
4096. A rounded number has more places exactly if more are asked for and it is finite; then they are
65535 at most. -/
theorem fill_within_unless_rounded (s : Surroundings) (value : Value) (given : List Value) :
    let format := ((stringFormat.resolveArguments given).value.getD 0 .null).display
    let decimals := ((floatFormat.resolveArguments given).value.getD 0 .null).toInt?.getD (-1)
    (∀ f ∈ [center, ljust, rjust],
        ((text? f.name value).value = none → (f.apply s value given).value = .null) ∧
          ∀ cs, (text? f.name value).value = some cs →
            ∃ out, (f.apply s value given).value = .str (String.ofList out) ∧
              PaddedWithin 4096 cs out) ∧
      (∀ texts, linesOf? value = some texts →
        ∃ (lines : List NumberedLine) (gap : Nat) (last : Int),
          (lineNumbers.apply s value given).value =
              .str (String.ofList (lines.flatMap NumberedLine.print)) ∧
            lines.map NumberedLine.text = texts ∧ gap ≤ 4096 ∧ Double.width last ≤ 20 ∧
            ∀ line ∈ lines, line.blanks = Double.width last + gap - Double.width line.number) ∧
      (formatBy? value format = none → (stringFormat.apply s value given).value = .str "") ∧
      (∀ out, formatBy? value format = some out →
        (stringFormat.apply s value given).value = .str (String.ofList out) ∧
          FormattedWithin 4096 value format out) ∧
      (numberToRound? value = none → (floatFormat.apply s value given).value = value) ∧
      ∀ x, numberToRound? value = some x →
        ∃ out, (floatFormat.apply s value given).value = .str (String.ofList out) ∧
          fractionLength out ≤ 65535 ∧
          (4096 < fractionLength out ↔ 4096 < decimals ∧ Double.isFinite x = true) := by
  intro format decimals
  refine ⟨fun f hf => padded_within s hf value given,
    fun texts htexts => gaps_within s htexts given, fun hnone => ?_, fun out hout => ⟨?_, ?_⟩,
    fun hnone => ?_, fun x hx => places_within_iff s hx given⟩
  · rw [value_stringFormat, hnone]
    rfl
  · rw [value_stringFormat, hout, Option.getD_some]
  · exact formattedWithin_of_formatBy? hout
  · rw [value_floatFormat, hnone]

/-- The greatest integer of 64 bits as a width, a gap and a number of places, and a text formatted
as an integer and as a text. -/
theorem fill_within_unless_rounded_greatest :
    let greatest : Value := .int 9223372036854775807
    linesOf? (.str "a") = some [['a']] ∧ numberToRound? .null = some (Double.ofInt 0) ∧
      numberToRound? (.list []) = none ∧ formatBy? (.str "a") "d" = none ∧
      formatBy? (.str "a") "%3s" = some [' ', ' ', 'a'] ∧
      ∀ s : Surroundings,
        (∃ out, (center.apply s (.str "a") [greatest, .str "*"]).value =
            .str (String.ofList out) ∧ PaddedWithin 4096 ['a'] out) ∧
        (∃ (lines : List NumberedLine) (gap : Nat) (last : Int),
          (lineNumbers.apply s (.str "a") [.int 1, greatest]).value =
              .str (String.ofList (lines.flatMap NumberedLine.print)) ∧
            lines.map NumberedLine.text = [['a']] ∧ gap ≤ 4096 ∧ Double.width last ≤ 20 ∧
            ∀ line ∈ lines, line.blanks = Double.width last + gap - Double.width line.number) ∧
        (stringFormat.apply s (.str "a") [.str "d"]).value = .str "" ∧
        ((stringFormat.apply s (.str "a") [.str "%3s"]).value = .str "  a" ∧
          FormattedWithin 4096 (.str "a") "%3s" [' ', ' ', 'a']) ∧
        (floatFormat.apply s (.list []) [greatest]).value = .list [] ∧
        ∃ out, (floatFormat.apply s .null [greatest]).value = .str (String.ofList out) ∧
          fractionLength out ≤ 65535 := by
  intro greatest
  have htexts : linesOf? (.str "a") = some [['a']] := rfl
  have hnumber : numberToRound? .null = some (Double.ofInt 0) := rfl
  have hnone : numberToRound? (.list []) = none := rfl
  have hrefused : formatBy? (.str "a") "d" = none := by decide
  have hformat : formatBy? (.str "a") "%3s" = some [' ', ' ', 'a'] := by decide
  refine ⟨htexts, hnumber, hnone, hrefused, hformat, fun s => ⟨?_, ?_, ?_, ?_, ?_, ?_⟩⟩
  · exact ((fill_within_unless_rounded s (.str "a") _).1 center (by simp)).2 ['a'] rfl
  · exact (fill_within_unless_rounded s (.str "a") _).2.1 _ htexts
  · exact (fill_within_unless_rounded s (.str "a") [.str "d"]).2.2.1 hrefused
  · exact (fill_within_unless_rounded s (.str "a") [.str "%3s"]).2.2.2.1 _ hformat
  · exact (fill_within_unless_rounded s (.list []) _).2.2.2.2.1 hnone
  · obtain ⟨out, hout, hle, -⟩ := (fill_within_unless_rounded s .null _).2.2.2.2.2 _ hnumber
    exact ⟨out, hout, hle⟩

/-- The number one rounded to 5000 places has 5000 places. -/
theorem rounded_places_not_within :
    ¬∀ (s : Surroundings) (n : Int) (given : List Value) (out : List Char),
      (floatFormat.apply s (.int n) given).value = .str (String.ofList out) →
        fractionLength out ≤ 4096 := by
  intro hall
  obtain ⟨places, hplaces⟩ : ∃ places : Nat, places = 5000 := ⟨_, rfl⟩
  have hdecimals : ((floatFormat.resolveArguments [.int places]).value.getD 0 .null).toInt?.getD
      (-1) = places := by
    rw [hplaces]
    rfl
  have hvalue := value_floatFormat ⟨⟨0, 0, 0⟩, fun _ => 0⟩ (.int 1) [.int places]
  simp only [hdecimals] at hvalue
  have hfew := hall _ 1 [.int places] (formatPlaces places (Double.ofInt 1)) hvalue
  have hfinite : Double.isFinite (Double.ofInt 1) = true := by
    rw [Double.isFinite, Double.units?_ofInt (by decide)]
    rfl
  rw [Double.fractionLength_formatPlaces, if_pos hfinite, hplaces] at hfew
  revert hfew
  decide

end Stencil.Filter
