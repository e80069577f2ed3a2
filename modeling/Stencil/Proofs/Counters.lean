import Stencil.Proofs.LineNumbers

/-!
# Counts at the end of their range

Two filters add a number from a template to a count of their own: `lengthValue` to the size of a
value, `numberLines` to the index of a line. A count that is given is the exact sum. A sum beyond 64
bits is never given as another number; it halts the run, and with the run everything that was
rendered so far.
-/

namespace Stencil.Filter

open Condition (fits_iff)

section Length

variable {value extra : Value} {given : List Value} {n : Nat} (hsize : size? value = some n)
  (hgiven : (length.resolveArguments given).value = [extra])

include hsize hgiven

theorem value_length_apply (s : Surroundings) :
    (length.apply s value given).value = .int (n + (extra.toInt?).getD 0) := by
  rw [value_apply, hgiven]
  show (lengthValue value extra).value = _
  simp only [lengthValue, hsize, Logged.value_bind, Logged.value_sum, Logged.value_pure]

theorem halts_length_apply (s : Surroundings) :
    (length.apply s value given).halts = !Double.fits (n + (extra.toInt?).getD 0) := by
  rw [halts_apply, hgiven]
  show (lengthValue value extra).halts = _
  simp only [lengthValue, hsize, Logged.halts_bind, Logged.halts_sum, Logged.halts_pure,
    Bool.or_false]

end Length

/-- The length of a string, a list or a mapping is its size with the extra number added, if that sum
fits in 64 bits; else the run halts. The numbers of lines are counted up from the start, the sums
being exact; the run halts unless the number behind the last line is less than the greatest one of
64 bits. -/
theorem counts_exact_unless_halted (s : Surroundings) (value : Value) (given : List Value) :
    (∀ (n : Nat) (extra : Value) (e : Int), size? value = some n →
      (length.resolveArguments given).value = [extra] → extra.toInt? = some e →
        (length.apply s value given).outcome? =
          if -2 ^ 63 ≤ n + e ∧ n + e < 2 ^ 63 then some (.int (n + e)) else none) ∧
      ∀ (texts : List (List Char)) (start gap symbol : Value) (first : Int),
        linesOf? value = some texts →
        (lineNumbers.resolveArguments given).value = [start, gap, symbol] →
        start.toInt? = some first →
          ∃ lines : List NumberedLine,
            (lineNumbers.apply s value given).outcome? =
                (if first + texts.length + 1 < 2 ^ 63 then
                  some (.str (String.ofList (lines.flatMap NumberedLine.print))) else none) ∧
              lines.map NumberedLine.text = texts ∧
              ∀ (k : Nat) (line : NumberedLine), lines[k]? = some line →
                line.symbol = symbol.displayChars ∧ line.number = first + k := by
  constructor
  · intro n extra e hsize hgiven hextra
    have hvalue := value_length_apply hsize hgiven s
    have hhalts := halts_length_apply hsize hgiven s
    rw [hextra, Option.getD_some] at hvalue hhalts
    simp only [Logged.outcome?, hvalue, hhalts, ← fits_iff]
    cases Double.fits (n + e) <;> rfl
  · intro texts start gap symbol first htexts hgiven hstart
    refine ⟨_, outcome?_lineNumbers htexts hgiven s hstart, map_text_numberedLines _ _ _ _, ?_⟩
    intro k line hk
    obtain ⟨-, hnumber, hsymbol, -⟩ := line_of_getElem? hk
    exact ⟨hsymbol, hnumber⟩

/-- The greatest length and the greatest line number that are given. -/
theorem counts_exact_unless_halted_greatest :
    let value : Value := .str "a\nb"
    let given : List Value := [.str "9223372036854775804"]
    let numbered : List Value := [.int 9223372036854775804, .int 1, .str ":"]
    size? value = some 3 ∧
      (length.resolveArguments given).value = [.str "9223372036854775804"] ∧
      (Value.str "9223372036854775804").toInt? = some 9223372036854775804 ∧
      linesOf? value = some [['a'], ['b']] ∧
      (lineNumbers.resolveArguments numbered).value = numbered ∧
      (Value.int 9223372036854775804).toInt? = some 9223372036854775804 ∧
      ∀ s : Surroundings,
        (length.apply s value given).outcome? = some (.int 9223372036854775807) ∧
          ∃ lines : List NumberedLine,
            (lineNumbers.apply s value numbered).outcome? =
                some (.str (String.ofList (lines.flatMap NumberedLine.print))) ∧
              lines.map NumberedLine.text = [['a'], ['b']] ∧
              ∀ line, lines[1]? = some line → line.number = 9223372036854775805 := by
  intro value given numbered
  have hsize : size? value = some 3 := rfl
  have hgiven : (length.resolveArguments given).value = [.str "9223372036854775804"] := rfl
  have hextra : (Value.str "9223372036854775804").toInt? = some 9223372036854775804 := by decide
  have htexts : linesOf? value = some [['a'], ['b']] := rfl
  have hnumbered : (lineNumbers.resolveArguments numbered).value = numbered := rfl
  have hstart : (Value.int 9223372036854775804).toInt? = some 9223372036854775804 := rfl
  refine ⟨hsize, hgiven, hextra, htexts, hnumbered, hstart, fun s => ⟨?_, ?_⟩⟩
  · exact (counts_exact_unless_halted s value given).1 3 _ _ hsize hgiven hextra
  · obtain ⟨lines, hlines, htext, hnumber⟩ :=
      (counts_exact_unless_halted s value numbered).2 _ _ _ _ _ htexts hnumbered hstart
    exact ⟨lines, hlines, htext, fun line hline => (hnumber 1 line hline).2⟩

/-- A length of one, increased by the greatest integer of 64 bits, is neither the sum nor any other
value. -/
theorem length_without_count :
    ¬∀ (s : Surroundings) (value extra : Value) (n : Nat) (e : Int), size? value = some n →
      (length.resolveArguments [extra]).value = [extra] → extra.toInt? = some e →
        ∃ count, (length.apply s value [extra]).outcome? = some count ∧
          ∀ m : Int, count = .int m → m = n + e := by
  intro hall
  let greatest : Value := .int 9223372036854775807
  have hgiven : (length.resolveArguments [greatest]).value = [greatest] := rfl
  have hsize : size? (.str "a") = some 1 := rfl
  have s : Surroundings := ⟨⟨0, 0, 0⟩, fun _ => 0⟩
  obtain ⟨count, hcount, -⟩ := hall s (.str "a") greatest 1 9223372036854775807 hsize hgiven rfl
  obtain ⟨hgoes, -⟩ := Logged.outcome?_eq_some_iff.1 hcount
  rw [halts_length_apply hsize hgiven s] at hgoes
  cases hgoes

end Stencil.Filter
