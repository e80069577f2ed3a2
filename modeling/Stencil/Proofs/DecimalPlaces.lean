import Stencil.Filter.Format
import Stencil.Filter.Number
import Stencil.Proofs.NearestDouble
import Stencil.Proofs.NumberWidth

/-!
# Digits after the point

A number that is printed with a count of places has just so many digits after its point, in
positional and in scientific notation. The shortest text of a double has a few hundred of them at
most, whatever the double.
-/

namespace Stencil.Double

/-- How many digits follow the first point of a text. -/
def fractionLength (cs : List Char) : Nat :=
  (((cs.dropWhile (· != '.')).drop 1).takeWhile Char.isDigit).length

/-- A text of digits only. -/
def AllDigits (cs : List Char) : Prop := ∀ c ∈ cs, c.isDigit = true

/-! ## Texts with a point -/

theorem fractionLength_append {front : List Char} (h : '.' ∉ front) (cs : List Char) :
    fractionLength (front ++ cs) = fractionLength cs := by
  have hall : ∀ c ∈ front, (c != '.') = true := fun c hc => bne_iff_ne.2 (ne_of_mem_of_not_mem hc h)
  rw [fractionLength, List.dropWhile_append_of_pos hall, fractionLength]

theorem fractionLength_cons {c : Char} (h : c ≠ '.') (cs : List Char) :
    fractionLength (c :: cs) = fractionLength cs := by
  have hfront : '.' ∉ [c] := by simpa using h.symm
  exact fractionLength_append hfront cs

theorem fractionLength_of_not_mem {cs : List Char} (h : '.' ∉ cs) : fractionLength cs = 0 := by
  have hnil := fractionLength_append h []
  rwa [List.append_nil] at hnil

/-- Digits behind a point count up to the first other character. -/
theorem fractionLength_point {digits rest : List Char} (hdigits : AllDigits digits)
    (hrest : ∀ c ∈ rest.head?, c.isDigit = false) :
    fractionLength ('.' :: (digits ++ rest)) = digits.length := by
  have hstop : rest.takeWhile Char.isDigit = [] := by
    cases rest with
    | nil => rfl
    | cons c rest => rw [List.takeWhile_cons_of_neg (by simp [hrest c rfl])]
  rw [fractionLength, List.dropWhile_cons_of_neg (by simp), List.drop_one, List.tail_cons,
    List.takeWhile_append_of_pos hdigits, hstop, List.append_nil]

/-- What follows a text and does not begin with a digit adds none after its point. -/
theorem fractionLength_append_of_head {back : List Char}
    (hhead : ∀ c ∈ back.head?, c.isDigit = false) (hpoint : '.' ∉ back) (cs : List Char) :
    fractionLength (cs ++ back) = fractionLength cs := by
  by_cases hmem : '.' ∈ cs
  · obtain ⟨front, rest, rfl, hfront⟩ := List.eq_append_cons_of_mem hmem
    obtain ⟨digits, hdigits⟩ : ∃ digits, digits = rest.takeWhile Char.isDigit := ⟨_, rfl⟩
    obtain ⟨tail, htail⟩ : ∃ tail, tail = rest.dropWhile Char.isDigit := ⟨_, rfl⟩
    have hrest : rest = digits ++ tail := by
      rw [hdigits, htail, List.takeWhile_append_dropWhile]
    have hall : AllDigits digits := by
      rw [hdigits]
      exact fun c hc => List.mem_takeWhile_imp hc
    have hstop : ∀ c ∈ tail.head?, c.isDigit = false := by
      intro c hc
      have hnot := List.head?_dropWhile_not Char.isDigit rest
      rwa [← htail, hc] at hnot
    have hstop' : ∀ c ∈ (tail ++ back).head?, c.isDigit = false := by
      intro c hc
      cases tail with
      | nil => exact hhead c hc
      | cons d tail => exact hstop c hc
    rw [List.append_assoc, List.cons_append, fractionLength_append hfront,
      fractionLength_append hfront, hrest, List.append_assoc, fractionLength_point hall hstop,
      fractionLength_point hall hstop']
  · rw [fractionLength_append hmem, fractionLength_of_not_mem hmem,
      fractionLength_of_not_mem hpoint]

theorem fractionLength_le_length (cs : List Char) : fractionLength cs ≤ cs.length :=
  calc fractionLength cs ≤ ((cs.dropWhile (· != '.')).drop 1).length :=
        (List.takeWhile_sublist _).length_le
    _ ≤ cs.length := ((List.drop_sublist _ _).trans (List.dropWhile_sublist _)).length_le

theorem isDigit_of_isAlpha {c : Char} (h : c.isAlpha = true) : c.isDigit = false := by
  grind [Char.isAlpha, Char.isDigit, Char.isUpper, Char.isLower]

/-- A character that upper case changes is a letter, before and after. -/
theorem toUpper_eq_or_isAlpha (c : Char) :
    c.toUpper = c ∨ c.isAlpha = true ∧ c.toUpper.isAlpha = true := by
  by_cases hlower : c.isLower = true
  · have halpha : c.isAlpha = true := by rw [Char.isAlpha, hlower, Bool.or_true]
    exact .inr ⟨halpha, by rwa [Char.isAlpha_toUpper_eq_isAlpha]⟩
  · exact .inl (Char.toUpper_eq_of_not_isLower hlower)

/-- Upper case leaves the point and the digits alone. -/
theorem fractionLength_map_toUpper (cs : List Char) :
    fractionLength (cs.map Char.toUpper) = fractionLength cs := by
  have hpoint : (fun c : Char => c != '.') ∘ Char.toUpper = fun c => c != '.' := by
    funext c
    rcases toUpper_eq_or_isAlpha c with h | ⟨halpha, halpha'⟩
    · exact congrArg (· != '.') h
    · have hne {d : Char} (hd : d.isAlpha = true) : (d != '.') = true := by
        rw [bne_iff_ne]
        rintro rfl
        cases hd
      exact (hne halpha').trans (hne halpha).symm
  have hdigit : Char.isDigit ∘ Char.toUpper = Char.isDigit := by
    funext c
    rcases toUpper_eq_or_isAlpha c with h | ⟨halpha, halpha'⟩
    · exact congrArg Char.isDigit h
    · exact (isDigit_of_isAlpha halpha').trans (isDigit_of_isAlpha halpha).symm
  rw [fractionLength, List.dropWhile_map, hpoint, ← List.map_drop, List.takeWhile_map, hdigit,
    List.length_map, fractionLength]

theorem AllDigits.not_mem {cs : List Char} (h : AllDigits cs) {c : Char}
    (hc : c.isDigit = false) : c ∉ cs := by
  intro hmem
  rw [h c hmem] at hc
  cases hc

theorem AllDigits.sublist {cs ds : List Char} (h : AllDigits ds) (hsub : cs.Sublist ds) :
    AllDigits cs := fun c hc => h c (hsub.subset hc)

theorem allDigits_natDigits (n : Nat) : AllDigits (natDigits n) := fun _ hc =>
  Nat.isDigit_of_mem_toDigits (by decide) (by decide) hc

theorem AllDigits.append {cs ds : List Char} (hcs : AllDigits cs) (hds : AllDigits ds) :
    AllDigits (cs ++ ds) := List.forall_mem_append.2 ⟨hcs, hds⟩

theorem allDigits_zeros (count : Nat) : AllDigits (List.replicate count '0') := by
  intro c hc
  rw [List.eq_of_mem_replicate hc]
  rfl

theorem allDigits_padLeft {cs : List Char} (h : AllDigits cs) (count : Nat) :
    AllDigits (padLeft '0' count cs) := (allDigits_zeros _).append h

theorem le_length_padLeft (fill : Char) (count : Nat) (cs : List Char) :
    count ≤ (padLeft fill count cs).length := by
  rw [padLeft, List.length_append, List.length_replicate]
  omega

/-- A point put in before the last digits. -/
theorem fractionLength_pointBefore {cs : List Char} (h : AllDigits cs) {places : Nat}
    (hle : places ≤ cs.length) :
    fractionLength (cs.take (cs.length - places) ++ '.' :: cs.drop (cs.length - places)) =
      places := by
  have hfront : '.' ∉ cs.take (cs.length - places) :=
    (h.sublist (List.take_sublist _ _)).not_mem rfl
  have hback : AllDigits (cs.drop (cs.length - places)) := h.sublist (List.drop_sublist _ _)
  rw [fractionLength_append hfront, ← List.append_nil (cs.drop _),
    fractionLength_point hback (by simp), List.length_drop]
  omega

/-- A point put in behind the first digit. -/
theorem fractionLength_pointAfterFirst {digits rest : List Char} (h : AllDigits digits)
    (hrest : ∀ c ∈ rest.head?, c.isDigit = false) (hpoint : '.' ∉ rest) :
    fractionLength (pointAfterFirst digits ++ rest) = digits.length - 1 := by
  match digits, h with
  | [], _ => exact fractionLength_of_not_mem hpoint
  | [d], h =>
    have hd : d ≠ '.' := ne_of_mem_of_not_mem (List.mem_singleton_self d) (h.not_mem rfl)
    exact (fractionLength_cons hd rest).trans (fractionLength_of_not_mem hpoint)
  | d :: e :: ds, h =>
    have hd : d ≠ '.' := ne_of_mem_of_not_mem List.mem_cons_self (h.not_mem rfl)
    have htail : AllDigits (e :: ds) := h.sublist (List.sublist_cons_self _ _)
    exact (fractionLength_cons hd _).trans (fractionLength_point htail hrest)

theorem fractionLength_signed (negative : Bool) (cs : List Char) :
    fractionLength (signed negative cs) = fractionLength cs := by
  cases negative with
  | false => rfl
  | true => exact fractionLength_cons (by decide) cs

/-! ## A count of places -/

theorem fractionLength_withPlaces (places n : Nat) :
    fractionLength (withPlaces places n) = places := by
  rw [withPlaces]
  split_ifs with hzero
  · rw [hzero]
    exact fractionLength_of_not_mem ((allDigits_natDigits n).not_mem rfl)
  · have hlength := le_length_padLeft '0' (places + 1) (natDigits n)
    exact fractionLength_pointBefore (allDigits_padLeft (allDigits_natDigits n) _) (by omega)

/-- A finite double printed with a count of places has just so many. -/
theorem fractionLength_fixed (places : Nat) (x : Float) :
    fractionLength (fixed places x) = if isFinite x then places else 0 := by
  unfold fixed isFinite units?
  cases parts x with
  | nan => rfl
  | infinite negative => cases negative <;> rfl
  | finite negative significand shift =>
    rw [fractionLength_signed]
    exact fractionLength_withPlaces places _

/-! ## Digits of a rounded number -/

theorem digitCount_le_iff {n k : Nat} (hk : 0 < k) : digitCount n ≤ k ↔ n < 10 ^ k :=
  length_natDigits_le_iff hk

/-- A number below a power of ten, counted from a lower place, is below a lower power. -/
theorem mul_pow_lt_of_place {m u place d c : Nat} {k : Int} (h : m * 10 ^ place < 10 ^ d * u)
    (hk : k = (d : Int) - (place + 1) - c) :
    m * 10 ^ (-k).toNat < 10 ^ (c + 1) * (u * 10 ^ k.toNat) := by
  have hexponents : d + (-k).toNat = c + 1 + k.toNat + place := by omega
  refine Nat.lt_of_mul_lt_mul_right (a := 10 ^ place) ?_
  calc m * 10 ^ (-k).toNat * 10 ^ place = m * 10 ^ place * 10 ^ (-k).toNat := by ring
    _ < 10 ^ d * u * 10 ^ (-k).toNat := Nat.mul_lt_mul_of_pos_right h (by positivity)
    _ = 10 ^ (d + (-k).toNat) * u := by ring
    _ = 10 ^ (c + 1) * (u * 10 ^ k.toNat) * 10 ^ place := by
      rw [hexponents]
      ring

/-- The place of the digits is a variable so that the power is never worked out. -/
theorem leadingExponent_eq (significand shift : Nat) {place : Nat} (hplace : place = 400) :
    leadingExponent significand shift =
      (digitCount (significand * Nat.pow 2 shift * Nat.pow 10 place / unitsPerOne) : Int) -
        (place + 1) := by
  unfold leadingExponent
  rw [← hplace]
  omega

/-- From the leading digit on so many more digits make a number below the next power of ten. -/
theorem scaled_lt (significand shift count : Nat) :
    let k := leadingExponent significand shift - count
    significand * Nat.pow 2 shift * Nat.pow 10 (-k).toNat <
      10 ^ (count + 1) * (unitsPerOne * Nat.pow 10 k.toNat) := by
  intro k
  obtain ⟨place, hplace⟩ : ∃ place, place = 400 := ⟨_, rfl⟩
  have hlead : significand * Nat.pow 2 shift * Nat.pow 10 place / unitsPerOne <
      10 ^ digitCount (significand * Nat.pow 2 shift * Nat.pow 10 place / unitsPerOne) :=
    (digitCount_le_iff (length_natDigits_pos _)).1 le_rfl
  refine mul_pow_lt_of_place ((Nat.div_lt_iff_lt_mul unitsPerOne_pos).1 hlead) ?_
  rw [show k = leadingExponent significand shift - count from rfl,
    leadingExponent_eq significand shift hplace]

theorem digitCount_rounded_le (count significand shift : Nat) :
    digitCount (rounded count significand shift).significand ≤ count + 1 := by
  have hpow : 0 < 10 ^ (count + 1) := by positivity
  have hlt := scaled_lt significand shift count
  rw [digitCount_le_iff (by omega)]
  simp only [rounded]
  obtain ⟨k, hk⟩ : ∃ k, k = leadingExponent significand shift - count := ⟨_, rfl⟩
  obtain ⟨num, hnum⟩ : ∃ num, num = significand * Nat.pow 2 shift * Nat.pow 10 (-k).toNat :=
    ⟨_, rfl⟩
  obtain ⟨den, hden⟩ : ∃ den, den = unitsPerOne * Nat.pow 10 k.toNat := ⟨_, rfl⟩
  simp only [← hk, ← hnum, ← hden] at hlt ⊢
  have hpos : 0 < den := by
    rw [hden, Nat.pow_eq]
    exact Nat.mul_pos unitsPerOne_pos (by positivity)
  -- Rounding may reach the next power of ten, which has one digit too many.
  have hround : roundDiv num den ≤ 10 ^ (count + 1) := by
    rw [← roundDiv_mul (10 ^ (count + 1)) hpos]
    exact roundDiv_mono hlt.le den
  split_ifs with hzero hlong
  · exact hpow
  · show roundDiv num den / 10 < _
    omega
  · exact (digitCount_le_iff (by omega)).1 (not_lt.1 hlong)

/-! ## Scientific notation -/

/-- There is no point in an exponent. -/
theorem not_mem_exponent (count : Nat) (lead : Int) :
    '.' ∉ 'e' :: (if lead < 0 then '-' else '+') :: padLeft '0' count (natDigits lead.natAbs) := by
  have hsign : '.' ≠ if lead < 0 then '-' else '+' := by
    split_ifs <;> decide
  have hdigits := (allDigits_padLeft (allDigits_natDigits lead.natAbs) count).not_mem
    (show '.'.isDigit = false from rfl)
  exact List.not_mem_cons_of_ne_of_not_mem (by decide)
    (List.not_mem_cons_of_ne_of_not_mem hsign hdigits)

/-- A finite double in scientific notation has just so many places. -/
theorem fractionLength_scientificPlaces (places : Nat) (x : Float) :
    fractionLength (Filter.scientificPlaces places x) = if isFinite x then places else 0 := by
  unfold Filter.scientificPlaces isFinite units?
  cases parts x with
  | nan => rfl
  | infinite negative => cases negative <;> rfl
  | finite negative significand shift =>
    obtain ⟨d, hd⟩ : ∃ d, d = rounded places significand shift := ⟨_, rfl⟩
    have hcount : (natDigits d.significand).length ≤ places + 1 := by
      rw [hd]
      exact digitCount_rounded_le places significand shift
    have hpadded : AllDigits (natDigits d.significand ++
        List.replicate (places + 1 - (natDigits d.significand).length) '0') :=
      (allDigits_natDigits _).append (allDigits_zeros _)
    simp only [← hd, fractionLength_signed]
    rw [fractionLength_pointAfterFirst hpadded (by simp) (not_mem_exponent _ _), List.length_append,
      List.length_replicate]
    show _ = places
    omega

/-! ## The shortest digits -/

theorem Decimal.strip_bounds (fuel : Nat) (d : Decimal) :
    (d.strip fuel).significand ≤ d.significand ∧ d.exponent ≤ (d.strip fuel).exponent := by
  induction fuel generalizing d with
  | zero => exact ⟨le_rfl, le_rfl⟩
  | succ fuel ih =>
    rw [strip]
    split_ifs
    · obtain ⟨hsignificand, hexponent⟩ := ih ⟨d.significand / 10, d.exponent + 1⟩
      exact ⟨hsignificand.trans (Nat.div_le_self _ _), (Int.le_add_one le_rfl).trans hexponent⟩
    · exact ⟨le_rfl, le_rfl⟩

/-- A point next to a double on a grid has at most two digits more than the grid. -/
theorem onGrid_le {tie : Tie} {significand shift count point : Nat}
    (h : onGrid tie significand shift (leadingExponent significand shift - count) = some point) :
    point ≤ 10 ^ (count + 1) := by
  obtain ⟨k, hk⟩ : ∃ k, k = leadingExponent significand shift - count := ⟨_, rfl⟩
  have hlt := scaled_lt significand shift count
  simp only [← hk] at h hlt
  obtain ⟨below, hbelow⟩ : ∃ below, below = 4 * significand * Nat.pow 2 shift *
      Nat.pow 10 (-k).toNat / (Nat.pow 10 k.toNat * 4 * unitsPerOne) := ⟨_, rfl⟩
  have hle : below < 10 ^ (count + 1) := by
    simp only [Nat.pow_eq] at hlt hbelow
    rw [hbelow, Nat.div_lt_iff_lt_mul (Nat.mul_pos (by positivity) unitsPerOne_pos)]
    calc 4 * significand * 2 ^ shift * 10 ^ (-k).toNat =
          4 * (significand * 2 ^ shift * 10 ^ (-k).toNat) := by ring
      _ < 4 * (10 ^ (count + 1) * (unitsPerOne * 10 ^ k.toNat)) :=
        Nat.mul_lt_mul_of_pos_left hlt (by decide)
      _ = 10 ^ (count + 1) * (10 ^ k.toNat * 4 * unitsPerOne) := by ring
  simp only [onGrid, ← hbelow] at h
  clear hbelow hlt
  have hnext : point = below ∨ point = below + 1 := by
    split at h
    · rw [← Option.some_inj.1 h]
      exact ite_eq_or_eq _ _ _
    · exact .inl (Option.some_inj.1 h).symm
    · exact .inr (Option.some_inj.1 h).symm
    · cases h
  omega

/-- The shortest digits of a double are 18 at most, and none is far behind the point. -/
theorem shortest_bounds (tie : Tie) (significand shift : Nat) :
    digitCount (shortest tie significand shift).significand ≤ 18 ∧
      -416 ≤ (shortest tie significand shift).exponent := by
  unfold shortest
  dsimp only
  obtain ⟨found, hfound⟩ : ∃ found, found = ((List.range 17).findSome? fun (n : Nat) =>
      (onGrid tie significand shift (leadingExponent significand shift - n)).map
        fun point => (⟨point, leadingExponent significand shift - n⟩ : Decimal)) := ⟨_, rfl⟩
  rw [← hfound]
  have hbounds : (found.getD ⟨0, 0⟩).significand ≤ 10 ^ 17 ∧
      -416 ≤ (found.getD ⟨0, 0⟩).exponent := by
    cases found with
    | none => exact ⟨Nat.zero_le _, by decide⟩
    | some d =>
      obtain ⟨n, hn, hpoint⟩ := List.exists_of_findSome?_eq_some hfound.symm
      obtain ⟨point, hgrid, rfl⟩ := Option.map_eq_some_iff.1 hpoint
      have hn17 : n < 17 := List.mem_range.1 hn
      have hlead : -400 ≤ leadingExponent significand shift := by
        have hpos : 0 < digitCount (significand * Nat.pow 2 shift * Nat.pow 10 400 / unitsPerOne) :=
          length_natDigits_pos _
        rw [leadingExponent]
        omega
      constructor
      · calc point ≤ 10 ^ (n + 1) := onGrid_le hgrid
          _ ≤ 10 ^ 17 := Nat.pow_le_pow_right (by decide) hn17
      · show -416 ≤ leadingExponent significand shift - n
        omega
  obtain ⟨hsignificand, hexponent⟩ := Decimal.strip_bounds 20 (found.getD ⟨0, 0⟩)
  constructor
  · rw [digitCount_le_iff (by decide)]
    omega
  · omega

theorem fractionLength_positional (d : Decimal) :
    fractionLength (positional d) = if 0 ≤ d.exponent then 1 else d.exponent.natAbs := by
  have hdigits := allDigits_natDigits d.significand
  simp only [positional]
  split_ifs with hwhole
  · have hfront : '.' ∉ natDigits d.significand ++ List.replicate d.exponent.toNat '0' :=
      (hdigits.append (allDigits_zeros _)).not_mem rfl
    rw [fractionLength_append hfront]
    rfl
  · have hlength := le_length_padLeft '0' (d.exponent.natAbs + 1) (natDigits d.significand)
    exact fractionLength_pointBefore (allDigits_padLeft hdigits _) (by omega)

theorem fractionLength_scientific (exponentWidth : Nat) (d : Decimal) :
    fractionLength (scientific exponentWidth d) = digitCount d.significand - 1 := by
  rw [scientific, fractionLength_pointAfterFirst (allDigits_natDigits _) (by simp)
    (not_mem_exponent _ _)]
  rfl

theorem fractionLength_decimal_le (layout : Layout) {d : Decimal}
    (hdigits : digitCount d.significand ≤ 18) (hexponent : -416 ≤ d.exponent) :
    fractionLength (layout.decimal d) ≤ 416 := by
  have hcases : layout.decimal d = scientific layout.exponentWidth d ∨
      layout.decimal d = positional d := ite_eq_or_eq _ _ _
  rcases hcases with hscientific | hpositional
  · rw [hscientific, fractionLength_scientific]
    omega
  · rw [hpositional, fractionLength_positional]
    split_ifs <;> omega

/-- The shortest text of a double has 416 digits after its point at most. -/
theorem fractionLength_text_le (layout : Layout) (x : Float) :
    fractionLength (layout.text x) ≤ 416 := by
  unfold Layout.text
  split
  · exact Nat.zero_le _
  · rw [fractionLength_signed]
    exact Nat.zero_le _
  · rw [fractionLength_signed]
    exact fractionLength_decimal_le layout (by decide) (by decide)
  · obtain ⟨hdigits, hexponent⟩ := shortest_bounds layout.tie _ _
    rw [fractionLength_signed]
    exact fractionLength_decimal_le layout hdigits hexponent

theorem fractionLength_intDigits (n : Int) : fractionLength (intDigits n) = 0 := by
  have hdigits := allDigits_natDigits n.natAbs
  rw [intDigits]
  split_ifs
  · rw [fractionLength_cons (by decide), fractionLength_of_not_mem (hdigits.not_mem rfl)]
  · exact fractionLength_of_not_mem (hdigits.not_mem rfl)

/-! ## Rounding to places -/

theorem fractionLength_roundedText_le (x : Float) :
    fractionLength (Filter.roundedText x) ≤ 416 := by
  unfold Filter.roundedText
  split_ifs
  · split
    · split_ifs
      · rw [fractionLength_intDigits]
        exact Nat.zero_le _
      · rw [fractionLength_fixed, ite_self]
        exact Nat.zero_le _
    · exact Nat.zero_le _
  · exact fractionLength_text_le _ x

/-- How many digits after its point a double rounded to places has. -/
theorem fractionLength_formatPlaces (places : Nat) (x : Float) :
    fractionLength (Filter.formatPlaces places x) =
      if isFinite x then min places Filter.maxPlaces else 0 := by
  rw [Filter.formatPlaces, if_pos (Int.natCast_nonneg places), fractionLength_fixed]
  rfl

/-- A negative number of places bounds the digits, and does not pad them. -/
theorem fractionLength_formatPlaces_le {decimals : Int} (h : decimals < 0) (x : Float) :
    fractionLength (Filter.formatPlaces decimals x) ≤ 416 := by
  rw [Filter.formatPlaces, if_neg h.not_ge]
  exact fractionLength_roundedText_le _

end Stencil.Double
