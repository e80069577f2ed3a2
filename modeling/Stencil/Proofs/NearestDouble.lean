import Mathlib
import Stencil.Double.Basic

/-!
# The double next to an integer

An integer is turned into the double nearest to it by its bits alone. What the double stands for is
the integer with all but its first 53 bits rounded away, so the larger of two integers never gets
the smaller double, and integers that get the same double are close to each other.
-/

namespace Stencil.Double

/-! ## Rounded quotients -/

/-- A rounded quotient is one of the two next to the fraction, and no farther than the other. -/
theorem roundDiv_cases (num den : Nat) :
    (roundDiv num den = num / den ∧ 2 * (num % den) ≤ den) ∨
      (roundDiv num den = num / den + 1 ∧ den ≤ 2 * (num % den)) := by
  unfold roundDiv
  dsimp only
  split
  · left
    omega
  · split
    · right
      omega
    · rcases Nat.mod_two_eq_zero_or_one (num / den) with heven | hodd
      · left
        omega
      · right
        omega

theorem roundDiv_mono {m n : Nat} (h : m ≤ n) (den : Nat) : roundDiv m den ≤ roundDiv n den := by
  have hquotient : m / den ≤ n / den := Nat.div_le_div_right h
  rcases hquotient.eq_or_lt with heq | hlt
  · -- With the same quotient the remainders are in order, and so is what is added for them.
    have hm : den * (m / den) + m % den = m := Nat.div_add_mod m den
    have hn : den * (n / den) + n % den = n := Nat.div_add_mod n den
    rw [heq] at hm
    have hmod : m % den ≤ n % den := by omega
    simp only [roundDiv, heq]
    split_ifs <;> omega
  · rcases roundDiv_cases m den with ⟨hm, -⟩ | ⟨hm, -⟩ <;>
      rcases roundDiv_cases n den with ⟨hn, -⟩ | ⟨hn, -⟩ <;> omega

theorem roundDiv_mul (q : Nat) {den : Nat} (hden : 0 < den) : roundDiv (q * den) den = q := by
  rw [roundDiv, Nat.mul_mod_left, Nat.mul_div_cancel q hden]
  exact if_pos hden

theorem roundDiv_mul_mul (num den : Nat) {c : Nat} (hc : 0 < c) :
    roundDiv (num * c) (den * c) = roundDiv num den := by
  simp only [roundDiv, Nat.mul_div_mul_right _ _ hc, Nat.mul_mod_mul_right, ← mul_assoc,
    Nat.mul_lt_mul_right hc]

/-- A rounded quotient differs from the fraction by at most one half. -/
theorem roundDiv_close (num : Nat) {den : Nat} (hden : 0 < den) :
    2 * (roundDiv num den * den) ≤ 2 * num + den ∧
      2 * num ≤ 2 * (roundDiv num den * den) + den := by
  have hsum : num / den * den + num % den = num := Nat.div_add_mod' num den
  have hlt : num % den < den := Nat.mod_lt num hden
  rcases roundDiv_cases num den with ⟨hround, hrest⟩ | ⟨hround, hrest⟩
  · rw [hround]
    omega
  · rw [hround, Nat.add_mul, one_mul]
    omega

/-! ## Integers of 53 bits -/

/-- What the last of the first 53 bits of a number counts. -/
def lastBit (n : Nat) : Nat := 2 ^ (n.log2 - 52)

/-- The number of at most 53 bits, and zeros behind them, that is nearest to a number; a tie goes to
the one with the even last bit. -/
def nearestNat (n : Nat) : Nat := roundDiv n (lastBit n) * lastBit n

/-- The same for an integer of either sign. -/
def nearest (n : Int) : Int := if n < 0 then -nearestNat n.natAbs else nearestNat n.natAbs

theorem lastBit_pos (n : Nat) : 0 < lastBit n := Nat.two_pow_pos _

/-- The first bit of a number in terms of the last one of its first 53. -/
theorem pow_log2_eq (n : Nat) : 2 ^ n.log2 = 2 ^ min n.log2 52 * lastBit n := by
  rw [lastBit, ← pow_add]
  congr 1
  omega

/-- The first 53 bits of a number are those of a significand, also if they are rounded up. -/
theorem roundDiv_lastBit_between {n : Nat} (hn : n ≠ 0) :
    2 ^ min n.log2 52 ≤ roundDiv n (lastBit n) ∧
      roundDiv n (lastBit n) ≤ 2 * 2 ^ min n.log2 52 := by
  have hlow : 2 ^ min n.log2 52 * lastBit n ≤ n := by
    rw [← pow_log2_eq]
    exact Nat.log2_self_le hn
  have hhigh : n ≤ 2 * 2 ^ min n.log2 52 * lastBit n := by
    rw [mul_assoc, ← pow_log2_eq, ← pow_succ']
    exact Nat.lt_log2_self.le
  constructor
  · calc 2 ^ min n.log2 52 = roundDiv (2 ^ min n.log2 52 * lastBit n) (lastBit n) :=
          (roundDiv_mul _ (lastBit_pos n)).symm
      _ ≤ roundDiv n (lastBit n) := roundDiv_mono hlow _
  · calc roundDiv n (lastBit n) ≤ roundDiv (2 * 2 ^ min n.log2 52 * lastBit n) (lastBit n) :=
          roundDiv_mono hhigh _
      _ = 2 * 2 ^ min n.log2 52 := roundDiv_mul _ (lastBit_pos n)

/-- Rounding does not leave the powers of two around a number. -/
theorem nearestNat_between {n : Nat} (hn : n ≠ 0) :
    2 ^ n.log2 ≤ nearestNat n ∧ nearestNat n ≤ 2 ^ (n.log2 + 1) := by
  have hbetween := roundDiv_lastBit_between hn
  rw [pow_succ', pow_log2_eq, ← mul_assoc]
  exact ⟨Nat.mul_le_mul_right _ hbetween.1, Nat.mul_le_mul_right _ hbetween.2⟩

theorem nearestNat_mono {m n : Nat} (h : m ≤ n) : nearestNat m ≤ nearestNat n := by
  rcases Nat.eq_zero_or_pos m with rfl | hm
  · exact Nat.zero_le _
  · have hlog : m.log2 ≤ n.log2 := by
      rw [Nat.log2_eq_log_two, Nat.log2_eq_log_two]
      exact Nat.log_mono_right h
    rcases hlog.eq_or_lt with heq | hlt
    · have hbit : lastBit m = lastBit n := by rw [lastBit, heq, lastBit]
      rw [nearestNat, nearestNat, hbit]
      exact Nat.mul_le_mul_right _ (roundDiv_mono h _)
    · -- A power of two lies between them.
      calc nearestNat m ≤ 2 ^ (m.log2 + 1) := (nearestNat_between hm.ne').2
        _ ≤ 2 ^ n.log2 := Nat.pow_le_pow_right (by decide) hlt
        _ ≤ nearestNat n := (nearestNat_between (by omega)).1

theorem nearest_mono {m n : Int} (h : m ≤ n) : nearest m ≤ nearest n := by
  unfold nearest
  split_ifs with hm hn hn
  · have hle : nearestNat n.natAbs ≤ nearestNat m.natAbs := nearestNat_mono (by omega)
    omega
  · omega
  · omega
  · have hle : nearestNat m.natAbs ≤ nearestNat n.natAbs := nearestNat_mono (by omega)
    omega

/-- Rounding changes an integer by at most half of its last bit. -/
theorem nearest_close (n : Int) : 2 * |nearest n - n| ≤ lastBit n.natAbs := by
  have hclose := roundDiv_close n.natAbs (lastBit_pos n.natAbs)
  rw [← nearestNat] at hclose
  unfold nearest
  rw [abs_eq_max_neg]
  split_ifs <;> omega

/-- Integers of less than 54 bits have a double of their own. -/
theorem nearest_eq_self {n : Int} (hn : n.natAbs < 2 ^ 53) : nearest n = n := by
  have hclose := nearest_close n
  have hlog : n.natAbs.log2 ≤ 52 := by
    rcases eq_or_ne n.natAbs 0 with hzero | hne
    · rw [hzero]
      decide
    · exact Nat.lt_succ_iff.1 ((Nat.log2_lt hne).2 hn)
  have hbit : lastBit n.natAbs = 1 := by
    rw [lastBit, Nat.sub_eq_zero_of_le hlog, pow_zero]
  rw [hbit, abs_eq_max_neg] at hclose
  omega

/-- So has the first integer of 54 bits. -/
theorem nearest_eq_self_of_le {n : Int} (hn : n.natAbs ≤ 2 ^ 53) : nearest n = n := by
  rcases hn.lt_or_eq with hlt | heq
  · exact nearest_eq_self hlt
  · rcases Int.natAbs_eq n with hpos | hneg
    · rw [hpos, heq]
      decide
    · rw [hneg, heq]
      decide

/-- Rounding leaves alone the numbers whose bits behind the first 53 are zeros. -/
theorem nearestNat_eq_self_iff {n : Nat} : nearestNat n = n ↔ lastBit n ∣ n := by
  obtain ⟨bit, hbit⟩ : ∃ bit, bit = lastBit n := ⟨_, rfl⟩
  have hpos : 0 < bit := by
    rw [hbit]
    exact lastBit_pos n
  rw [nearestNat, ← hbit]
  constructor
  · intro h
    exact Dvd.intro_left _ h
  · rintro ⟨k, rfl⟩
    rw [mul_comm bit k, roundDiv_mul k hpos]

theorem nearest_eq_self_iff {n : Int} : nearest n = n ↔ lastBit n.natAbs ∣ n.natAbs := by
  rw [← nearestNat_eq_self_iff, nearest]
  split_ifs <;> omega

/-! ## Bits -/

/-- A double is made of its bits, but for those of a NaN. -/
theorem toBits_ofBits {bits : UInt64} (h : bits.toNat / leadingBit % 2048 ≠ 2047) :
    (Float.ofBits bits).toBits = bits := by
  have hnumber : ¬@Float.Model.UnpackedFloat.isNaNBits .binary64 bits.toBitVec = true := by
    rw [Float.Model.UnpackedFloat.isNaNBits, decide_eq_true_iff]
    rintro ⟨hexponent, -⟩
    apply h
    rw [Float.Model.UnpackedFloat.unpackExponent_def, ← BitVec.toNat_inj,
      BitVec.extractLsb'_toNat, Nat.shiftRight_eq_div_pow] at hexponent
    exact hexponent
  rw [← UInt64.toBitVec_inj]
  show Float.Model.UnpackedFloat.pack _ (Float.Model.UnpackedFloat.unpack _ _) = _
  rw [Float.Model.UnpackedFloat.pack_unpack, if_neg hnumber]

/-- What is read off the bits of a finite double. -/
theorem parts_ofBits (negative : Bool) {pattern : Nat} (hfinite : pattern < 2047 * leadingBit) :
    parts (Float.ofBits (UInt64.ofNat (if negative then signBit + pattern else pattern))) =
      if pattern < leadingBit then .finite negative pattern 0
      else .finite negative (leadingBit + pattern % leadingBit) (pattern / leadingBit - 1) := by
  obtain ⟨word, hword⟩ : ∃ word, word = if negative then signBit + pattern else pattern :=
    ⟨_, rfl⟩
  have hsum : word = negative.toNat * signBit + pattern := by
    rw [hword]
    cases negative <;> simp
  have hbool : negative.toNat < 2 := negative.toNat_lt
  simp only [leadingBit, signBit] at hfinite hsum
  have hbits : (UInt64.ofNat word).toNat = word := by
    rw [UInt64.toNat_ofNat', Nat.mod_eq_of_lt (by omega)]
  have hfield : word / leadingBit % 2048 = pattern / leadingBit := by
    simp only [leadingBit]
    omega
  have hfraction : word % leadingBit = pattern % leadingBit := by
    simp only [leadingBit]
    omega
  have hsign : (word / signBit = 1) = (negative = true) := by
    have hquotient : word / signBit = negative.toNat := by
      simp only [signBit]
      omega
    rw [hquotient, Bool.toNat_eq_one]
  have hnumber : pattern / leadingBit ≠ 2047 := by
    simp only [leadingBit]
    omega
  have htoBits : (Float.ofBits (UInt64.ofNat word)).toBits = UInt64.ofNat word :=
    toBits_ofBits (by rwa [hbits, hfield])
  simp only [← hword, parts, htoBits, hbits, hsign, hfield, hfraction, if_neg hnumber,
    Bool.decide_eq_true, Nat.div_eq_zero_iff_lt (show 0 < leadingBit by decide)]
  split_ifs with hsmall
  · rw [Nat.mod_eq_of_lt hsmall]
  · rfl

/-- An exponent added to a significand in the bits of a double multiplies it by a power of two. A
significand that was rounded up to the next power of two carries into the exponent. -/
theorem units?_ofBits (negative : Bool) {shift significand : Nat} (hlow : leadingBit ≤ significand)
    (hhigh : significand ≤ 2 * leadingBit) (hshift : shift < 2045) :
    let pattern := shift * leadingBit + significand
    let magnitude := significand * 2 ^ shift
    units? (Float.ofBits (UInt64.ofNat (if negative then signBit + pattern else pattern))) =
      some (if negative then -(magnitude : Int) else magnitude) := by
  intro pattern magnitude
  have hfinite : pattern < 2047 * leadingBit := by
    simp only [pattern, leadingBit] at *
    omega
  have hnormal : ¬pattern < leadingBit := by
    simp only [pattern]
    omega
  have hmagnitude :
      (leadingBit + pattern % leadingBit) * Nat.pow 2 (pattern / leadingBit - 1) = magnitude := by
    rcases hhigh.eq_or_lt with heq | hlt
    · have hpattern : pattern = (shift + 2) * leadingBit := by
        simp only [pattern, heq]
        ring
      rw [hpattern, Nat.mul_mod_left, Nat.mul_div_cancel _ (by decide), Nat.add_zero]
      show leadingBit * 2 ^ (shift + 1) = significand * 2 ^ shift
      rw [heq]
      ring
    · have hquotient : pattern / leadingBit = shift + 1 := by
        simp only [pattern, leadingBit] at *
        omega
      have hrest : leadingBit + pattern % leadingBit = significand := by
        simp only [pattern, leadingBit] at *
        omega
      rw [hquotient, hrest]
      rfl
  rw [units?, parts_ofBits negative hfinite, if_neg hnormal]
  simp only [hmagnitude]

/-- The exponent of the unit is a variable so that the power is never worked out. -/
theorem unitsPerOne_eq {place : Nat} (hplace : place = 1074) : unitsPerOne = 2 ^ place := by
  unfold unitsPerOne
  rw [← hplace, Nat.pow_eq]

theorem unitsPerOne_pos : 0 < unitsPerOne := by
  obtain ⟨place, hplace⟩ : ∃ place, place = 1074 := ⟨_, rfl⟩
  rw [unitsPerOne_eq hplace]
  exact Nat.two_pow_pos place

/-- The first bit of a number counted in units. -/
theorem log2_units {n : Nat} (hn : n ≠ 0) : (n * unitsPerOne).log2 = n.log2 + 1074 := by
  obtain ⟨place, hplace⟩ : ∃ place, place = 1074 := ⟨_, rfl⟩
  rw [unitsPerOne_eq hplace, ← hplace,
    Nat.log2_eq_iff (Nat.mul_ne_zero hn (Nat.two_pow_pos _).ne')]
  constructor
  · rw [pow_add]
    exact Nat.mul_le_mul_right _ (Nat.log2_self_le hn)
  · rw [Nat.add_right_comm, pow_add]
    exact Nat.mul_lt_mul_of_pos_right Nat.lt_log2_self (Nat.two_pow_pos _)

/-- Counted in units the first 53 bits of a number are the same, with zeros behind them if the
number has fewer bits. -/
theorem roundDiv_units (n : Nat) :
    roundDiv (n * unitsPerOne) (2 ^ (n.log2 + 1022)) =
      roundDiv n (lastBit n) * 2 ^ (52 - n.log2) := by
  obtain ⟨rest, hrest⟩ : ∃ rest, rest = min n.log2 52 + 1022 := ⟨_, rfl⟩
  have hunits : unitsPerOne = 2 ^ (52 - n.log2) * 2 ^ rest := by
    rw [← pow_add]
    exact unitsPerOne_eq (by omega)
  have hplace : 2 ^ (n.log2 + 1022) = lastBit n * 2 ^ rest := by
    rw [show n.log2 + 1022 = n.log2 - 52 + rest by omega, pow_add, ← lastBit]
  rw [hunits, hplace, ← mul_assoc, roundDiv_mul_mul _ _ (Nat.two_pow_pos _)]
  rcases Nat.le_total n.log2 52 with hshort | hlong
  · have hbit : lastBit n = 1 := by rw [lastBit, Nat.sub_eq_zero_of_le hshort, pow_zero]
    have hexact (q : Nat) : roundDiv q 1 = q := by
      rw [← Nat.mul_one q, roundDiv_mul _ Nat.one_pos, Nat.mul_one]
    rw [hbit, hexact, hexact]
  · rw [Nat.sub_eq_zero_of_le hlong, pow_zero, Nat.mul_one, Nat.mul_one]

/-- The rounded number of units of a number that is not zero fills a significand. -/
theorem significand_between {n : Nat} (hn : n ≠ 0) :
    let significand := roundDiv n (lastBit n) * 2 ^ (52 - n.log2)
    leadingBit ≤ significand ∧ significand ≤ 2 * leadingBit := by
  have hleading : 2 ^ min n.log2 52 * 2 ^ (52 - n.log2) = leadingBit := by
    rw [← pow_add, show min n.log2 52 + (52 - n.log2) = 52 by omega]
    rfl
  obtain ⟨hlow, hhigh⟩ := roundDiv_lastBit_between hn
  rw [← hleading, ← mul_assoc]
  exact ⟨Nat.mul_le_mul_right _ hlow, Nat.mul_le_mul_right _ hhigh⟩

/-- The significand at its place is the nearest number of 53 bits, counted in units. -/
theorem significand_mul_pow (n : Nat) :
    roundDiv n (lastBit n) * 2 ^ (52 - n.log2) * 2 ^ (n.log2 + 1022) =
      nearestNat n * unitsPerOne := by
  obtain ⟨place, hplace⟩ : ∃ place, place = 1074 := ⟨_, rfl⟩
  rw [nearestNat, unitsPerOne_eq hplace, mul_assoc, mul_assoc, lastBit, ← pow_add, ← pow_add,
    show 52 - n.log2 + (n.log2 + 1022) = n.log2 - 52 + place by omega]

/-- The bits of the double of an integer other than zero. -/
theorem ofInt_eq_ofBits {n : Int} (hne : n.natAbs ≠ 0) (hn : n.natAbs < 2 ^ 64) :
    let log := n.natAbs.log2
    let significand := roundDiv n.natAbs (lastBit n.natAbs) * 2 ^ (52 - log)
    let pattern := (log + 1022) * leadingBit + significand
    ofInt n = Float.ofBits (UInt64.ofNat
      (if decide (n < 0) then signBit + pattern else pattern)) := by
  intro log significand pattern
  have hlog : log < 64 := (Nat.log2_lt hne).2 hn
  have hshift : (n.natAbs * unitsPerOne / 1).log2 - 52 = log + 1022 := by
    rw [Nat.div_one, log2_units hne]
    omega
  have hrounded : roundDiv (n.natAbs * unitsPerOne) (1 * Nat.pow 2 (log + 1022)) = significand := by
    rw [one_mul, Nat.pow_eq, roundDiv_units]
  have hfinite : min ((log + 1022) * leadingBit + significand) (2047 * leadingBit) = pattern := by
    have hhigh : significand ≤ 2 * leadingBit := (significand_between hne).2
    apply Nat.min_eq_left
    simp only [leadingBit] at hhigh ⊢
    omega
  simp only [ofInt, ofRatio, hshift, hrounded, hfinite]

theorem units?_ofInt_zero : units? (ofInt 0) = some 0 := by
  have hbits : ofInt 0 = Float.ofBits (UInt64.ofNat 0) := by
    simp only [ofInt, ofRatio, Int.natAbs_zero, Nat.zero_mul]
    rfl
  have hparts : parts (Float.ofBits (UInt64.ofNat 0)) = .finite false 0 0 :=
    parts_ofBits false (show 0 < 2047 * leadingBit by decide)
  simp only [units?, hbits, hparts, Nat.zero_mul]
  rfl

/-- The double of an integer stands for the nearest integer of 53 bits. -/
theorem units?_ofInt {n : Int} (hn : n.natAbs < 2 ^ 64) :
    units? (ofInt n) = some (nearest n * unitsPerOne) := by
  rcases eq_or_ne n.natAbs 0 with hzero | hne
  · obtain rfl : n = 0 := Int.natAbs_eq_zero.1 hzero
    rw [units?_ofInt_zero, show nearest 0 = 0 from rfl, Int.zero_mul]
  · have hlog : n.natAbs.log2 < 64 := (Nat.log2_lt hne).2 hn
    obtain ⟨hlow, hhigh⟩ := significand_between hne
    rw [ofInt_eq_ofBits hne hn, units?_ofBits _ hlow hhigh (by omega), significand_mul_pow, nearest]
    simp only [decide_eq_true_eq, Nat.cast_mul]
    split_ifs
    · rw [Int.neg_mul]
    · rfl

/-! ## Order -/

/-- Finite doubles are in the order of what they stand for. -/
theorem order?_of_units? {x y : Float} {u v : Int} (hx : units? x = some u)
    (hy : units? y = some v) : order? x y = some (compare u v) := by
  unfold units? at hx hy
  cases hxparts : parts x with
  | nan | infinite => simp [hxparts] at hx
  | finite =>
    cases hyparts : parts y with
    | nan | infinite => simp [hyparts] at hy
    | finite =>
      simp only [hxparts, hyparts, Option.some.injEq] at hx hy
      rw [order?, hxparts, hyparts, ← hx, ← hy]

/-- The doubles of two integers are in the order of the nearest integers of 53 bits. -/
theorem order?_ofInt {m n : Int} (hm : m.natAbs < 2 ^ 64) (hn : n.natAbs < 2 ^ 64) :
    order? (ofInt m) (ofInt n) = some (compare (nearest m) (nearest n)) := by
  have hunits : (0 : Int) < unitsPerOne := by exact_mod_cast unitsPerOne_pos
  rw [order?_of_units? (units?_ofInt hm) (units?_ofInt hn)]
  simp only [compare, compareOfLessAndEq, Int.mul_lt_mul_right hunits,
    Int.mul_eq_mul_right_iff hunits.ne']

end Stencil.Double
