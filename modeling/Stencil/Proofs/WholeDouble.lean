import Stencil.Proofs.NearestDouble

/-!
# Whole doubles

A finite double is whole if its units make up whole ones. From `2⁵³` on every double is, since all
bits of its significand then count one or more. A whole double as an integer of 64 bits is the
number it stands for or, if that does not fit, the nearest bound.
-/

namespace Stencil.Double

variable {x : Float} {u n : Int}

/-- A significand has at most 53 bits. -/
theorem significand_lt {negative : Bool} {significand shift : Nat}
    (h : parts x = .finite negative significand shift) : significand < 2 ^ 53 := by
  have hfraction : x.toBits.toNat % leadingBit < leadingBit := Nat.mod_lt _ (by decide)
  have hleading : leadingBit + leadingBit = 2 ^ 53 := rfl
  simp only [parts] at h
  split_ifs at h
  all_goals
    simp only [Parts.finite.injEq] at h
    omega

/-- The units of a finite double are those of its significand. -/
theorem exists_parts_of_units? (h : units? x = some u) :
    ∃ negative significand shift, parts x = .finite negative significand shift ∧
      u.natAbs = significand * 2 ^ shift := by
  unfold units? at h
  cases hparts : parts x with
  | nan | infinite => simp [hparts] at h
  | finite negative significand shift =>
    refine ⟨negative, significand, shift, rfl, ?_⟩
    simp only [hparts, Option.some.injEq, Nat.pow_eq] at h
    rw [← h]
    cases negative with
    | false => exact Int.natAbs_natCast _
    | true => exact (Int.natAbs_neg _).trans (Int.natAbs_natCast _)

/-- The units of a large double make up whole ones. -/
theorem unitsPerOne_dvd_of_le (h : units? x = some u) (hlarge : 2 ^ 53 * unitsPerOne ≤ u.natAbs) :
    (unitsPerOne : Int) ∣ u := by
  obtain ⟨negative, significand, shift, hparts, hunits⟩ := exists_parts_of_units? h
  obtain ⟨place, hplace⟩ : ∃ place, place = 1074 := ⟨_, rfl⟩
  rw [unitsPerOne_eq hplace] at hlarge ⊢
  have hpow : 2 ^ 53 * 2 ^ place < 2 ^ 53 * 2 ^ shift := by
    calc 2 ^ 53 * 2 ^ place ≤ significand * 2 ^ shift := by rwa [← hunits]
      _ < 2 ^ 53 * 2 ^ shift :=
        Nat.mul_lt_mul_of_pos_right (significand_lt hparts) (Nat.two_pow_pos shift)
  have hle : place ≤ shift :=
    ((Nat.pow_lt_pow_iff_right (by decide)).1 (Nat.lt_of_mul_lt_mul_left hpow)).le
  rw [Int.natCast_dvd, hunits]
  exact (pow_dvd_pow 2 hle).mul_left significand

theorem isWhole_iff (h : units? x = some u) : isWhole x = true ↔ (unitsPerOne : Int) ∣ u := by
  simp only [isWhole, h, beq_iff_eq, Int.dvd_iff_emod_eq_zero]

/-- A whole double as an integer of 64 bits. -/
theorem toInt_of_units? (h : units? x = some (n * unitsPerOne)) :
    toInt x = max minInt (min maxInt n) := by
  obtain ⟨negative, significand, shift, hparts, -⟩ := exists_parts_of_units? h
  have hunits : (unitsPerOne : Int) ≠ 0 := by exact_mod_cast unitsPerOne_pos.ne'
  simp only [toInt, hparts, trunc?, h, Option.map_some, Option.getD_some,
    Int.mul_tdiv_cancel n hunits]

end Stencil.Double
