import Stencil.Proofs.Arguments
import Stencil.Proofs.IntegerArithmetic
import Stencil.Proofs.WholeDouble

/-!
# Searching by a number

An integer field matches an expected number if it is the same number, be that written as an integer
or as a double. The expected number is brought to 64 bits with a sign first (`coerceLike?`), and one
that does not fit becomes the nearest bound. So no field matches such a number by its value, not
even the field that holds it, while a field that holds the bound matches all of them.
-/

namespace Stencil.Filter

open Condition (fits_iff)

/-! ## Expected numbers -/

/-- The number that an integer or a finite double stands for. Integers are those that data can
hold. -/
inductive Denotes : Value → ℚ → Prop
  | int {n : Int} : -2 ^ 63 ≤ n → n < 2 ^ 64 → Denotes (.int n) n
  | float {x : Float} {u : Int} : Double.units? x = some u →
      Denotes (.float x) (u / Double.unitsPerOne)

/-- The number that integer fields are compared with: the bound next to a number that does not fit
in 64 bits with a sign, else the number itself. -/
def saturated (q : ℚ) : ℚ := if q < -2 ^ 63 then -2 ^ 63 else if 2 ^ 63 ≤ q then 2 ^ 63 - 1 else q

theorem saturated_intCast (n : Int) : saturated n = (Value.clampInt n : ℚ) := by
  have hlow : (n : ℚ) < -2 ^ 63 ↔ n < -2 ^ 63 := by exact_mod_cast Iff.rfl
  have hhigh : (2 : ℚ) ^ 63 ≤ n ↔ 2 ^ 63 ≤ n := by exact_mod_cast Iff.rfl
  simp only [saturated, hlow, hhigh, Value.clampInt, Double.minInt, Double.maxInt]
  split_ifs with hbelow habove
  · rw [max_eq_left (by omega)]
    norm_num
  · rw [min_eq_left (by omega), max_eq_right (by omega)]
    norm_num
  · rw [min_eq_right (by omega), max_eq_right (by omega)]

theorem saturated_of_abs_lt {q : ℚ} (h : |q| < 2 ^ 63) : saturated q = q := by
  obtain ⟨hlow, hhigh⟩ := abs_lt.1 h
  rw [saturated, if_neg hlow.not_gt, if_neg hhigh.not_ge]

/-- Beyond 64 bits with a sign rounding to a double does not bring an integer back. -/
theorem clampInt_nearest {n : Int} (h : 2 ^ 63 ≤ n) :
    Value.clampInt (Double.nearest n) = Value.clampInt n := by
  have hnearest : 2 ^ 63 ≤ Double.nearest n := by
    calc (2 ^ 63 : Int) = Double.nearest (2 ^ 63) := by decide
      _ ≤ Double.nearest n := Double.nearest_mono h
  simp only [Value.clampInt, Double.minInt, Double.maxInt]
  omega

theorem clampInt_of_fits {n : Int} (h : Double.fits n = true) : Value.clampInt n = n := by
  rw [fits_iff] at h
  simp only [Value.clampInt, Double.minInt, Double.maxInt]
  omega

theorem wholeInt?_of_units? {x : Float} {n : Int}
    (h : Double.units? x = some (n * Double.unitsPerOne)) :
    wholeInt? x = some (Value.clampInt n) := by
  rw [wholeInt?, if_pos ((Double.isWhole_iff h).2 (Int.dvd_mul_left _ _)),
    Double.toInt_of_units? h, Value.clampInt]

/-- An integer that data can hold becomes the nearest one of 64 bits with a sign. -/
theorem expectedInt?_int {n : Int} (hlow : -2 ^ 63 ≤ n) (hhigh : n < 2 ^ 64) :
    expectedInt? (.int n) = some (Value.clampInt n) := by
  by_cases hfits : Double.fits n = true
  · rw [expectedInt?, if_pos hfits, clampInt_of_fits hfits]
  · have hlarge : 2 ^ 63 ≤ n := by
      rw [fits_iff] at hfits
      omega
    rw [expectedInt?, if_neg hfits, wholeInt?_of_units? (Double.units?_ofInt (by omega)),
      clampInt_nearest hlarge]

/-- A finite double with a fraction is small. -/
theorem abs_lt_of_not_dvd {x : Float} {u : Int} (hunits : Double.units? x = some u)
    (hnot : ¬(Double.unitsPerOne : Int) ∣ u) : |(u : ℚ) / Double.unitsPerOne| < 2 ^ 53 := by
  have hpos : (0 : ℚ) < Double.unitsPerOne := by exact_mod_cast Double.unitsPerOne_pos
  have hsmall : u.natAbs < 2 ^ 53 * Double.unitsPerOne := by
    by_contra! hlarge
    exact hnot (Double.unitsPerOne_dvd_of_le hunits hlarge)
  rw [abs_div, abs_of_pos hpos, div_lt_iff₀ hpos, ← Int.cast_abs, Int.abs_eq_natAbs]
  exact_mod_cast hsmall

/-- A number is either whole, and becomes the nearest integer of 64 bits, or small, and becomes
none. -/
theorem Denotes.cases {expected : Value} {q : ℚ} (h : Denotes expected q) :
    (∃ n : Int, q = n ∧ expectedInt? expected = some (Value.clampInt n)) ∨
      ((∀ n : Int, q ≠ n) ∧ |q| < 2 ^ 53 ∧ expectedInt? expected = none) := by
  cases h with
  | @int n hlow hhigh => exact .inl ⟨n, rfl, expectedInt?_int hlow hhigh⟩
  | @float x u hunits =>
    have hne : (Double.unitsPerOne : ℚ) ≠ 0 := by exact_mod_cast Double.unitsPerOne_pos.ne'
    by_cases hdvd : (Double.unitsPerOne : Int) ∣ u
    · obtain ⟨n, rfl⟩ := hdvd
      refine .inl ⟨n, ?_, ?_⟩
      · rw [Int.cast_mul, Int.cast_natCast, mul_div_cancel_left₀ _ hne]
      · rw [mul_comm] at hunits
        exact wholeInt?_of_units? hunits
    · refine .inr ⟨?_, abs_lt_of_not_dvd hunits hdvd, ?_⟩
      · intro n hn
        rw [div_eq_iff hne, mul_comm] at hn
        exact hdvd ⟨n, by exact_mod_cast hn⟩
      · rw [expectedInt?, wholeInt?, if_neg fun h => hdvd ((Double.isWhole_iff hunits).1 h)]

theorem expectedInt?_eq_some_iff {expected : Value} {q : ℚ} (h : Denotes expected q) (f : Int) :
    expectedInt? expected = some f ↔ (f : ℚ) = saturated q := by
  rcases h.cases with ⟨n, rfl, hread⟩ | ⟨hfraction, hsmall, hnone⟩
  · rw [hread, saturated_intCast, Option.some_inj, Int.cast_inj, eq_comm]
  · have hsame : saturated q = q := saturated_of_abs_lt (hsmall.trans (by norm_num))
    rw [hnone, hsame]
    constructor
    · intro hsome
      cases hsome
    · intro hf
      exact absurd hf.symm (hfraction f)

/-- Whether an integer field matches an expected number. -/
theorem fieldMatches_int_iff {path : String} {expected item : Value} {q : ℚ} {f : Int}
    (h : Denotes expected q) (hwalk : item.walk path = .ok (.int f)) :
    fieldMatches path expected item = true ↔ (f : ℚ) = saturated q := by
  have hcoerce : coerceLike? (.int f) expected = (expectedInt? expected).map .int := by
    cases h <;> rfl
  rw [← expectedInt?_eq_some_iff h, fieldMatches, hwalk]
  simp only [hcoerce]
  cases expectedInt? expected with
  | none => simp
  | some n => simp [Value.same]

/-! ## The two searches -/

section Search

variable {path : String} (hpath : path ≠ "") (expected : Value)
include hpath

/-- A path that is not empty and any expected value are accepted. -/
theorem resolveArguments_search {f : Filter} (hf : f.parameters = find.parameters) :
    f.resolveArguments [.str path, expected] = pure [.str path, expected] := by
  have hfirst : Parameter.Takes ⟨[.str], .str "", [.str ""]⟩ (.str path) := by
    refine ⟨.inl (by simp [Value.type]), ?_⟩
    simp [Constant.matches, hpath.symm]
  have hsecond : Parameter.Takes ⟨anyType, .null, []⟩ expected := by
    refine ⟨.inl ?_, by simp⟩
    cases expected <;> simp [Value.type, anyType]
  rw [resolveArguments, hf]
  exact resolveFrom_of_takes f 1 (.cons hfirst (.cons hsecond .nil))

theorem matching_path (items : List Value) :
    matching items (Value.str path).display expected =
      items.filter (fieldMatches path expected) := by
  have hdisplay : (Value.str path).display = path := by
    rw [Value.display, Value.displayChars, String.ofList_toList]
  rw [hdisplay, matching, if_neg (by simpa using hpath)]

theorem apply_findAll (items : List Value) (s : Surroundings) :
    findAll.apply s (.list items) [.str path, expected] =
      pure (.list (items.filter (fieldMatches path expected))) := by
  rw [← matching_path hpath, apply, resolveArguments_search (f := findAll) hpath expected rfl]
  rfl

theorem apply_find (items : List Value) (s : Surroundings) :
    find.apply s (.list items) [.str path, expected] =
      pure ((items.filter (fieldMatches path expected)).head?.getD .null) := by
  rw [← matching_path hpath, apply, resolveArguments_search (f := find) hpath expected rfl]
  rfl

end Search

/-- A search by a number keeps items of a list in their order, each as often as it is there, and the
single search gives the first of them or null; neither tells an event. An item with an integer field
is kept if and only if the field is the expected number or, where that does not fit in 64 bits with
a sign, the bound next to it. -/
theorem searched_by_number_unless_saturated {path : String} (hpath : path ≠ "") {expected : Value}
    {q : ℚ} (hexpected : Denotes expected q) (items : List Value) (s : Surroundings) :
    ∃ keeps : Value → Bool,
      findAll.apply s (.list items) [.str path, expected] = pure (.list (items.filter keeps)) ∧
      find.apply s (.list items) [.str path, expected] =
        pure ((items.filter keeps).head?.getD .null) ∧
      ∀ item ∈ items, ∀ f : Int, item.walk path = .ok (.int f) →
        (keeps item = true ↔
          (f : ℚ) = if q < -2 ^ 63 then -2 ^ 63 else if 2 ^ 63 ≤ q then 2 ^ 63 - 1 else q) := by
  refine ⟨fieldMatches path expected, apply_findAll hpath expected items s,
    apply_find hpath expected items s, ?_⟩
  intro item _ f hwalk
  exact fieldMatches_int_iff hexpected hwalk

/-- The greatest integer with a sign is found, behind the one after it. -/
theorem searched_by_number_unless_saturated_greatest :
    let beyond : Value := .dict [("id", .int (2 ^ 63))]
    let greatest : Value := .dict [("id", .int (2 ^ 63 - 1))]
    "id" ≠ "" ∧ Denotes (.int (2 ^ 63 - 1)) (2 ^ 63 - 1 : Int) ∧ ∀ s : Surroundings,
      findAll.apply s (.list [beyond, greatest]) [.str "id", .int (2 ^ 63 - 1)] =
          pure (.list [greatest]) ∧
        find.apply s (.list [beyond, greatest]) [.str "id", .int (2 ^ 63 - 1)] = pure greatest := by
  intro beyond greatest
  have hpath : "id" ≠ "" := by decide
  have hnumber : Denotes (.int (2 ^ 63 - 1)) (2 ^ 63 - 1 : Int) := .int (by decide) (by decide)
  have hbeyond : beyond.walk "id" = .ok (.int (2 ^ 63)) := rfl
  have hgreatest : greatest.walk "id" = .ok (.int (2 ^ 63 - 1)) := rfl
  refine ⟨hpath, hnumber, fun s => ?_⟩
  obtain ⟨keeps, hall, hone, hkeeps⟩ :=
    searched_by_number_unless_saturated hpath hnumber [beyond, greatest] s
  have hdropped : ¬keeps beyond = true := by
    rw [hkeeps beyond (by simp) _ hbeyond]
    norm_num
  have hkept : keeps greatest = true := by
    rw [hkeeps greatest (by simp) _ hgreatest]
    norm_num
  have hfilter : [beyond, greatest].filter keeps = [greatest] := by
    rw [List.filter_cons_of_neg hdropped, List.filter_cons_of_pos hkept, List.filter_nil]
  rw [hfilter] at hall hone
  exact ⟨hall, hone⟩

/-- The first integer that does not fit in 64 bits with a sign is not found by its own value. -/
theorem own_number_not_found :
    ¬∀ (path : String) (items : List Value) (expected : Value) (q : ℚ) (s : Surroundings),
      path ≠ "" → (∀ item ∈ items, item.type = .dict) → Denotes expected q →
        ∃ kept : List Value,
          findAll.apply s (.list items) [.str path, expected] = pure (.list kept) ∧
            ∀ item ∈ items, ∀ f : Int, -2 ^ 63 ≤ f → f < 2 ^ 64 →
              item.walk path = .ok (.int f) → (item ∈ kept ↔ (f : ℚ) = q) := by
  intro hall
  let item : Value := .dict [("id", .int (2 ^ 63))]
  have hpath : "id" ≠ "" := by decide
  have hwalk : item.walk "id" = .ok (.int (2 ^ 63)) := rfl
  have hnumber : Denotes (.int (2 ^ 63)) (2 ^ 63 : Int) := .int (by decide) (by decide)
  have hdropped : ¬fieldMatches "id" (.int (2 ^ 63)) item = true := by
    rw [fieldMatches_int_iff hnumber hwalk]
    norm_num [saturated]
  obtain ⟨kept, hkept, hvalue⟩ := hall "id" [item] (.int (2 ^ 63)) (2 ^ 63 : Int)
    ⟨⟨0, 0, 0⟩, fun _ => 0⟩ hpath (by simp [item, Value.type]) hnumber
  rw [apply_findAll hpath, List.filter_cons_of_neg hdropped, List.filter_nil] at hkept
  obtain rfl : [] = kept := Value.list.inj (congrArg Logged.value hkept)
  have hmem := (hvalue item (by simp) (2 ^ 63) (by decide) (by decide) hwalk).2 rfl
  exact List.not_mem_nil hmem

end Stencil.Filter
