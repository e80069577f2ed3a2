import Stencil.Filter.Apply
import Stencil.Proofs.IntegerArithmetic
import Stencil.Proofs.Paths
import Stencil.Proofs.Words

/-!
# Slices

A slice (`SliceBounds.pick`) takes the items that an arithmetic progression of indices meets: from a
first index, a step apart, up to a limit. Both ends are bounds that may count from the end of the
sequence and may lie outside it. The walk along the progression takes the items that stand there and
no others, and on integers of 64 bits it is the same walk: no sum on its way is too large, except
for the one behind the last index, which ends it.
-/

namespace Stencil

namespace Filter

open Condition (fitting? fits_iff)
open Double (fits)

/-! ## Where a slice begins and stops -/

/-- The least place that steps begin or stop at: steps back stop before the first item. -/
def lowEnd (step : Int) : Int := if step < 0 then -1 else 0

/-- The greatest such place: steps forward stop behind the last item. -/
def highEnd (step length : Int) : Int := if step < 0 then length - 1 else length

/-- The place of a bound in a sequence. A bound below zero counts from the end, and one that is
outside the sequence is moved to the nearest place that steps can begin or stop at. -/
def clip (step length index : Int) : Int :=
  if index < 0 then
    if index + length < 0 then lowEnd step else index + length
  else if length ≤ index then highEnd step length else index

/-- Whether an index lies before a stop on the way of a step. -/
def Before (step stop index : Int) : Prop := if step < 0 then stop < index else index < stop

instance (step stop index : Int) : Decidable (Before step stop index) :=
  inferInstanceAs (Decidable (if step < 0 then stop < index else index < stop))

namespace SliceBounds

variable (b : SliceBounds)

/-- The place where a slice begins. -/
def first (length : Int) : Int :=
  match b.start with
  | none => if b.step < 0 then length - 1 else 0
  | some index => clip b.step length index

/-- The place where a slice stops, which it does not take. -/
def limit (length : Int) : Int :=
  match b.stop with
  | none => if b.step < 0 then -1 else length
  | some index => clip b.step length index

/-- The place of a slice behind a number of steps. -/
def place (length : Int) (k : Nat) : Int := b.first length + k * b.step

/-- Whether a slice gets so many steps far before it stops. -/
def Takes (length : Int) (k : Nat) : Prop := Before b.step (b.limit length) (b.place length k)

instance (length : Int) (k : Nat) : Decidable (b.Takes length k) :=
  inferInstanceAs (Decidable (Before b.step (b.limit length) (b.place length k)))

end SliceBounds

theorem moveInto_eq_clip (step : Int) {length : Int} (hlength : 0 ≤ length) (index : Int) :
    moveInto length (lowEnd step) (highEnd step length) index = clip step length index := by
  simp only [moveInto, clip, lowEnd, highEnd]
  split_ifs <;> omega

theorem clip_between (step : Int) {length : Int} (hlength : 0 ≤ length) (index : Int) :
    lowEnd step ≤ clip step length index ∧ clip step length index ≤ highEnd step length := by
  unfold clip lowEnd highEnd
  split_ifs <;> omega

namespace SliceBounds

/-- The walk of a slice begins at its first place and stops at its limit. -/
theorem ends_eq {b : SliceBounds} (hstep : b.step ≠ 0) (length : Nat) :
    b.ends length = (b.first length, b.limit length) := by
  have hmove := funext (moveInto_eq_clip b.step (Int.natCast_nonneg length))
  obtain ⟨start, stop, step⟩ := b
  rcases Int.lt_or_gt_of_ne hstep with hneg | hpos
  · simp only [lowEnd, highEnd, if_pos hneg] at hmove
    simp only [ends, if_neg hneg.not_gt, hmove]
    cases start <;> cases stop <;> simp [first, limit, hneg]
  · simp only [lowEnd, highEnd, if_neg hpos.not_gt] at hmove
    simp only [ends, if_pos hpos, hmove]
    cases start <;> cases stop <;> simp [first, limit, hpos.not_gt]

theorem first_between (b : SliceBounds) {length : Int} (hlength : 0 ≤ length) :
    lowEnd b.step ≤ b.first length ∧ b.first length ≤ highEnd b.step length := by
  unfold first
  cases b.start with
  | none =>
    simp only [lowEnd, highEnd]
    split_ifs <;> omega
  | some index => exact clip_between b.step hlength index

theorem limit_between (b : SliceBounds) {length : Int} (hlength : 0 ≤ length) :
    lowEnd b.step ≤ b.limit length ∧ b.limit length ≤ highEnd b.step length := by
  unfold limit
  cases b.stop with
  | none =>
    simp only [lowEnd, highEnd]
    split_ifs <;> omega
  | some index => exact clip_between b.step hlength index

/-- Every place that a slice takes is the index of an item, and it takes no more places than there
are items. -/
theorem Takes.inRange {b : SliceBounds} (hstep : b.step ≠ 0) {length : Int}
    (hlength : 0 ≤ length) {k : Nat} (h : b.Takes length k) :
    0 ≤ b.place length k ∧ b.place length k < length ∧ (k : Int) < length := by
  have hfirst := b.first_between hlength
  have hlimit := b.limit_between hlength
  rw [lowEnd, highEnd] at hfirst hlimit
  rw [Takes, Before, place] at h
  rw [place]
  -- After k steps the walk is at least k places away from where it began.
  rcases Int.lt_or_gt_of_ne hstep with hneg | hpos
  · have hfar : (k : Int) * b.step ≤ -k := by nlinarith
    simp only [if_pos hneg] at hfirst hlimit h
    omega
  · have hfar : (k : Int) ≤ k * b.step := by nlinarith
    simp only [if_neg hpos.not_gt] at hfirst hlimit h
    omega

end SliceBounds

/-! ## The walk -/

/-- Where a function is defined on all members of a list, none is left out. -/
theorem getElem?_filterMap_of_isSome {α β : Type} {f : α → Option β} {xs : List α}
    (h : ∀ x ∈ xs, (f x).isSome) (k : Nat) : (xs.filterMap f)[k]? = xs[k]?.bind f := by
  induction xs generalizing k with
  | nil => rfl
  | cons x xs ih =>
    obtain ⟨y, hy⟩ := Option.isSome_iff_exists.1 (h x (by simp))
    rw [List.filterMap_cons_some hy]
    cases k with
    | zero => simp [hy]
    | succ k => exact ih (fun z hz => h z (by simp [hz])) k

section Walk

variable {step : Int} (hstep : step ≠ 0)
include hstep

theorem before_iff (stop index : Int) :
    0 < step ∧ index < stop ∨ step < 0 ∧ stop < index ↔ Before step stop index := by
  unfold Before
  split <;> omega

theorem stepIndices_of_before {stop index : Int} (h : Before step stop index) :
    stepIndices step stop index = index.toNat :: stepIndices step stop (index + step) := by
  rw [stepIndices, if_pos ((before_iff hstep stop index).2 h)]

theorem stepIndices_of_not_before {stop index : Int} (h : ¬Before step stop index) :
    stepIndices step stop index = [] := by
  rw [stepIndices, if_neg fun hcode => h ((before_iff hstep stop index).1 hcode)]

omit hstep in
/-- What lies before the stop after some steps does so from the start. -/
theorem Before.of_later {stop index : Int} {k : Nat} (h : Before step stop (index + k * step)) :
    Before step stop index := by
  unfold Before at h ⊢
  split at h
  · rename_i hneg
    have hfar : (k : Int) * step ≤ 0 := Int.mul_nonpos_of_nonneg_of_nonpos (by omega) (by omega)
    rw [if_pos hneg]
    omega
  · rename_i hpos
    have hfar : 0 ≤ (k : Int) * step := Int.mul_nonneg (by omega) (by omega)
    rw [if_neg hpos]
    omega

/-- The walk meets the arithmetic progression from its first index on, as far as the stop. -/
theorem getElem?_stepIndices (stop index : Int) (k : Nat) :
    (stepIndices step stop index)[k]? =
      if Before step stop (index + k * step) then some (index + k * step).toNat else none := by
  induction k generalizing index with
  | zero =>
    rw [Int.natCast_zero, Int.zero_mul, Int.add_zero]
    by_cases h : Before step stop index
    · rw [stepIndices_of_before hstep h, if_pos h, List.getElem?_cons_zero]
    · rw [stepIndices_of_not_before hstep h, if_neg h, List.getElem?_nil]
  | succ k ih =>
    have hnext : index + (k + 1 : Nat) * step = index + step + k * step := by
      push_cast
      ring
    by_cases h : Before step stop index
    · rw [stepIndices_of_before hstep h, List.getElem?_cons_succ, ih, hnext]
    · -- A walk that does not begin gets nowhere later.
      have hlater : ¬Before step stop (index + (k + 1 : Nat) * step) := fun hk => h hk.of_later
      rw [stepIndices_of_not_before hstep h, if_neg hlater, List.getElem?_nil]

end Walk

namespace SliceBounds

variable {b : SliceBounds} (hstep : b.step ≠ 0)
include hstep

theorem getElem?_indices (length k : Nat) :
    (b.indices length)[k]? = if b.Takes length k then some (b.place length k).toNat else none := by
  rw [indices, ends_eq hstep]
  exact getElem?_stepIndices hstep (b.limit length) (b.first length) k

/-- The walk stays among the items. -/
theorem lt_of_mem_indices {length i : Nat} (h : i ∈ b.indices length) : i < length := by
  obtain ⟨k, hk⟩ := List.mem_iff_getElem?.1 h
  rw [getElem?_indices hstep] at hk
  split at hk
  · rename_i htakes
    have hrange := htakes.inRange hstep (Int.natCast_nonneg length)
    have hi := Option.some.inj hk
    omega
  · cases hk

/-- The walk ends after as many rounds as there are items at the latest. -/
theorem length_indices_le (length : Nat) : (b.indices length).length ≤ length := by
  have hnone : (b.indices length)[length]? = none := by
    rw [getElem?_indices hstep, if_neg]
    intro htakes
    have hrange := htakes.inRange hstep (Int.natCast_nonneg length)
    omega
  exact List.getElem?_eq_none_iff.1 hnone

/-- What a slice takes of a sequence, place by place. -/
theorem getElem?_pick {α : Type} (items : List α) (k : Nat) :
    (b.pick items)[k]? =
      if b.Takes items.length k then items[(b.place items.length k).toNat]? else none := by
  have hsome : ∀ i ∈ b.indices items.length, (items[i]?).isSome := by
    intro i hi
    rw [List.getElem?_eq_getElem (lt_of_mem_indices hstep hi)]
    rfl
  rw [pick, getElem?_filterMap_of_isSome hsome, getElem?_indices hstep]
  split
  · rw [Option.bind_some]
  · rw [Option.bind_none]

end SliceBounds

/-! ## The walk on integers of 64 bits -/

/-- A bound counted from the end and moved between two others, if the sum has 64 bits. -/
def moveIntoWord? (length low high index : Int) : Option Int :=
  (if index < 0 then fitting? (index + length) else some index).map fun fromStart =>
    max low (min high fromStart)

/-- The ends of a walk, if the length and all sums on the way to them have 64 bits. -/
def SliceBounds.wordEnds? (b : SliceBounds) (length : Nat) : Option (Int × Int) := do
  let n ← fitting? length
  if 0 < b.step then
    let start ← b.start.elim (some 0) (moveIntoWord? n 0 n)
    let stop ← b.stop.elim (some n) (moveIntoWord? n 0 n)
    some (start, stop)
  else
    let last ← fitting? (n - 1)
    let start ← b.start.elim (some last) (moveIntoWord? n (-1) last)
    let stop ← b.stop.elim (some (-1)) (moveIntoWord? n (-1) last)
    some (start, stop)

/-- The walk with a checked addition: it ends where the next index has more than 64 bits. -/
def wordStepIndices (step stop index : Int) : List Nat :=
  if 0 < step ∧ index < stop ∨ step < 0 ∧ stop < index then
    index.toNat :: if fits (index + step) then wordStepIndices step stop (index + step) else []
  else []
termination_by (if 0 < step then stop - index else index - stop).toNat

/-- The indices of a slice in integers of 64 bits, if no sum on the way has more. -/
def SliceBounds.wordIndices? (b : SliceBounds) (length : Nat) : Option (List Nat) :=
  (b.wordEnds? length).map fun ends => wordStepIndices b.step ends.2 ends.1

/-- The bounds have 64 bits. -/
structure SliceBounds.Fits (b : SliceBounds) : Prop where
  start : ∀ index ∈ b.start, fits index = true
  stop : ∀ index ∈ b.stop, fits index = true

/-- A bound below zero and a length that has 64 bits have a sum of 64 bits. -/
theorem moveIntoWord?_eq {length : Int} (hlength : 0 ≤ length) (hword : fits length = true)
    (low high : Int) {index : Int} (hindex : fits index = true) :
    moveIntoWord? length low high index = some (moveInto length low high index) := by
  rw [fits_iff] at hword hindex
  unfold moveIntoWord? moveInto
  split
  · have hsum : fits (index + length) = true := by
      rw [fits_iff]
      omega
    rw [fitting?, if_pos hsum, Option.map_some]
  · rw [Option.map_some]

/-- Up to the ends of the walk no sum has more than 64 bits. -/
theorem SliceBounds.Fits.wordEnds?_eq {b : SliceBounds} (h : b.Fits) {length : Nat}
    (hword : fits length = true) : b.wordEnds? length = some (b.ends length) := by
  have hlength : (0 : Int) ≤ length := Int.natCast_nonneg length
  have hlast : fits ((length : Int) - 1) = true := by
    rw [fits_iff] at hword ⊢
    omega
  have hbound : ∀ (bound : Option Int) (omitted low high : Int),
      (∀ index ∈ bound, fits index = true) →
        bound.elim (some omitted) (moveIntoWord? length low high) =
          some ((bound.map (moveInto length low high)).getD omitted) := by
    intro bound omitted low high hfits
    cases bound with
    | none => rfl
    | some index => exact moveIntoWord?_eq hlength hword low high (hfits index rfl)
  simp only [wordEnds?, ends, fitting?, if_pos hword, if_pos hlast, Option.bind_eq_bind,
    Option.bind_some, hbound _ _ _ _ h.start, hbound _ _ _ _ h.stop]
  split <;> rfl

/-- A next index with more than 64 bits lies beyond the stop, where the walk ends anyway. -/
theorem not_before_of_not_fits {step stop index : Int} (hstop : fits stop = true)
    (hindex : fits index = true) (hnext : ¬fits (index + step) = true) :
    ¬Before step stop (index + step) := by
  rw [fits_iff] at hstop hindex hnext
  unfold Before
  split <;> omega

/-- The checked addition changes nothing of the walk. -/
theorem wordStepIndices_eq {step : Int} (hstep : step ≠ 0) {stop index : Int}
    (hstop : fits stop = true) (hindex : fits index = true) :
    wordStepIndices step stop index = stepIndices step stop index := by
  induction index using stepIndices.induct step stop with
  | case1 index hbefore ih =>
    rw [wordStepIndices, stepIndices, if_pos hbefore, if_pos hbefore]
    by_cases hnext : fits (index + step) = true
    · rw [if_pos hnext, ih hnext]
    · rw [if_neg hnext, stepIndices_of_not_before hstep (not_before_of_not_fits hstop hindex hnext)]
  | case2 index hbefore => rw [wordStepIndices, stepIndices, if_neg hbefore, if_neg hbefore]

/-- On integers of 64 bits the walk of a slice is the same: no sum on its way is too large. -/
theorem SliceBounds.Fits.wordIndices?_eq {b : SliceBounds} (h : b.Fits) (hstep : b.step ≠ 0)
    {length : Nat} (hword : fits length = true) :
    b.wordIndices? length = some (b.indices length) := by
  have hends : fits (b.ends length).1 = true ∧ fits (b.ends length).2 = true := by
    have hfirst := b.first_between (Int.natCast_nonneg length)
    have hlimit := b.limit_between (Int.natCast_nonneg length)
    rw [lowEnd, highEnd] at hfirst hlimit
    rw [fits_iff] at hword
    rw [ends_eq hstep, fits_iff, fits_iff]
    split at hfirst <;> split at hlimit <;> omega
  rw [wordIndices?, h.wordEnds?_eq hword, Option.map_some,
    wordStepIndices_eq hstep hends.2 hends.1]
  rfl

/-! ## How slices are written -/

/-- The texts of integers: digits behind a sign or none, with zeros in front or without. -/
inductive SpellsInt : List Char → Int → Prop
  | plain {digits : List Char} : digits ≠ [] → (∀ c ∈ digits, c.isDigit = true) →
    SpellsInt digits (Nat.ofDigitChars 10 digits 0)
  | plus {digits : List Char} : digits ≠ [] → (∀ c ∈ digits, c.isDigit = true) →
    SpellsInt ('+' :: digits) (Nat.ofDigitChars 10 digits 0)
  | minus {digits : List Char} : digits ≠ [] → (∀ c ∈ digits, c.isDigit = true) →
    SpellsInt ('-' :: digits) (-(Nat.ofDigitChars 10 digits 0 : Nat))

/-- A part of a slice as it is written: nothing or an integer of 64 bits, with blanks around it. -/
inductive SpellsBound : List Char → Option Int → Prop
  | omitted {blanks : List Char} : (∀ c ∈ blanks, Text.isBlank c = true) →
    SpellsBound blanks none
  | integer {before cs after : List Char} {index : Int} :
    (∀ c ∈ before, Text.isBlank c = true) → (∀ c ∈ after, Text.isBlank c = true) →
    SpellsInt cs index → fits index = true → SpellsBound (before ++ cs ++ after) (some index)

/-- A slice as it is written: a stop, or a start and a stop, or these and a step. -/
inductive Spells : List Char → SliceBounds → Prop
  | stop {cs : List Char} {stop : Option Int} : SpellsBound cs stop → Spells cs ⟨none, stop, 1⟩
  | range {cs ds : List Char} {start stop : Option Int} : SpellsBound cs start →
    SpellsBound ds stop → Spells (cs ++ ':' :: ds) ⟨start, stop, 1⟩
  | steps {cs ds es : List Char} {start stop step : Option Int} : SpellsBound cs start →
    SpellsBound ds stop → SpellsBound es step →
    Spells (cs ++ ':' :: (ds ++ ':' :: es)) ⟨start, stop, step.getD 1⟩

namespace SpellsInt

variable {cs : List Char} {index : Int}

theorem readNat?_digits {digits : List Char} (hne : digits ≠ [])
    (hdigits : ∀ c ∈ digits, c.isDigit = true) :
    Double.readNat? digits = some (Nat.ofDigitChars 10 digits 0) := by
  have hall : digits.all Char.isDigit = true := List.all_eq_true.2 hdigits
  rw [Double.readNat?, hall, if_neg (by simpa using hne)]
  rfl

/-- A digit is no sign. -/
theorem splitSign_digits {digits : List Char} (hdigits : ∀ c ∈ digits, c.isDigit = true) :
    Double.splitSign digits = (false, digits) := by
  unfold Double.splitSign
  split
  · rename_i cs
    have hsign := hdigits '-' (by simp)
    exact absurd hsign (by decide)
  · rename_i cs
    have hsign := hdigits '+' (by simp)
    exact absurd hsign (by decide)
  · rfl

/-- The text of an integer of 64 bits is read as that integer. -/
theorem readInt?_eq (h : SpellsInt cs index) (hfits : fits index = true) :
    Double.readInt? cs = some index := by
  cases h with
  | plain hne hdigits =>
    simp only [Double.readInt?, splitSign_digits hdigits, readNat?_digits hne hdigits]
    exact if_pos hfits
  | plus hne hdigits =>
    simp only [Double.readInt?, Double.splitSign, readNat?_digits hne hdigits]
    exact if_pos hfits
  | minus hne hdigits =>
    simp only [Double.readInt?, Double.splitSign, readNat?_digits hne hdigits]
    exact if_pos hfits

/-- The text of an integer holds digits and signs only. -/
theorem mem (h : SpellsInt cs index) : ∀ c ∈ cs, c.isDigit = true ∨ c = '+' ∨ c = '-' := by
  intro c hc
  cases h with
  | plain _ hdigits => exact .inl (hdigits c hc)
  | plus _ hdigits =>
    rcases List.mem_cons.1 hc with rfl | hc
    · exact .inr (.inl rfl)
    · exact .inl (hdigits c hc)
  | minus _ hdigits =>
    rcases List.mem_cons.1 hc with rfl | hc
    · exact .inr (.inr rfl)
    · exact .inl (hdigits c hc)

theorem ne_nil (h : SpellsInt cs index) : cs ≠ [] := by
  cases h with
  | plain hne _ => exact hne
  | plus => exact List.cons_ne_nil _ _
  | minus => exact List.cons_ne_nil _ _

end SpellsInt

/-- Neither digits nor signs are blanks. -/
theorem SpellsInt.isBlank_eq {cs : List Char} {index : Int} (h : SpellsInt cs index) :
    ∀ c ∈ cs, Text.isBlank c = false := by
  intro c hc
  rcases h.mem c hc with hdigit | rfl | rfl
  · simp only [Char.isDigit, Bool.and_eq_true, decide_eq_true_eq] at hdigit
    have hlow : 48 ≤ c.val.toNat := hdigit.1
    have hhigh : c.val.toNat ≤ 57 := hdigit.2
    simp only [Text.isBlank, Bool.or_eq_false_iff, Bool.and_eq_false_iff, decide_eq_false_iff_not]
    omega
  · decide
  · decide

namespace SpellsBound

variable {cs : List Char} {bound : Option Int}

/-- A part of a slice is read as its bound. -/
theorem readBound?_eq (h : SpellsBound cs bound) : readBound? cs = some bound := by
  cases h with
  | omitted hblanks =>
    have htrim : Text.trim (cs ++ [] ++ []) = [] :=
      Text.trim_between hblanks (by simp) (by simp) (by simp)
    rw [List.append_nil, List.append_nil] at htrim
    rw [readBound?, htrim]
    rfl
  | integer hbefore hafter hint hfits =>
    have htrim := Text.trim_between hbefore hafter
      (fun c hc => hint.isBlank_eq c (List.mem_of_mem_head? hc))
      (fun c hc => hint.isBlank_eq c (List.mem_of_mem_getLast? hc))
    simp only [readBound?, htrim, List.isEmpty_iff, if_neg hint.ne_nil, hint.readInt?_eq hfits]
    rfl

/-- A part of a slice has no colon. -/
theorem not_mem (h : SpellsBound cs bound) : ':' ∉ cs := by
  have hblank : Text.isBlank ':' ≠ true := by decide
  intro hmem
  cases h with
  | omitted hblanks => exact hblank (hblanks ':' hmem)
  | integer hbefore hafter hint _ =>
    rcases List.mem_append.1 hmem with hmem | hmem
    · rcases List.mem_append.1 hmem with hmem | hmem
      · exact hblank (hbefore ':' hmem)
      · exact absurd (hint.mem ':' hmem) (by decide)
    · exact hblank (hafter ':' hmem)

theorem fits_of_mem (h : SpellsBound cs bound) : ∀ index ∈ bound, fits index = true := by
  intro index hindex
  cases h with
  | omitted => cases hindex
  | integer _ _ _ hfits =>
    obtain rfl := Option.some.inj hindex
    exact hfits

end SpellsBound

namespace Spells

variable {cs : List Char} {b : SliceBounds}

/-- A slice is read as its bounds. -/
theorem read?_eq (h : Spells cs b) : SliceBounds.read? cs = some b := by
  cases h with
  | stop hstop =>
    rw [SliceBounds.read?, Text.splitOn_of_not_mem hstop.not_mem]
    simp only [List.mapM_cons, List.mapM_nil, hstop.readBound?_eq]
    rfl
  | range hstart hstop =>
    rw [SliceBounds.read?, Text.splitOn_append hstart.not_mem,
      Text.splitOn_of_not_mem hstop.not_mem]
    simp only [List.mapM_cons, List.mapM_nil, hstart.readBound?_eq, hstop.readBound?_eq]
    rfl
  | steps hstart hstop hstep =>
    rw [SliceBounds.read?, Text.splitOn_append hstart.not_mem, Text.splitOn_append hstop.not_mem,
      Text.splitOn_of_not_mem hstep.not_mem]
    simp only [List.mapM_cons, List.mapM_nil, hstart.readBound?_eq, hstop.readBound?_eq,
      hstep.readBound?_eq]
    rfl

theorem fits (h : Spells cs b) : b.Fits := by
  have hnone : ∀ index ∈ (none : Option Int), Double.fits index = true := by simp
  cases h with
  | stop hstop => exact ⟨hnone, hstop.fits_of_mem⟩
  | range hstart hstop => exact ⟨hstart.fits_of_mem, hstop.fits_of_mem⟩
  | steps hstart hstop _ => exact ⟨hstart.fits_of_mem, hstop.fits_of_mem⟩

end Spells

/-! ## Slices of values -/

/-- What a slice makes of a value: a list or a text of what it picks. -/
def SliceBounds.ofValue (b : SliceBounds) : Value → Value
  | .list items => .list (b.pick items)
  | .str t => .str (String.ofList (b.pick t.toList))
  | _ => .null

/-- The bounds that a text spells are those of the slice that it asks for. -/
theorem value_sliceValue {spec : String} {b : SliceBounds}
    (hread : SliceBounds.read? spec.toList = some b) (hstep : b.step ≠ 0) (value : Value) :
    (sliceValue value spec).value = b.ofValue value := by
  simp only [sliceValue, hread, if_neg hstep]
  cases value <;> rfl

/-- The filter cuts a value as its argument spells, and the empty argument spells the whole. -/
theorem value_slice_apply (s : Surroundings) {spec : Value} {b : SliceBounds}
    (htype : spec.type = .str ∨ spec.type = .int) (hspec : Spells spec.displayChars b)
    (hstep : b.step ≠ 0) (value : Value) :
    (slice.apply s value [spec]).value = b.ofValue value := by
  have hread : SliceBounds.read? spec.display.toList = some b := by
    rw [Value.display, String.toList_ofList, hspec.read?_eq]
  cases spec with
  | int n => exact value_sliceValue hread hstep value
  | str t =>
    by_cases hempty : t = ""
    · -- The empty text is not allowed as an argument; the text in its place spells the same.
      subst hempty
      obtain rfl : b = ⟨none, none, 1⟩ := (Option.some.inj hread).symm
      have hwhole : SliceBounds.read? ":".toList = some ⟨none, none, 1⟩ := rfl
      exact value_sliceValue hwhole hstep value
    · have hallowed : ([.str ""] : List Constant).any (·.matches (.str t)) = false := by
        simp [Constant.matches, Ne.symm hempty]
      have hone : slice.resolveOne 1 ⟨[.str, .int], .str ":", [.str ""]⟩ (some (.str t)) =
          pure (.str t) := by
        simp only [resolveOne, hallowed, Bool.false_eq_true, if_false]
        rfl
      have hresolve : (slice.resolveArguments [.str t]).value = [.str t] := by
        simp only [resolveArguments, parameters, resolveFrom, List.head?_cons, hone]
        rfl
      rw [apply, Logged.value_bind, hresolve]
      exact value_sliceValue hread hstep value
  | _ => simp [Value.type] at htype

/-- A slice of a list, or of the characters of a text, picks what an arithmetic progression meets:
from the place of the start on, a step apart, up to the place of the stop. All these places are
indices of items, and the walk (`SliceBounds.indices`) takes no more of them than there are items.
On integers of 64 bits it takes the same: no sum on its way is too large, whatever the bounds and
the step are. -/
theorem slice_takes_progression {spec : Value} {b : SliceBounds}
    (htype : spec.type = .str ∨ spec.type = .int) (hspec : Spells spec.displayChars b)
    (hstep : b.step ≠ 0) :
    (∀ (s : Surroundings) (items : List Value),
      (slice.apply s (.list items) [spec]).value = .list (b.pick items)) ∧
    (∀ (s : Surroundings) (t : String),
      (slice.apply s (.str t) [spec]).value = .str (String.ofList (b.pick t.toList))) ∧
    (∀ {α : Type} (items : List α) (k : Nat), (b.pick items)[k]? =
      if b.Takes items.length k then items[(b.place items.length k).toNat]? else none) ∧
    (∀ length k : Nat, b.Takes length k → 0 ≤ b.place length k ∧ b.place length k < length) ∧
    (∀ length : Nat, (b.indices length).length ≤ length) ∧
    ∀ length : Nat, fits length = true → b.wordIndices? length = some (b.indices length) := by
  have hvalue := fun s => value_slice_apply s htype hspec hstep
  refine ⟨fun s items => hvalue s (.list items), fun s t => hvalue s (.str t),
    SliceBounds.getElem?_pick hstep, ?_, SliceBounds.length_indices_le hstep, ?_⟩
  · intro length k htakes
    have hrange := htakes.inRange hstep (Int.natCast_nonneg length)
    exact ⟨hrange.1, hrange.2.1⟩
  · exact fun length hword => hspec.fits.wordIndices?_eq hstep hword

/-- The longest step back takes one item. -/
theorem slice_takes_progression_longest_step :
    Spells (Value.str "-2 :: -9223372036854775808").displayChars ⟨some (-2), none, -2 ^ 63⟩ ∧
      ∀ s : Surroundings, (slice.apply s (.list [.int 7, .int 8, .int 9])
        [.str "-2 :: -9223372036854775808"]).value = .list [.int 8] := by
  have hblank : ∀ c ∈ [' '], Text.isBlank c = true := List.all_eq_true.1 rfl
  have hnone : ∀ c ∈ ([] : List Char), Text.isBlank c = true := by simp
  have hstart : SpellsBound ['-', '2', ' '] (some (-2)) := by
    have hint : SpellsInt ['-', '2'] (-2) := .minus (by decide) (List.all_eq_true.1 rfl)
    exact .integer hnone hblank hint (by decide)
  have hstep : SpellsBound (' ' :: '-' :: "9223372036854775808".toList) (some (-2 ^ 63)) := by
    have hint : SpellsInt ('-' :: "9223372036854775808".toList) (-2 ^ 63) :=
      .minus (by decide) (List.all_eq_true.1 rfl)
    have hbound := SpellsBound.integer hblank hnone hint (by decide)
    rwa [List.append_nil] at hbound
  have hspec : Spells (Value.str "-2 :: -9223372036854775808").displayChars
      ⟨some (-2), none, -2 ^ 63⟩ :=
    .steps hstart (.omitted hnone) hstep
  refine ⟨hspec, fun s => ?_⟩
  have hpick : (⟨some (-2), none, -2 ^ 63⟩ : SliceBounds).pick
      [Value.int 7, Value.int 8, Value.int 9] = [.int 8] := by
    simp [SliceBounds.pick, SliceBounds.indices, SliceBounds.ends, moveInto, stepIndices]
  rw [(slice_takes_progression (.inl rfl) hspec (by decide)).1 s, hpick]

end Filter

end Stencil
