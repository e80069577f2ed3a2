import Stencil.Proofs.IntegerComparison
import Stencil.Proofs.Sorting

/-!
# Sorting and comparing

Strings are sorted in the order that conditions compare them in. Integers are not: the sort
(`keyOrder?`) compares the doubles next to them, conditions (`order?`) the integers themselves. So
in a sorted list an integer may stand before a smaller one, but only if both have the same double,
which takes more than 53 bits.
-/

namespace Stencil.Filter

open Condition (comparison)

/-- The values that mappings hold under a path are all integers of 64 bits, or all strings. -/
def HaveComparableKeys (path : String) (items : List Value) : Prop :=
  (∀ item ∈ items, ∃ n : Int, item.walk path = .ok (.int n) ∧ Double.fits n = true) ∨
    ∀ item ∈ items, ∃ t : String, item.walk path = .ok (.str t)

/-- An integer and a smaller one that the sort cannot tell apart: they have the same double. -/
def SortBlurs (m n : Int) : Prop := n < m ∧ Double.nearest m = Double.nearest n

/-- Only large integers are blurred, and those that are lie close together. -/
theorem SortBlurs.large {m n : Int} (h : SortBlurs m n) (hm : Double.fits m = true)
    (hn : Double.fits n = true) :
    (2 ^ 53 ≤ m.natAbs ∨ 2 ^ 53 ≤ n.natAbs) ∧ m - n ≤ 2 ^ 11 := by
  obtain ⟨hlt, hsame⟩ := h
  rw [Condition.fits_iff] at hm hn
  constructor
  · by_contra! hsmall
    rw [Double.nearest_eq_self hsmall.1, Double.nearest_eq_self hsmall.2] at hsame
    omega
  · have hleft := Double.nearest_close m
    have hright := Double.nearest_close n
    have hbits := Condition.lastBit_le (show m.natAbs < 2 ^ 64 by omega)
    have hbits' := Condition.lastBit_le (show n.natAbs < 2 ^ 64 by omega)
    rw [hsame] at hleft
    rw [abs_eq_max_neg] at hleft hright
    omega

section Keys

variable {path : String} {items : List Value} {first : Value}

theorem hasKey_str_iff (hfirst : first.type = .dict) {item value : Value} :
    HasKey (.str path) first item value ↔ item.walk path = .ok value := by
  have hdisplay : (Value.str path).display = path := by
    rw [Value.display, Value.displayChars, String.ofList_toList]
  cases first with
  | dict fields =>
    constructor
    · rintro ⟨hwalk⟩
      rwa [hdisplay] at hwalk
    · intro hwalk
      exact .field (by rwa [hdisplay])
  | _ => cases hfirst

theorem value_dictSort_path (s : Surroundings) (path : String) (value : Value) :
    (dictSort.apply s value [.str path]).value = (sortValue value (.str path) (.str "")).value :=
  rfl

/-- If every item has a key of some kind, then there is a list of such keys. -/
theorem exists_keys {key : Value} {kind : Value → Prop}
    (h : ∀ item ∈ items, ∃ k, HasKey key first item k ∧ kind k) :
    ∃ keys, List.Forall₂ (HasKey key first) items keys ∧ ∀ k ∈ keys, kind k := by
  induction items with
  | nil => exact ⟨[], .nil, by simp⟩
  | cons item items ih =>
    obtain ⟨k, hkey, hkind⟩ := h item (by simp)
    obtain ⟨keys, hkeys, hkinds⟩ := ih fun other hother => h other (by simp [hother])
    exact ⟨k :: keys, .cons hkey hkeys, List.forall_mem_cons.2 ⟨hkind, hkinds⟩⟩

/-- Mappings with such keys can be sorted. -/
theorem HaveComparableKeys.sortable (h : HaveComparableKeys path items)
    (hfirst : first.type = .dict) : Sortable (.str path) first items := by
  rcases h with hints | hstrings
  · have hnumbers : ∀ item ∈ items, ∃ k, HasKey (.str path) first item k ∧ IsNumeric k := by
      intro item hitem
      obtain ⟨n, hwalk, -⟩ := hints item hitem
      exact ⟨.int n, (hasKey_str_iff hfirst).2 hwalk, trivial⟩
    obtain ⟨keys, hkeys, hkinds⟩ := exists_keys hnumbers
    exact ⟨keys, hkeys, .inr hkinds⟩
  · have htexts : ∀ item ∈ items, ∃ k, HasKey (.str path) first item k ∧ IsText k := by
      intro item hitem
      obtain ⟨t, hwalk⟩ := hstrings item hitem
      exact ⟨.str t, (hasKey_str_iff hfirst).2 hwalk, trivial⟩
    obtain ⟨keys, hkeys, hkinds⟩ := exists_keys htexts
    exact ⟨keys, hkeys, .inl hkinds⟩

/-- Two keys of such mappings are both integers of 64 bits or both strings. -/
theorem HaveComparableKeys.pair (h : HaveComparableKeys path items) {a b k l : Value}
    (ha : a ∈ items) (hb : b ∈ items) (hk : a.walk path = .ok k) (hl : b.walk path = .ok l) :
    (∃ m n : Int, k = .int m ∧ l = .int n ∧ Double.fits m = true ∧ Double.fits n = true) ∨
      ∃ x y : String, k = .str x ∧ l = .str y := by
  rcases h with hints | hstrings
  · obtain ⟨m, hm, hmfits⟩ := hints a ha
    obtain ⟨n, hn, hnfits⟩ := hints b hb
    exact .inl ⟨m, n, Except.ok.inj (hk.symm.trans hm), Except.ok.inj (hl.symm.trans hn), hmfits,
      hnfits⟩
  · obtain ⟨x, hx⟩ := hstrings a ha
    obtain ⟨y, hy⟩ := hstrings b hb
    exact .inr ⟨x, y, Except.ok.inj (hk.symm.trans hx), Except.ok.inj (hl.symm.trans hy)⟩

/-- The sort compares the doubles next to two integers. -/
theorem keyOrder?_int {m n : Int} (hm : m.natAbs < 2 ^ 64) (hn : n.natAbs < 2 ^ 64) :
    keyOrder? (.int m) (.int n) = some (compare (Double.nearest m) (Double.nearest n)) :=
  Double.order?_ofInt hm hn

/-- Where the sort leaves a smaller key behind a greater one, it cannot tell them apart. -/
theorem sortBlurs_of_comparison {k l : Value} {o : Ordering} (horder : keyOrder? k l = some o)
    (hascending : o ≠ .gt) (hless : comparison .lt l k = .ok (.bool true))
    (hkeys : (∃ m n : Int, k = .int m ∧ l = .int n ∧ Double.fits m = true ∧ Double.fits n = true) ∨
      ∃ x y : String, k = .str x ∧ l = .str y) :
    ∃ m n : Int, k = .int m ∧ l = .int n ∧ SortBlurs m n ∧
      (2 ^ 53 ≤ m.natAbs ∨ 2 ^ 53 ≤ n.natAbs) ∧ m - n ≤ 2 ^ 11 := by
  rw [Condition.comparison_lt_iff] at hless
  rcases hkeys with ⟨m, n, rfl, rfl, hm, hn⟩ | ⟨x, y, rfl, rfl⟩
  · rw [Condition.order?_int, if_pos ⟨hn, hm⟩, Option.some.injEq, compare_lt_iff_lt] at hless
    have hdoubles : keyOrder? (.int m) (.int n) =
        some (compare (Double.nearest m) (Double.nearest n)) := by
      rw [Condition.fits_iff] at hm hn
      exact keyOrder?_int (by omega) (by omega)
    rw [hdoubles, Option.some.injEq] at horder
    have hle : Double.nearest m ≤ Double.nearest n := by
      rwa [← horder, ne_eq, compare_gt_iff_gt, not_lt] at hascending
    have hblurs : SortBlurs m n := ⟨hless, le_antisymm hle (Double.nearest_mono hless.le)⟩
    exact ⟨m, n, rfl, rfl, hblurs, hblurs.large hm hn⟩
  · -- Strings have one order in both, so the keys would be in opposite orders.
    have hswap := keyOrder?_swap horder
    have hsame : keyOrder? (.str y) (.str x) = Condition.order? (.str y) (.str x) := by
      rw [Condition.order?]
      rfl
    rw [hsame, hless, Option.some.injEq] at hswap
    cases o with
    | gt => exact absurd rfl hascending
    | lt | eq => cases hswap

end Keys

/-- A list of mappings whose values under a path are all integers of 64 bits, or all strings, is
sorted by these values, and a value stands before one that conditions find smaller only if both are
integers with the same double. Such integers have more than 53 bits and are close together. -/
theorem sorted_as_compared_unless_blurred {path : String} {items : List Value}
    (hdict : ∀ item ∈ items, item.type = .dict) (hkeys : HaveComparableKeys path items)
    (s : Surroundings) :
    ∃ sorted : List Value, (dictSort.apply s (.list items) [.str path]).value = .list sorted ∧
      sorted.Perm items ∧
      sorted.Pairwise (fun a b => ∀ k l : Value, a.walk path = .ok k → b.walk path = .ok l →
        comparison .lt l k = .ok (.bool true) →
          ∃ m n : Int, k = .int m ∧ l = .int n ∧ SortBlurs m n ∧
            (2 ^ 53 ≤ m.natAbs ∨ 2 ^ 53 ≤ n.natAbs) ∧ m - n ≤ 2 ^ 11) := by
  cases items with
  | nil => exact ⟨[], rfl, .refl [], .nil⟩
  | cons first rest =>
    have hfirst : first.type = .dict := hdict first (by simp)
    obtain ⟨sorted, hsorted, hstable⟩ :=
      sortValue_of_sortable rfl (.inl hfirst) (hkeys.sortable hfirst) (.str "")
    refine ⟨sorted, ?_, hstable.perm, ?_⟩
    · rw [value_dictSort_path, hsorted]
      rfl
    refine hstable.ordered.imp_of_mem fun {a b} ha hb hprecedes k l hk hl hless => ?_
    obtain ⟨k', l', o, hk', hl', horder, hascending, -⟩ := hprecedes
    rw [hasKey_str_iff hfirst, hk, Except.ok.injEq] at hk'
    rw [hasKey_str_iff hfirst, hl, Except.ok.injEq] at hl'
    subst hk' hl'
    have hpair := hkeys.pair (hstable.perm.mem_iff.1 ha) (hstable.perm.mem_iff.1 hb) hk hl
    exact sortBlurs_of_comparison horder (hascending (by decide)) hless hpair

/-- Two small integers come out in ascending order. -/
theorem sorted_as_compared_unless_blurred_ages :
    let older : Value := .dict [("age", .int 30)]
    let younger : Value := .dict [("age", .int 20)]
    (∀ item ∈ [older, younger], item.type = .dict) ∧
      HaveComparableKeys "age" [older, younger] ∧
      ∀ s : Surroundings, (dictSort.apply s (.list [older, younger]) [.str "age"]).value =
        .list [younger, older] := by
  intro older younger
  have hdict : ∀ item ∈ [older, younger], item.type = .dict := by
    simp [older, younger, Value.type]
  have holder : older.walk "age" = .ok (.int 30) := rfl
  have hyounger : younger.walk "age" = .ok (.int 20) := rfl
  have hkeys : HaveComparableKeys "age" [older, younger] := by
    refine .inl ?_
    simp only [List.forall_mem_cons]
    exact ⟨⟨30, holder, rfl⟩, ⟨20, hyounger, rfl⟩, by simp⟩
  refine ⟨hdict, hkeys, fun s => ?_⟩
  obtain ⟨sorted, hsorted, hperm, hordered⟩ := sorted_as_compared_unless_blurred hdict hkeys s
  rw [hsorted]
  have hless : comparison .lt (.int 20) (.int 30) = .ok (.bool true) := by
    rw [Condition.comparison_lt_iff, Condition.order?_int]
    rfl
  have hcases : sorted = [older, younger] ∨ sorted = [younger, older] := by
    have hmem := List.mem_permutations'.2 hperm
    simpa [List.permutations', List.permutations'Aux] using hmem
  rcases hcases with rfl | rfl
  · -- The greater would stand before the smaller, and both are too small for that.
    obtain ⟨m, n, hm, hn, -, hlarge, -⟩ :=
      List.rel_of_pairwise_cons hordered (by simp) _ _ holder hyounger hless
    obtain rfl := Value.int.inj hm
    obtain rfl := Value.int.inj hn
    exact absurd hlarge (by decide)
  · rfl

/-- The first two positive integers with the same double stay as they are, the greater one in
front. -/
theorem blurred_integers_not_sorted :
    ¬∀ (path : String) (items sorted : List Value) (s : Surroundings),
      (∀ item ∈ items, item.type = .dict) → HaveComparableKeys path items →
      (dictSort.apply s (.list items) [.str path]).value = .list sorted →
      sorted.Pairwise fun a b => ∀ k l : Value, a.walk path = .ok k → b.walk path = .ok l →
        comparison .lt l k ≠ .ok (.bool true) := by
  intro hall
  let greater : Value := .dict [("k", .int (2 ^ 53 + 1))]
  let smaller : Value := .dict [("k", .int (2 ^ 53))]
  have hgreater : greater.walk "k" = .ok (.int (2 ^ 53 + 1)) := rfl
  have hsmaller : smaller.walk "k" = .ok (.int (2 ^ 53)) := rfl
  have hdict : ∀ item ∈ [greater, smaller], item.type = .dict := by
    simp [greater, smaller, Value.type]
  have hkeys : HaveComparableKeys "k" [greater, smaller] := by
    refine .inl ?_
    simp only [List.forall_mem_cons]
    exact ⟨⟨2 ^ 53 + 1, hgreater, by decide⟩, ⟨2 ^ 53, hsmaller, by decide⟩, by simp⟩
  have hequal : keyOrder? (.int (2 ^ 53 + 1)) (.int (2 ^ 53)) = some .eq := by
    rw [keyOrder?_int (by decide) (by decide)]
    decide
  -- The keys are equal in the sort, so the list as it stands is the one stable order.
  have hstable : StablySorted (Precedes (.str "k") greater (AsksReverse (.str "")))
      (Ties (.str "k") greater) [greater, smaller] [greater, smaller] := by
    refine ⟨.refl _, ?_, fun group hgroup _ => hgroup⟩
    rw [List.pairwise_pair]
    exact ⟨_, _, .eq, (hasKey_str_iff rfl).2 hgreater, (hasKey_str_iff rfl).2 hsmaller, hequal,
      fun _ => by decide, fun _ => by decide⟩
  have hsorted (s : Surroundings) :
      (dictSort.apply s (.list [greater, smaller]) [.str "k"]).value =
        .list [greater, smaller] := by
    rw [value_dictSort_path]
    exact sortValue_of_stablySorted rfl (.inl rfl) (hkeys.sortable rfl) hstable
  have hpairwise := hall "k" _ _ ⟨⟨0, 0, 0⟩, fun _ => 0⟩ hdict hkeys (hsorted _)
  refine List.rel_of_pairwise_cons hpairwise (by simp) _ _ hgreater hsmaller ?_
  rw [Condition.comparison_lt_iff, Condition.order?_int]
  decide

end Stencil.Filter
