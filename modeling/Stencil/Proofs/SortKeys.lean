import Mathlib.Order.WithBot
import Stencil.Filter.Sort
import Stencil.Proofs.NearestDouble

/-!
# Sort keys

Keys can be sorted together if all are strings, or if all are numbers or truth values. Then they
have ranks in a linear order: that of strings, or that of doubles without NaN. It is enough to
compare every key with the first (`keyOrder?`). The key of an item stands under a path in a mapping
and at an index in a list, which counts from the end if it is negative.
-/

namespace Stencil

/-! ## Doubles in order -/

namespace Double

theorem parts_ofRatio_ne_nan (negative : Bool) (num den : Nat) :
    parts (ofRatio negative num den) ≠ .nan := by
  unfold ofRatio
  extract_lets scaled shift significand pattern
  rcases (show pattern ≤ 2047 * leadingBit from min_le_right _ _).eq_or_lt with hinfinite | hfinite
  · rw [hinfinite]
    cases negative
    all_goals exact fun h => nomatch h
  · rw [parts_ofBits negative hfinite]
    split <;> exact Parts.noConfusion

/-- Doubles that can be compared are no NaN. -/
theorem number_of_order? {x y : Float} {o : Ordering} (h : order? x y = some o) :
    parts x ≠ .nan ∧ parts y ≠ .nan := by
  unfold order? at h
  refine ⟨fun hx => ?_, fun hy => ?_⟩
  · rw [hx] at h
    cases h
  · rw [hy] at h
    cases hx : parts x <;> rw [hx] at h <;> cases h

/-- The doubles in the order of their values: the units of numbers between the two infinities. -/
abbrev Rank : Type := WithBot (WithTop Int)

/-- The rank of a number of so many units. -/
def Rank.ofUnits (n : Int) : Rank := WithBot.some (WithTop.some n)

/-- The rank of a double; that of a NaN has no meaning. -/
def rank (x : Float) : Rank :=
  match parts x with
  | .infinite false => WithBot.some ⊤
  | .finite .. => Rank.ofUnits ((units? x).getD 0)
  | _ => ⊥

theorem Rank.compare_ofUnits (m n : Int) : compare (ofUnits m) (ofUnits n) = compare m n := by
  have hlt : ∀ {m n : Int}, m < n → ofUnits m < ofUnits n := fun h =>
    WithBot.coe_lt_coe.2 (WithTop.coe_lt_coe.2 h)
  rcases lt_trichotomy m n with h | rfl | h
  · rw [compare_lt_iff_lt.2 h, compare_lt_iff_lt.2 (hlt h)]
  · rw [compare_eq_iff_eq.2 rfl, compare_eq_iff_eq.2 rfl]
  · rw [compare_gt_iff_gt.2 h, compare_gt_iff_gt.2 (hlt h)]

/-- Doubles other than a NaN are in a linear order. -/
theorem order?_eq_compare_rank {x y : Float} (hx : parts x ≠ .nan) (hy : parts y ≠ .nan) :
    order? x y = some (compare (rank x) (rank y)) := by
  have hbelow (u : WithTop Int) : compare (⊥ : Rank) (WithBot.some u) = .lt :=
    compare_lt_iff_lt.2 (WithBot.bot_lt_coe u)
  have habove (u : WithTop Int) : compare (WithBot.some u : Rank) ⊥ = .gt :=
    compare_gt_iff_gt.2 (WithBot.bot_lt_coe u)
  have hunder (n : Int) : compare (Rank.ofUnits n) (WithBot.some ⊤) = .lt :=
    compare_lt_iff_lt.2 (WithBot.coe_lt_coe.2 (WithTop.coe_lt_top n))
  have hover (n : Int) : compare (WithBot.some ⊤) (Rank.ofUnits n) = .gt :=
    compare_gt_iff_gt.2 (WithBot.coe_lt_coe.2 (WithTop.coe_lt_top n))
  have hsame (u : Rank) : compare u u = .eq := compare_eq_iff_eq.2 rfl
  cases hxparts : parts x with
  | nan => exact absurd hxparts hx
  | finite =>
    cases hyparts : parts y with
    | nan => exact absurd hyparts hy
    | finite =>
      simp only [order?, rank, units?, hxparts, hyparts, Option.getD_some, Rank.compare_ofUnits]
    | infinite b =>
      cases b
      · simp only [order?, rank, hxparts, hyparts, hunder, Bool.false_eq_true, if_false]
      · simp only [order?, rank, hxparts, hyparts, Rank.ofUnits, habove, if_true]
  | infinite a =>
    cases hyparts : parts y with
    | nan => exact absurd hyparts hy
    | finite =>
      cases a
      · simp only [order?, rank, hxparts, hyparts, hover, Bool.false_eq_true, if_false]
      · simp only [order?, rank, hxparts, hyparts, Rank.ofUnits, hbelow, if_true]
    | infinite b =>
      cases a <;> cases b <;> simp only [order?, rank, hxparts, hyparts, hbelow, habove, hsame]
      all_goals rfl

end Double

namespace Filter

/-! ## Ranks of keys -/

/-- The keys that are strings. -/
def IsText : Value → Prop
  | .str _ => True
  | _ => False

/-- The keys that are numbers, truth values among them. A NaN is not a number. -/
def IsNumeric : Value → Prop
  | .int _ | .bool _ => True
  | .float x => Double.parts x ≠ .nan
  | _ => False

/-- Keys that can be sorted together: all are strings, or all are numbers. -/
def AreAlike (keys : List Value) : Prop := (∀ k ∈ keys, IsText k) ∨ ∀ k ∈ keys, IsNumeric k

theorem IsNumeric.exists_double {k : Value} (h : IsNumeric k) :
    ∃ x, k.toFloat? = some x ∧ Double.parts x ≠ .nan := by
  cases k with
  | int n => exact ⟨_, rfl, Double.parts_ofRatio_ne_nan _ _ _⟩
  | bool b => exact ⟨_, rfl, Double.parts_ofRatio_ne_nan _ _ _⟩
  | float x => exact ⟨x, rfl, h⟩
  | _ => exact h.elim

/-- Strings are compared as strings. -/
theorem keyOrder?_of_text {k l : Value} (hk : IsText k) (hl : IsText l) :
    ∃ x y : String, k = .str x ∧ l = .str y ∧ keyOrder? k l = some (compare x y) := by
  cases k with
  | str x =>
    cases l with
    | str y => exact ⟨x, y, rfl, rfl, rfl⟩
    | _ => exact hl.elim
  | _ => exact hk.elim

/-- Numbers are compared as doubles. -/
theorem keyOrder?_of_numeric {k l : Value} (hk : IsNumeric k) (hl : IsNumeric l) :
    ∃ x y : Float, k.toFloat? = some x ∧ l.toFloat? = some y ∧
      keyOrder? k l = some (compare (Double.rank x) (Double.rank y)) := by
  obtain ⟨x, hx, hxnumber⟩ := hk.exists_double
  obtain ⟨y, hy, hynumber⟩ := hl.exists_double
  refine ⟨x, y, hx, hy, ?_⟩
  rw [← Double.order?_eq_compare_rank hxnumber hynumber]
  cases k with
  | int | bool | float =>
    cases l with
    | int | bool | float => simp only [keyOrder?, hx, hy]
    | _ => exact hl.elim
  | _ => exact hk.elim

/-- The rank of a key among strings. -/
def textRank : Value → String
  | .str s => s
  | _ => ""

/-- The rank of a key among numbers. -/
def numberRank (k : Value) : Double.Rank := (k.toFloat?.map Double.rank).getD ⊥

/-- Keys that can be sorted together have ranks in one linear order. -/
theorem AreAlike.exists_rank {keys : List Value} (h : AreAlike keys) :
    ∃ (β : Type) (_ : LinearOrder β) (rank : Value → β), ∀ k ∈ keys, ∀ l ∈ keys,
      keyOrder? k l = some (compare (rank k) (rank l)) := by
  rcases h with htext | hnumeric
  · refine ⟨String, inferInstance, textRank, fun k hk l hl => ?_⟩
    obtain ⟨x, y, rfl, rfl, horder⟩ := keyOrder?_of_text (htext k hk) (htext l hl)
    exact horder
  · refine ⟨Double.Rank, inferInstance, numberRank, fun k hk l hl => ?_⟩
    obtain ⟨x, y, hx, hy, horder⟩ := keyOrder?_of_numeric (hnumeric k hk) (hnumeric l hl)
    rw [horder, numberRank, numberRank, hx, hy]
    rfl

/-- Two keys that can be compared are strings or numbers. -/
theorem alike_of_keyOrder? {k l : Value} {o : Ordering} (h : keyOrder? k l = some o) :
    IsText k ∧ IsText l ∨ IsNumeric k ∧ IsNumeric l := by
  cases k with
  | str =>
    cases l with
    | str => exact .inl ⟨trivial, trivial⟩
    | _ => cases h
  | int | bool | float =>
    cases l with
    | int | bool | float =>
      have hnumbers := Double.number_of_order? h
      refine .inr ⟨?_, ?_⟩
      · first | trivial | exact hnumbers.1
      · first | trivial | exact hnumbers.2
    | _ => cases h
  | _ => cases h

/-- Keys can be sorted together if they all can be compared with the first. -/
theorem areAlike_iff {k : Value} {keys : List Value} :
    AreAlike (k :: keys) ↔ ∀ l ∈ k :: keys, (keyOrder? k l).isSome = true := by
  constructor
  · intro h l hl
    obtain ⟨β, hβ, rank, hrank⟩ := h.exists_rank
    rw [hrank k (by simp) l hl]
    rfl
  · intro h
    have hpair : ∀ l ∈ k :: keys, IsText k ∧ IsText l ∨ IsNumeric k ∧ IsNumeric l := by
      intro l hl
      obtain ⟨o, ho⟩ := Option.isSome_iff_exists.1 (h l hl)
      exact alike_of_keyOrder? ho
    have hnot : ¬(IsText k ∧ IsNumeric k) := by
      cases k <;> simp [IsText, IsNumeric]
    rcases hpair k (by simp) with ⟨htext, -⟩ | ⟨hnumeric, -⟩
    · refine .inl fun l hl => ?_
      rcases hpair l hl with ⟨-, hl⟩ | ⟨hk, -⟩
      · exact hl
      · exact absurd ⟨htext, hk⟩ hnot
    · refine .inr fun l hl => ?_
      rcases hpair l hl with ⟨hk, -⟩ | ⟨-, hl⟩
      · exact absurd ⟨hk, hnumeric⟩ hnot
      · exact hl

/-! ## Keys of items -/

/-- The sort key of an item. The kind of the first item says how it is read: from mappings under a
path, and from lists at an index, which is counted from the end if it is negative. -/
inductive HasKey (key : Value) : (first item value : Value) → Prop
  | field {fields : Fields} {item value : Value} : item.walk key.display = .ok value →
    HasKey key (.dict fields) item value
  | front {items inner : List Value} {value : Value} {i : Nat} : (key.toInt?).getD 0 = i →
    inner[i]? = some value → HasKey key (.list items) (.list inner) value
  | back {items inner : List Value} {value : Value} {i : Nat} :
    (key.toInt?).getD 0 = -((i + 1 : Nat) : Int) → inner.reverse[i]? = some value →
    HasKey key (.list items) (.list inner) value

/-- An index below zero counts from the end: it is an index of the list turned round. -/
theorem itemAt_list (index : Int) (inner : List Value) :
    itemAt index (.list inner) =
      match (if index < 0 then inner.reverse[(-index - 1).toNat]? else inner[index.toNat]?) with
      | some v => .ok v
      | none => .error (.outOfRange index) := by
  have hplace : (if (if index < 0 then inner.length + index else index) < 0 then none
      else inner[(if index < 0 then inner.length + index else index).toNat]?) =
      if index < 0 then inner.reverse[(-index - 1).toNat]? else inner[index.toNat]? := by
    by_cases hneg : index < 0
    · simp only [if_pos hneg]
      by_cases hlow : inner.length + index < 0
      · rw [if_pos hlow, List.getElem?_eq_none]
        rw [List.length_reverse]
        omega
      · rw [if_neg hlow, List.getElem?_reverse (by omega)]
        congr 1
        omega
    · simp only [if_neg hneg]
  rw [← hplace]
  rfl

/-- The reader that the first item decides on reads the sort keys. -/
theorem readKey_eq_ok_iff {key first : Value} {readKey : Value → Except SortKeyError Value}
    (hread : keyReader? first key = some readKey) {item value : Value} :
    readKey item = .ok value ↔ HasKey key first item value := by
  cases first with
  | dict fields =>
    obtain rfl := Option.some.inj hread
    show (item.walk key.display).mapError SortKeyError.path = .ok value ↔ _
    constructor
    · intro h
      cases hwalk : item.walk key.display with
      | error reason =>
        rw [hwalk] at h
        cases h
      | ok found =>
        rw [hwalk] at h
        obtain rfl := Except.ok.inj h
        exact .field hwalk
    · rintro ⟨hwalk⟩
      rw [hwalk]
      rfl
  | list items =>
    obtain rfl := Option.some.inj hread
    constructor
    · intro h
      cases item with
      | list inner =>
        rw [itemAt_list] at h
        split at h
        · rename_i found hget
          obtain rfl := Except.ok.inj h
          split at hget
          · rename_i hneg
            exact .back (i := (-(key.toInt?.getD 0) - 1).toNat) (by omega) hget
          · rename_i hpos
            exact .front (i := (key.toInt?.getD 0).toNat) (by omega) hget
        · cases h
      | _ => cases h
    · intro h
      cases h with
      | @front _ inner _ i hindex hget =>
        rw [hindex, itemAt_list, if_neg (by omega), Int.toNat_natCast, hget]
      | @back _ inner _ i hindex hget =>
        rw [hindex, itemAt_list, if_pos (by omega),
          show (-(-((i + 1 : Nat) : Int)) - 1).toNat = i by omega, hget]
  | _ => cases hread

/-- There is a reader if the first item is a mapping or a list. -/
theorem exists_keyReader {first : Value} (h : first.type = .dict ∨ first.type = .list)
    (key : Value) : ∃ readKey, keyReader? first key = some readKey := by
  cases first with
  | dict | list => exact ⟨_, rfl⟩
  | _ => simp [Value.type] at h

end Filter

end Stencil
