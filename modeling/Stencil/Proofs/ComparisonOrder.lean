import Stencil.Proofs.ComparisonChain

/-!
# The order of values in conditions

Equality in conditions (`equals`) reads booleans as integers, also inside lists but not inside
mappings; on values without doubles, with their booleans read so, it is equality. The order of such
values (`order?`) is a strict order as far as it goes: some values have none, and a list is decided
by its first unequal item, whatever stands behind it. That the order of lists fits together rests on
equality, which decides where lists part.
-/

namespace Stencil

namespace Value

/-! ## Values without doubles -/

mutual

/-- Whether a value is built from null, booleans, integers of 64 bits, strings, lists and mappings:
no number in it counts as a double. -/
def isDiscrete : Value → Bool
  | .int n => Double.fits n
  | .float _ => false
  | .list items => areDiscrete items
  | .dict fields => haveDiscrete fields
  | _ => true

/-- Whether all items of a list are such values. -/
def areDiscrete : List Value → Bool
  | [] => true
  | v :: vs => v.isDiscrete && areDiscrete vs

/-- Whether all fields of a mapping have such values. -/
def haveDiscrete : List (String × Value) → Bool
  | [] => true
  | (_, v) :: fields => v.isDiscrete && haveDiscrete fields

end

mutual

/-- Without doubles, values with the same structure are equal. -/
theorem same_iff : (a b : Value) → a.isDiscrete = true → (same a b = true ↔ a = b)
  | .list as, b, h => by
    cases b with
    | list bs => simpa [same] using sameItems_iff as bs h
    | _ => simp [same]
  | .dict as, b, h => by
    cases b with
    | dict bs => simpa [same] using sameFields_iff as bs h
    | _ => simp [same]
  | .float x, b, h => by simp [isDiscrete] at h
  | .null, b, h | .bool _, b, h | .int _, b, h | .str _, b, h => by cases b <;> simp [same]

/-- So are lists with the same items. -/
theorem sameItems_iff : (as bs : List Value) → areDiscrete as = true →
    (sameItems as bs = true ↔ as = bs)
  | [], bs, _ => by cases bs <;> simp [sameItems]
  | a :: as, bs, h => by
    cases bs with
    | nil => simp [sameItems]
    | cons b bs =>
      rw [areDiscrete, Bool.and_eq_true] at h
      rw [sameItems, Bool.and_eq_true, same_iff a b h.1, sameItems_iff as bs h.2, List.cons.injEq]

/-- So are mappings with the same fields. -/
theorem sameFields_iff : (as bs : List (String × Value)) → haveDiscrete as = true →
    (sameFields as bs = true ↔ as = bs)
  | [], bs, _ => by cases bs <;> simp [sameFields]
  | (j, a) :: as, bs, h => by
    cases bs with
    | nil => simp [sameFields]
    | cons field bs =>
      obtain ⟨k, b⟩ := field
      rw [haveDiscrete, Bool.and_eq_true] at h
      rw [sameFields, Bool.and_eq_true, Bool.and_eq_true, same_iff a b h.1,
        sameFields_iff as bs h.2, beq_iff_eq, List.cons.injEq, Prod.mk.injEq]

end

/-! ## Booleans read as integers -/

@[simp] theorem fits_toNat (b : Bool) : Double.fits b.toNat = true := by
  cases b <;> rfl

mutual

/-- A value with the booleans outside mappings read as integers. -/
def canonical : Value → Value
  | .bool b => .int b.toNat
  | .list items => .list (canonicalItems items)
  | v => v

/-- The items of a list with the booleans in them read as integers. -/
def canonicalItems : List Value → List Value
  | [] => []
  | v :: vs => v.canonical :: canonicalItems vs

end

mutual

theorem isDiscrete_canonical : (a : Value) → a.isDiscrete = true → a.canonical.isDiscrete = true
  | .list as, h => areDiscrete_canonicalItems as h
  | .bool b, _ => fits_toNat b
  | .null, h | .int _, h | .float _, h | .str _, h | .dict _, h => h

theorem areDiscrete_canonicalItems : (as : List Value) → areDiscrete as = true →
    areDiscrete (canonicalItems as) = true
  | [], h => h
  | a :: as, h => by
    rw [areDiscrete, Bool.and_eq_true] at h
    rw [canonicalItems, areDiscrete, Bool.and_eq_true]
    exact ⟨isDiscrete_canonical a h.1, areDiscrete_canonicalItems as h.2⟩

end

mutual

theorem canonical_canonical : (a : Value) → a.canonical.canonical = a.canonical
  | .list as => congrArg Value.list (canonicalItems_canonicalItems as)
  | .null | .bool _ | .int _ | .float _ | .str _ | .dict _ => rfl

theorem canonicalItems_canonicalItems : (as : List Value) →
    canonicalItems (canonicalItems as) = canonicalItems as
  | [] => rfl
  | a :: as => by
    rw [canonicalItems, canonicalItems, canonical_canonical, canonicalItems_canonicalItems]

end

end Value

namespace Condition

open Value

/-! ## Equality -/

mutual

/-- Without doubles, values are equal in conditions exactly if they are once booleans are read as
integers. -/
theorem equals_iff : (a b : Value) → a.isDiscrete = true → b.isDiscrete = true →
    (equals a b = true ↔ a.canonical = b.canonical)
  | .list as, b, ha, hb => by
    cases b with
    | list bs => simpa [equals, canonical] using equalItems_iff as bs ha hb
    | _ => simp [equals, canonical, Number.ofValue?, same]
  | .dict as, b, ha, hb => by
    cases b with
    | dict bs => simpa [equals, canonical, Number.ofValue?] using same_iff (.dict as) (.dict bs) ha
    | _ => simp [equals, canonical, Number.ofValue?, same]
  | .float x, b, ha, _ => by simp [isDiscrete] at ha
  | .null, b, ha, hb | .bool _, b, ha, hb | .int _, b, ha, hb | .str _, b, ha, hb => by
    cases b <;> simp_all [equals, canonical, Number.ofValue?, same, isDiscrete, Number.eq]

/-- So are lists. -/
theorem equalItems_iff : (as bs : List Value) → areDiscrete as = true → areDiscrete bs = true →
    (equalItems as bs = true ↔ canonicalItems as = canonicalItems bs)
  | [], bs, _, _ => by cases bs <;> simp [equalItems, canonicalItems]
  | a :: as, bs, ha, hb => by
    cases bs with
    | nil => simp [equalItems, canonicalItems]
    | cons b bs =>
      rw [areDiscrete, Bool.and_eq_true] at ha hb
      rw [equalItems, Bool.and_eq_true, equals_iff a b ha.1 hb.1,
        equalItems_iff as bs ha.2 hb.2, canonicalItems, canonicalItems, List.cons.injEq]

end

/-- Reading the booleans of two values as integers does not change whether they are equal. -/
theorem equals_canonical {a b : Value} (ha : a.isDiscrete = true) (hb : b.isDiscrete = true) :
    equals a.canonical b.canonical = equals a b := by
  rw [Bool.eq_iff_iff, equals_iff a b ha hb,
    equals_iff _ _ (isDiscrete_canonical a ha) (isDiscrete_canonical b hb), canonical_canonical,
    canonical_canonical]

theorem equals_refl {a : Value} (ha : a.isDiscrete = true) : equals a a = true :=
  (equals_iff a a ha ha).2 rfl

theorem equals_trans {a b c : Value} (ha : a.isDiscrete = true) (hb : b.isDiscrete = true)
    (hc : c.isDiscrete = true) (h : equals a b = true) (h' : equals b c = true) :
    equals a c = true := by
  rw [equals_iff a b ha hb] at h
  rw [equals_iff b c hb hc] at h'
  rw [equals_iff a c ha hc, h, h']

theorem equals_comm {a b : Value} (ha : a.isDiscrete = true) (hb : b.isDiscrete = true) :
    equals b a = equals a b := by
  rw [Bool.eq_iff_iff, equals_iff b a hb ha, equals_iff a b ha hb, eq_comm]

/-! ## Order -/

mutual

/-- Nor does it change their order. -/
theorem order?_canonical : (a b : Value) → a.isDiscrete = true → b.isDiscrete = true →
    order? a.canonical b.canonical = order? a b
  | .list as, b, ha, hb => by
    cases b with
    | list bs => simpa [order?, canonical] using itemsOrder?_canonical as bs ha hb
    | _ => simp [order?, canonical, Number.ofValue?]
  | .float x, b, ha, _ => by simp [isDiscrete] at ha
  | .null, b, ha, hb | .bool _, b, ha, hb | .int _, b, ha, hb | .str _, b, ha, hb
  | .dict _, b, ha, hb => by
    cases b <;> simp_all [order?, canonical, Number.ofValue?, isDiscrete]

theorem itemsOrder?_canonical : (as bs : List Value) → areDiscrete as = true →
    areDiscrete bs = true →
    itemsOrder? (canonicalItems as) (canonicalItems bs) = itemsOrder? as bs
  | [], bs, _, _ => by cases bs <;> rfl
  | a :: as, bs, ha, hb => by
    cases bs with
    | nil => rfl
    | cons b bs =>
      rw [areDiscrete, Bool.and_eq_true] at ha hb
      rw [canonicalItems, canonicalItems, itemsOrder?, itemsOrder?, equals_canonical ha.1 hb.1,
        itemsOrder?_canonical as bs ha.2 hb.2, order?_canonical a b ha.1 hb.1]

end

/-- Equal values are ordered alike with every other value. -/
theorem order?_congr {a a' b b' : Value} (ha : a.isDiscrete = true) (ha' : a'.isDiscrete = true)
    (hb : b.isDiscrete = true) (hb' : b'.isDiscrete = true) (h : equals a a' = true)
    (h' : equals b b' = true) : order? a b = order? a' b' := by
  rw [equals_iff a a' ha ha'] at h
  rw [equals_iff b b' hb hb'] at h'
  rw [← order?_canonical a b ha hb, ← order?_canonical a' b' ha' hb', h, h']

/-- Which values have an order, and which one: strings that of their characters, integers and
booleans that of their numbers, lists that of their items. -/
inductive Ranked : Value → Value → Ordering → Prop where
  | strings {s t : String} {o : Ordering} (order : Ord.compare s t = o) :
      Ranked (.str s) (.str t) o
  | integers {a b : Value} {x y : Int} {o : Ordering} (left : Number.int? a = some x)
      (right : Number.int? b = some y) (order : Ord.compare x y = o) : Ranked a b o
  | lists {as bs : List Value} {o : Ordering} (order : itemsOrder? as bs = some o) :
      Ranked (.list as) (.list bs) o

/-- The number in a value without doubles is an integer. -/
theorem ofValue?_eq {a : Value} (h : a.isDiscrete = true) :
    Number.ofValue? a = (Number.int? a).map .int := by
  cases a <;> simp_all [Number.int?, Number.ofValue?, isDiscrete]

theorem ofValue?_of_int? {a : Value} {x : Int} (h : Number.int? a = some x) :
    Number.ofValue? a = some (.int x) := by
  unfold Number.int? at h
  split at h
  · rename_i heq
    rw [heq, Option.some.inj h]
  · cases h

theorem order?_of_int? {a b : Value} {x y : Int} (hx : Number.int? a = some x)
    (hy : Number.int? b = some y) : order? a b = some (Ord.compare x y) := by
  have hleft := ofValue?_of_int? hx
  have hright := ofValue?_of_int? hy
  unfold order?
  split
  · cases hleft
  · cases hleft
  · rw [hleft, hright]
    rfl

theorem equals_of_int? {a b : Value} {x y : Int} (hx : Number.int? a = some x)
    (hy : Number.int? b = some y) : equals a b = (x == y) := by
  have hleft := ofValue?_of_int? hx
  have hright := ofValue?_of_int? hy
  unfold equals
  split
  · cases hleft
  · rw [hleft, hright]
    rfl

theorem order?_eq_some_iff {a b : Value} {o : Ordering} (ha : a.isDiscrete = true)
    (hb : b.isDiscrete = true) : order? a b = some o ↔ Ranked a b o := by
  constructor
  · intro h
    unfold order? at h
    split at h
    · exact .strings (Option.some.inj h)
    · exact .lists h
    · rw [ofValue?_eq ha, ofValue?_eq hb] at h
      cases hx : Number.int? a with
      | none => simp [hx] at h
      | some x =>
        cases hy : Number.int? b with
        | none => simp [hx, hy] at h
        | some y =>
          rw [hx, hy] at h
          exact .integers hx hy (Option.some.inj h)
  · intro h
    cases h with
    | strings order => exact congrArg some order
    | integers left right order => rw [order?_of_int? left right, order]
    | lists order => rw [order?, order]

/-- Values the other way round have the opposite order, if that is so of lists. -/
theorem Ranked.swap {a b : Value} {o : Ordering} (h : Ranked a b o)
    (hlists : ∀ as bs, a = .list as → b = .list bs → itemsOrder? as bs = some o →
      itemsOrder? bs as = some o.swap) : Ranked b a o.swap := by
  cases h with
  | @strings s t _ order =>
    have hswap : Ord.compare t s = (Ord.compare s t).swap := Std.OrientedCmp.eq_swap
    exact .strings (by rw [hswap, order])
  | @integers _ _ x y _ left right order =>
    have hswap : Ord.compare y x = (Ord.compare x y).swap := Std.OrientedCmp.eq_swap
    exact .integers right left (by rw [hswap, order])
  | lists order => exact .lists (hlists _ _ rfl rfl order)

/-- The order is transitive, if that of lists is. -/
theorem Ranked.trans {a b c : Value} (h : Ranked a b .lt) (h' : Ranked b c .lt)
    (hlists : ∀ as bs cs, a = .list as → b = .list bs → c = .list cs →
      itemsOrder? as bs = some .lt → itemsOrder? bs cs = some .lt →
        itemsOrder? as cs = some .lt) : Ranked a c .lt := by
  cases h with
  | strings order =>
    cases h' with
    | strings order' => exact .strings (Std.TransCmp.lt_trans order order')
    | integers left right => cases left
  | integers left right order =>
    cases h' with
    | integers left' right' order' =>
      obtain rfl := Option.some.inj (right.symm.trans left')
      exact .integers left right' (Std.TransCmp.lt_trans order order')
    | strings => cases right
    | lists => cases right
  | lists order =>
    cases h' with
    | lists order' => exact .lists (hlists _ _ _ rfl rfl rfl order order')
    | integers left right => cases left

/-- The order is that of equal values exactly if the values are equal, if that is so of lists. -/
theorem Ranked.eq_iff {a b : Value} {o : Ordering} (h : Ranked a b o)
    (hlists : ∀ as bs, a = .list as → b = .list bs → itemsOrder? as bs = some o →
      (o = .eq ↔ equalItems as bs = true)) : o = .eq ↔ equals a b = true := by
  cases h with
  | strings order =>
    rw [← order, Std.compare_eq_iff_eq]
    simp [equals, Number.ofValue?, same]
  | integers left right order =>
    rw [← order, Std.compare_eq_iff_eq, equals_of_int? left right, beq_iff_eq]
  | lists order =>
    rw [equals]
    exact hlists _ _ rfl rfl order

mutual

/-- Two values the other way round have the opposite order. -/
theorem order?_swap : (a b : Value) → {o : Ordering} → a.isDiscrete = true →
    b.isDiscrete = true → order? a b = some o → order? b a = some o.swap
  | .list as, b, o, ha, hb, h => by
    rw [order?_eq_some_iff ha hb] at h
    rw [order?_eq_some_iff hb ha]
    refine h.swap ?_
    rintro _ bs ⟨⟩ rfl hitems
    exact itemsOrder?_swap as bs ha hb hitems
  | .null, b, o, ha, hb, h | .bool _, b, o, ha, hb, h | .int _, b, o, ha, hb, h
  | .float _, b, o, ha, hb, h | .str _, b, o, ha, hb, h | .dict _, b, o, ha, hb, h => by
    rw [order?_eq_some_iff ha hb] at h
    rw [order?_eq_some_iff hb ha]
    exact h.swap (by simp)

theorem itemsOrder?_swap : (as bs : List Value) → {o : Ordering} → areDiscrete as = true →
    areDiscrete bs = true → itemsOrder? as bs = some o → itemsOrder? bs as = some o.swap
  | [], bs, o, _, _, h => by cases bs <;> (obtain rfl := Option.some.inj h; rfl)
  | a :: as, [], o, _, _, h => by
    obtain rfl := Option.some.inj h
    rfl
  | a :: as, b :: bs, o, ha, hb, h => by
    rw [areDiscrete, Bool.and_eq_true] at ha hb
    rw [itemsOrder?] at h ⊢
    rw [equals_comm ha.1 hb.1]
    split at h
    · rw [if_pos (by assumption)]
      exact itemsOrder?_swap as bs ha.2 hb.2 h
    · rw [if_neg (by assumption)]
      exact order?_swap a b ha.1 hb.1 h

end

mutual

/-- Where two values have an order, it is that of equal values exactly if they are equal. -/
theorem order?_eq_iff : (a b : Value) → {o : Ordering} → a.isDiscrete = true →
    b.isDiscrete = true → order? a b = some o → (o = .eq ↔ equals a b = true)
  | .list as, b, o, ha, hb, h => by
    rw [order?_eq_some_iff ha hb] at h
    refine h.eq_iff ?_
    rintro _ bs ⟨⟩ rfl hitems
    exact itemsOrder?_eq_iff as bs ha hb hitems
  | .null, b, o, ha, hb, h | .bool _, b, o, ha, hb, h | .int _, b, o, ha, hb, h
  | .float _, b, o, ha, hb, h | .str _, b, o, ha, hb, h | .dict _, b, o, ha, hb, h => by
    rw [order?_eq_some_iff ha hb] at h
    exact h.eq_iff (by simp)

theorem itemsOrder?_eq_iff : (as bs : List Value) → {o : Ordering} → areDiscrete as = true →
    areDiscrete bs = true → itemsOrder? as bs = some o → (o = .eq ↔ equalItems as bs = true)
  | [], bs, o, _, _, h => by
    cases bs <;> (obtain rfl := Option.some.inj h; simp [equalItems])
  | a :: as, [], o, _, _, h => by
    obtain rfl := Option.some.inj h
    simp [equalItems]
  | a :: as, b :: bs, o, ha, hb, h => by
    rw [areDiscrete, Bool.and_eq_true] at ha hb
    rw [itemsOrder?] at h
    rw [equalItems, Bool.and_eq_true]
    split at h
    · rename_i hequal
      rw [itemsOrder?_eq_iff as bs ha.2 hb.2 h]
      exact ⟨fun htail => ⟨hequal, htail⟩, And.right⟩
    · rename_i hequal
      rw [order?_eq_iff a b ha.1 hb.1 h]
      exact ⟨fun hfirst => absurd hfirst hequal, And.left⟩

end

/-- What is below a value is not equal to it. -/
theorem not_equals_of_lt {a b : Value} (ha : a.isDiscrete = true) (hb : b.isDiscrete = true)
    (h : order? a b = some .lt) : ¬equals a b = true := by
  rw [← order?_eq_iff a b ha hb h]
  decide

/-- A list is below another if it is so at their first unequal items, or if it ends there. -/
theorem itemsOrder?_cons_eq_lt {a b : Value} {as bs : List Value} :
    itemsOrder? (a :: as) (b :: bs) = some .lt ↔
      (equals a b = true ∧ itemsOrder? as bs = some .lt) ∨
        (¬equals a b = true ∧ order? a b = some .lt) := by
  rw [itemsOrder?]
  split <;> simp_all

mutual

/-- What is below a value is below all values above it. -/
theorem order?_trans : (a b c : Value) → a.isDiscrete = true → b.isDiscrete = true →
    c.isDiscrete = true → order? a b = some .lt → order? b c = some .lt → order? a c = some .lt
  | .list as, b, c, ha, hb, hc, h, h' => by
    rw [order?_eq_some_iff ha hb] at h
    rw [order?_eq_some_iff hb hc] at h'
    rw [order?_eq_some_iff ha hc]
    refine h.trans h' ?_
    rintro _ bs cs ⟨⟩ rfl rfl hitems hitems'
    exact itemsOrder?_trans as bs cs ha hb hc hitems hitems'
  | .null, b, c, ha, hb, hc, h, h' | .bool _, b, c, ha, hb, hc, h, h'
  | .int _, b, c, ha, hb, hc, h, h' | .float _, b, c, ha, hb, hc, h, h'
  | .str _, b, c, ha, hb, hc, h, h' | .dict _, b, c, ha, hb, hc, h, h' => by
    rw [order?_eq_some_iff ha hb] at h
    rw [order?_eq_some_iff hb hc] at h'
    rw [order?_eq_some_iff ha hc]
    exact h.trans h' (by simp)

theorem itemsOrder?_trans : (as bs cs : List Value) → areDiscrete as = true →
    areDiscrete bs = true → areDiscrete cs = true → itemsOrder? as bs = some .lt →
    itemsOrder? bs cs = some .lt → itemsOrder? as cs = some .lt
  | [], bs, [], _, _, _, _, h' => by cases bs <;> simp [itemsOrder?] at h'
  | [], _, _ :: _, _, _, _, _, _ => rfl
  | _ :: _, [], _, _, _, _, h, _ => by simp [itemsOrder?] at h
  | _ :: _, _ :: _, [], _, _, _, _, h' => by simp [itemsOrder?] at h'
  | a :: as, b :: bs, c :: cs, ha, hb, hc, h, h' => by
    rw [areDiscrete, Bool.and_eq_true] at ha hb hc
    rw [itemsOrder?_cons_eq_lt] at h h' ⊢
    rcases h with ⟨hequal, htail⟩ | ⟨-, hfirst⟩
    · rcases h' with ⟨hequal', htail'⟩ | ⟨-, hfirst'⟩
      · have hends : equals a c = true := equals_trans ha.1 hb.1 hc.1 hequal hequal'
        exact .inl ⟨hends, itemsOrder?_trans as bs cs ha.2 hb.2 hc.2 htail htail'⟩
      · have hends : order? a c = some .lt := by
          rw [order?_congr ha.1 hb.1 hc.1 hc.1 hequal (equals_refl hc.1), hfirst']
        exact .inr ⟨not_equals_of_lt ha.1 hc.1 hends, hends⟩
    · have hends : order? a c = some .lt := by
        rcases h' with ⟨hequal', -⟩ | ⟨-, hfirst'⟩
        · rw [← order?_congr ha.1 ha.1 hb.1 hc.1 (equals_refl ha.1) hequal', hfirst]
        · exact order?_trans a b c ha.1 hb.1 hc.1 hfirst hfirst'
      exact .inr ⟨not_equals_of_lt ha.1 hc.1 hends, hends⟩

end

/-! ## Comparisons -/

/-- A comparison of two values, written as a condition. -/
def comparison (op : CompareOp) (a b : Value) : Except Error Value :=
  evaluate (.value a :: op.operands ++ [.value b])

/-- A comparison that fails since its operands are of types that have no order. -/
def Incomparable (op : CompareOp) (a b : Value) : Prop :=
  ∃ symbol, op.words = [symbol] ∧
    comparison op a b = .error (.operandTypes symbol a.type b.type)

theorem comparison_eq_compare (op : CompareOp) (a b : Value) :
    comparison op a b = (compare op a b).map .bool := by
  have hvalue : ∀ v : Value, eval (.value v) = .ok v := fun v => by rw [eval]
  have hlink := (Reads.ofValue .bitOr a).evaluate_link (hvalue a) (op, [.value b], .value b)
    (.ofValue .bitOr b)
  rw [← linkValue_of_ok (hvalue b)]
  exact hlink

/-- The comparisons by order. -/
def CompareOp.orders : List CompareOp :=
  [.lt, .le, .gt, .ge]

theorem incomparable_iff {op : CompareOp} (hop : op ∈ CompareOp.orders) {a b : Value} :
    Incomparable op a b ↔ order? a b = none := by
  simp only [CompareOp.orders, List.mem_cons, List.not_mem_nil, or_false] at hop
  unfold Incomparable
  rw [comparison_eq_compare]
  rcases hop with rfl | rfl | rfl | rfl
  all_goals
    rw [compare, ordered]
    cases order? a b <;> simp [Except.map, CompareOp.words]

/-- Two values have an order if they have one the other way round. -/
theorem order?_eq_none_iff {a b : Value} (ha : a.isDiscrete = true) (hb : b.isDiscrete = true) :
    order? a b = none ↔ order? b a = none := by
  cases h : order? a b with
  | some o => simp [order?_swap a b ha hb h]
  | none =>
    cases h' : order? b a with
    | some o => simp [order?_swap b a hb ha h'] at h
    | none => simp

/-- Where two values have an order, all comparisons by order read it. -/
theorem comparison_of_order? {a b : Value} {o : Ordering} (h : order? a b = some o) :
    comparison .lt a b = .ok (.bool o.isLT) ∧ comparison .le a b = .ok (.bool o.isLE) ∧
      comparison .gt a b = .ok (.bool o.isGT) ∧ comparison .ge a b = .ok (.bool o.isGE) := by
  simp only [comparison_eq_compare, compare, ordered, h]
  exact ⟨rfl, rfl, rfl, rfl⟩

theorem comparison_lt_iff {a b : Value} :
    comparison .lt a b = .ok (.bool true) ↔ order? a b = some .lt := by
  rw [comparison_eq_compare, compare, ordered]
  cases order? a b with
  | none => simp [Except.map]
  | some o => cases o <;> simp [Except.map, Ordering.isLT]

theorem comparison_equal_iff {a b : Value} :
    comparison .eq a b = .ok (.bool true) ↔ equals a b = true := by
  rw [comparison_eq_compare, compare]
  simp [Except.map]

/-- Comparisons of values without doubles agree with each other. Equality is an equivalence. Whether
two values have an order does not depend on the operator nor on which of them comes first; if they
have one, then one of them is below the other or they are equal, and `<=` and `>=` say so too. What
is below a value is below all values above it. -/
theorem comparisons_consistent {a b c : Value} (ha : a.isDiscrete = true)
    (hb : b.isDiscrete = true) (hc : c.isDiscrete = true) :
    (comparison .eq a a = .ok (.bool true) ∧
      (comparison .eq a b = .ok (.bool true) → comparison .eq b a = .ok (.bool true)) ∧
      (comparison .eq a b = .ok (.bool true) → comparison .eq b c = .ok (.bool true) →
        comparison .eq a c = .ok (.bool true)) ∧
      ∃ equal : Bool, comparison .eq a b = .ok (.bool equal) ∧
        comparison .ne a b = .ok (.bool !equal)) ∧
    (∀ op ∈ CompareOp.orders, Incomparable op a b ↔ Incomparable .lt b a) ∧
    (¬Incomparable .lt a b → ∃ below equal above : Bool,
      comparison .lt a b = .ok (.bool below) ∧ comparison .eq a b = .ok (.bool equal) ∧
      comparison .gt a b = .ok (.bool above) ∧ [below, equal, above].count true = 1 ∧
      comparison .le a b = .ok (.bool !above) ∧ comparison .ge a b = .ok (.bool !below)) ∧
    (comparison .lt a b = .ok (.bool true) → comparison .lt b c = .ok (.bool true) →
      comparison .lt a c = .ok (.bool true)) := by
  simp only [comparison_lt_iff, comparison_equal_iff]
  refine ⟨⟨equals_refl ha, ?_, equals_trans ha hb hc, ?_⟩, ?_, ?_, order?_trans a b c ha hb hc⟩
  · intro h
    rwa [equals_comm ha hb]
  · rw [comparison_eq_compare, comparison_eq_compare]
    exact ⟨equals a b, rfl, rfl⟩
  · intro op hop
    rw [incomparable_iff hop, incomparable_iff (by decide), order?_eq_none_iff ha hb]
  · intro hcomparable
    rw [incomparable_iff (by decide), ← ne_eq, Option.ne_none_iff_exists'] at hcomparable
    obtain ⟨o, ho⟩ := hcomparable
    obtain ⟨hlt, hle, hgt, hge⟩ := comparison_of_order? ho
    have hequal : comparison .eq a b = .ok (.bool (o == .eq)) := by
      have hequals : equals a b = (o == .eq) := by
        rw [Bool.eq_iff_iff, ← order?_eq_iff a b ha hb ho, beq_iff_eq]
      rw [comparison_eq_compare, compare, hequals]
      rfl
    refine ⟨o.isLT, o == .eq, o.isGT, hlt, hequal, hgt, ?_⟩
    rw [hle, hge]
    cases o <;> exact ⟨rfl, rfl, rfl⟩

/-- The order of three lists with a boolean in the place of a number, nested lists and an item that
has no order behind those that decide. -/
theorem comparisons_consistent_lists :
    Value.isDiscrete (.list [.int 1, .list [.bool true]]) = true ∧
      Value.isDiscrete (.list [.bool true, .list [.int 2]]) = true ∧
      Value.isDiscrete (.list [.int 1, .list [.int 2], .null]) = true ∧
      comparison .lt (.list [.int 1, .list [.bool true]])
        (.list [.int 1, .list [.int 2], .null]) = .ok (.bool true) := by
  have hleft : Value.isDiscrete (.list [.int 1, .list [.bool true]]) = true := rfl
  have hmiddle : Value.isDiscrete (.list [.bool true, .list [.int 2]]) = true := rfl
  have hright : Value.isDiscrete (.list [.int 1, .list [.int 2], .null]) = true := rfl
  have hconsistent := comparisons_consistent hleft hmiddle hright
  exact ⟨hleft, hmiddle, hright, hconsistent.2.2.2 rfl rfl⟩

end Condition

end Stencil
