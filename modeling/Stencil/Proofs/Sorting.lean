import Stencil.Filter.Apply
import Stencil.Proofs.SortKeys
import Stencil.Proofs.StableOrder

/-!
# Sorting

A list is sorted by the keys of its items or not at all (`sortValue`). If all items have keys that
can be sorted together, then the result is the one list that is in order of the keys and leaves
items with equal keys as they stood. Since there is only one, sorting in descending order is sorting
the list from its end and turning the result round.
-/

namespace Stencil

namespace Filter

/-! ## What sorting is to give -/

/-- The items of a list can be sorted: all have a key, and the keys can be sorted together. -/
def Sortable (key first : Value) (items : List Value) : Prop :=
  ∃ keys, List.Forall₂ (HasKey key first) items keys ∧ AreAlike keys

/-- An order asks for the greatest key first if it begins with the letter r. -/
def AsksReverse (order : Value) : Prop :=
  order.displayChars.head? = some 'r' ∨ order.displayChars.head? = some 'R'

instance (order : Value) : Decidable (AsksReverse order) :=
  inferInstanceAs (Decidable (_ ∨ _))

/-- The key of an item is not beyond that of another in ascending or in descending order. -/
def Precedes (key first : Value) (descending : Prop) (a b : Value) : Prop :=
  ∃ k l o, HasKey key first a k ∧ HasKey key first b l ∧ keyOrder? k l = some o ∧
    (¬descending → o ≠ .gt) ∧ (descending → o ≠ .lt)

/-- Two items have equal keys. -/
def Ties (key first a b : Value) : Prop :=
  ∃ k l, HasKey key first a k ∧ HasKey key first b l ∧ keyOrder? k l = some .eq

/-! ## The sort -/

/-- The comparison of two keys that the sort goes by. -/
def keyLe (descending : Bool) (k l : Value) : Bool :=
  match keyOrder? k l with
  | some .lt => !descending
  | some .gt => descending
  | _ => true

theorem keyLe_of_compare {β : Type} [LinearOrder β] {k l : Value} {x y : β}
    (h : keyOrder? k l = some (compare x y)) :
    keyLe false k l = decide (x ≤ y) ∧ keyLe true k l = decide (y ≤ x) := by
  unfold keyLe
  rw [h]
  rcases lt_trichotomy x y with hlt | heq | hgt
  · rw [compare_lt_iff_lt.2 hlt]
    simp [hlt, hlt.le]
  · rw [compare_eq_iff_eq.2 heq]
    simp [heq]
  · rw [compare_gt_iff_gt.2 hgt]
    simp [hgt, hgt.le]

section Reader

variable {key first : Value} {readKey : Value → Except SortKeyError Value}

/-- The key that a reader finds, or null. -/
def keyOf (readKey : Value → Except SortKeyError Value) (item : Value) : Value :=
  match readKey item with
  | .ok k => k
  | .error _ => .null

/-- A reader finds a key in every item, and the keys can be sorted together. -/
structure ReadsAlike (readKey : Value → Except SortKeyError Value) (items : List Value) :
    Prop where
  keys : ∀ item ∈ items, readKey item = .ok (keyOf readKey item)
  alike : AreAlike (items.map (keyOf readKey))

theorem mapM_pairs {items : List Value}
    (h : ∀ item ∈ items, readKey item = .ok (keyOf readKey item)) :
    (items.mapM fun item => (readKey item).map fun k => (k, item)) =
      .ok (items.map fun item => (keyOf readKey item, item)) := by
  induction items with
  | nil => rfl
  | cons item items ih =>
    rw [List.mapM_cons, h item (by simp), ih fun other hother => h other (by simp [hother])]
    rfl

/-- An item without a key stops the reading of keys. -/
theorem mapM_pairs_error {items : List Value}
    (h : ¬∀ item ∈ items, readKey item = .ok (keyOf readKey item)) :
    ∃ reason, (items.mapM fun item => (readKey item).map fun k => (k, item)) = .error reason := by
  induction items with
  | nil => exact absurd (fun item hitem => absurd hitem List.not_mem_nil) h
  | cons item items ih =>
    rw [List.mapM_cons]
    cases hkey : readKey item with
    | error reason => exact ⟨reason, rfl⟩
    | ok k =>
      have hrest : ¬∀ item ∈ items, readKey item = .ok (keyOf readKey item) := by
        intro hall
        refine h fun other hother => ?_
        rcases List.mem_cons.1 hother with rfl | hother
        · rw [keyOf, hkey]
        · exact hall other hother
      obtain ⟨reason, hreason⟩ := ih hrest
      rw [hreason]
      exact ⟨reason, rfl⟩

/-- The pairs of keys and items are sorted as the items are. -/
theorem sortPairs_eq (descending : Bool) (items : List Value) :
    (sortPairs descending (items.map fun item => (keyOf readKey item, item))).map Prod.snd =
      items.mergeSort fun a b => keyLe descending (keyOf readKey a) (keyOf readKey b) := by
  have hpairs : sortPairs descending (items.map fun item => (keyOf readKey item, item)) =
      (items.mergeSort fun a b => keyLe descending (keyOf readKey a) (keyOf readKey b)).map
        fun item => (keyOf readKey item, item) := by
    rw [sortPairs, List.map_mergeSort]
    intro a _ b _
    rfl
  rw [hpairs, List.map_map]
  exact List.map_id _

/-- The sort looks at the pairs with the first key only, which is enough. -/
theorem any_isNone_iff (rest : List Value) :
    ((first :: rest).map fun item => (keyOf readKey item, item)).any
        (fun pair => (keyOrder? (keyOf readKey first) pair.1).isNone) = true ↔
      ¬AreAlike ((first :: rest).map (keyOf readKey)) := by
  rw [List.map_cons (f := keyOf readKey), areAlike_iff, List.any_map, List.any_eq_true]
  simp only [← List.map_cons, List.forall_mem_map, not_forall, Function.comp_apply,
    Bool.not_eq_true, Option.isNone_iff_eq_none, Option.isSome_eq_false_iff, exists_prop]

variable (hread : keyReader? first key = some readKey)
include hread

/-- Items are sorted by their keys if all have one and these can be sorted together. -/
theorem sortValue_of_readsAlike {rest : List Value} (h : ReadsAlike readKey (first :: rest))
    (order : Value) :
    sortValue (.list (first :: rest)) key order =
      pure (.list ((first :: rest).mergeSort fun a b =>
        keyLe (isDescending order) (keyOf readKey a) (keyOf readKey b))) := by
  have hcompared := mt (any_isNone_iff rest).1 (not_not_intro h.alike)
  rw [← sortPairs_eq]
  simp only [sortValue, hread, mapM_pairs h.keys]
  exact if_neg hcompared

/-- If an item has no key, or two keys cannot be compared, then the answer is null. -/
theorem sortValue_of_not_readsAlike {rest : List Value}
    (h : ¬ReadsAlike readKey (first :: rest)) (order : Value) :
    (sortValue (.list (first :: rest)) key order).value = .null := by
  by_cases hkeys : ∀ item ∈ first :: rest, readKey item = .ok (keyOf readKey item)
  · have hcompared := (any_isNone_iff rest).2 fun halike => h ⟨hkeys, halike⟩
    simp only [sortValue, hread, mapM_pairs hkeys]
    exact congrArg Logged.value (if_pos hcompared)
  · obtain ⟨reason, hreason⟩ := mapM_pairs_error hkeys
    simp only [sortValue, hread, hreason]
    rfl

/-- What a reader finds is the key of an item. -/
theorem hasKey_iff {item k : Value} (h : readKey item = .ok (keyOf readKey item)) :
    HasKey key first item k ↔ k = keyOf readKey item := by
  rw [← readKey_eq_ok_iff hread, h, Except.ok.injEq, eq_comm]

/-- A reader finds the keys that items have. -/
theorem found_of_hasKey {item k : Value} (h : HasKey key first item k) :
    readKey item = .ok k ∧ keyOf readKey item = k := by
  have hok := (readKey_eq_ok_iff hread).2 h
  exact ⟨hok, by rw [keyOf, hok]⟩

/-- Items can be sorted if a reader finds keys in them that can be sorted together. -/
theorem sortable_iff {items : List Value} :
    Sortable key first items ↔ ReadsAlike readKey items := by
  constructor
  · rintro ⟨keys, hkeys, halike⟩
    have hmap : items.map (keyOf readKey) = keys := by
      have hsame : List.Forall₂ (fun item k => keyOf readKey item = k) items keys :=
        hkeys.imp fun _ _ hk => (found_of_hasKey hread hk).2
      rw [← List.forall₂_eq_eq_eq, List.forall₂_map_left_iff]
      exact hsame
    rw [← hmap] at hkeys halike
    rw [List.forall₂_map_right_iff, List.forall₂_same] at hkeys
    exact ⟨fun item hitem => (found_of_hasKey hread (hkeys item hitem)).1, halike⟩
  · rintro ⟨hkeys, halike⟩
    refine ⟨items.map (keyOf readKey), ?_, halike⟩
    rw [List.forall₂_map_right_iff, List.forall₂_same]
    exact fun item hitem => (readKey_eq_ok_iff hread).1 (hkeys item hitem)

/-- Items that can be sorted have ranks in a linear order, ascending or descending, and the sort
goes by them. -/
theorem ReadsAlike.exists_rank {items : List Value} (h : ReadsAlike readKey items)
    (descending : Bool) :
    ∃ (β : Type) (_ : LinearOrder β) (rank : Value → β), ∀ a ∈ items, ∀ b ∈ items,
      (Precedes key first (descending = true) a b ↔ rank a ≤ rank b) ∧
      (Ties key first a b ↔ rank a = rank b) ∧
      keyLe descending (keyOf readKey a) (keyOf readKey b) = decide (rank a ≤ rank b) := by
  obtain ⟨β, hβ, rank, hrank⟩ := h.alike.exists_rank
  have horder : ∀ a ∈ items, ∀ b ∈ items, keyOrder? (keyOf readKey a) (keyOf readKey b) =
      some (compare (rank (keyOf readKey a)) (rank (keyOf readKey b))) := fun a ha b hb =>
    hrank _ (List.mem_map_of_mem ha) _ (List.mem_map_of_mem hb)
  have hties : ∀ a ∈ items, ∀ b ∈ items, Ties key first a b ↔
      rank (keyOf readKey a) = rank (keyOf readKey b) := by
    intro a ha b hb
    simp only [Ties, hasKey_iff hread (h.keys a ha), hasKey_iff hread (h.keys b hb),
      exists_and_left, exists_eq_left, horder a ha b hb, Option.some.injEq, compare_eq_iff_eq]
  have hprecedes : ∀ a ∈ items, ∀ b ∈ items, Precedes key first (descending = true) a b ↔
      (descending = false → compare (rank (keyOf readKey a)) (rank (keyOf readKey b)) ≠ .gt) ∧
      (descending = true → compare (rank (keyOf readKey a)) (rank (keyOf readKey b)) ≠ .lt) := by
    intro a ha b hb
    simp only [Precedes, hasKey_iff hread (h.keys a ha), hasKey_iff hread (h.keys b hb),
      exists_and_left, exists_eq_left, horder a ha b hb, Option.some.injEq, Bool.not_eq_true,
      exists_eq_left']
  cases descending with
  | false =>
    refine ⟨β, hβ, rank ∘ keyOf readKey, fun a ha b hb => ⟨?_, hties a ha b hb, ?_⟩⟩
    · rw [hprecedes a ha b hb]
      simp [compare_gt_iff_gt]
    · exact (keyLe_of_compare (horder a ha b hb)).1
  | true =>
    -- Descending order is the dual order of the same ranks, so equal keys are still equal.
    refine ⟨βᵒᵈ, inferInstance, OrderDual.toDual ∘ rank ∘ keyOf readKey,
      fun a ha b hb => ⟨?_, hties a ha b hb, ?_⟩⟩
    · rw [hprecedes a ha b hb]
      simp [compare_lt_iff_lt]
    · exact (keyLe_of_compare (horder a ha b hb)).2

/-- The sort leaves the items in stable order. -/
theorem ReadsAlike.stablySorted {items : List Value} (h : ReadsAlike readKey items)
    (descending : Bool) :
    StablySorted (Precedes key first (descending = true)) (Ties key first) items
      (items.mergeSort fun a b => keyLe descending (keyOf readKey a) (keyOf readKey b)) := by
  obtain ⟨β, hβ, rank, hrank⟩ := h.exists_rank hread descending
  -- Keys that cannot be compared do not occur, so the sort may go by the ranks everywhere.
  have hsort : (items.mergeSort fun a b => keyLe descending (keyOf readKey a) (keyOf readKey b)) =
      items.mergeSort fun a b => decide (rank a ≤ rank b) := by
    have hmap := List.map_mergeSort (f := id) (s := fun a b => decide (rank a ≤ rank b))
      (r := fun a b => keyLe descending (keyOf readKey a) (keyOf readKey b))
      fun a ha b hb => (hrank a ha b hb).2.2
    rwa [List.map_id, List.map_id] at hmap
  rw [hsort]
  exact (StablySorted.mergeSort rank items).congr (fun a ha b hb => (hrank a ha b hb).1.2)
    fun a ha b hb => (hrank a ha b hb).2.1.1

/-- There is no other stable order. -/
theorem ReadsAlike.unique {items : List Value} (h : ReadsAlike readKey items) {descending : Bool}
    {xs ys : List Value}
    (hxs : StablySorted (Precedes key first (descending = true)) (Ties key first) items xs)
    (hys : StablySorted (Precedes key first (descending = true)) (Ties key first) items ys) :
    xs = ys := by
  obtain ⟨β, hβ, rank, hrank⟩ := h.exists_rank hread descending
  have hranked : ∀ {zs : List Value},
      StablySorted (Precedes key first (descending = true)) (Ties key first) items zs →
        StablySorted (fun a b => rank a ≤ rank b) (fun a b => rank a = rank b) items zs :=
    fun hzs => hzs.congr (fun a ha b hb => (hrank a ha b hb).1.1)
      fun a ha b hb => (hrank a ha b hb).2.1.2
  exact (hranked hxs).unique (hranked hys)

end Reader

/-! ## The letter of the order -/

end Filter

namespace Text

/-- No run of the table leads to the letter r from outside the first 128 characters. -/
theorem target?_ne_of_mem_lowerRuns {run : CaseRun} (hrun : run ∈ lowerRuns) {n : Nat}
    (hn : 128 ≤ n) : run.target? n ≠ some 'r' := by
  have hbounds : lowerRuns.all (fun run => decide
      (114 - run.offset < max 128 run.first ∨ (run.last : Int) < 114 - run.offset)) = true := by
    decide +kernel
  have hbound := of_decide_eq_true (List.all_eq_true.1 hbounds run hrun)
  intro htarget
  unfold CaseRun.target? at htarget
  split at htarget
  · rename_i hin
    have hcode : (n + run.offset).toNat = 114 := by
      have htoNat := congrArg Char.toNat (Option.some.inj htarget)
      rw [Char.toNat_ofNat] at htoNat
      split at htoNat
      · exact htoNat
      · cases htoNat
    omega
  · cases htarget

/-- Only the two letters r have the small one as their lower case. -/
theorem head?_lowerChar_iff {c : Char} :
    (lowerChar c).head? = some 'r' ↔ c = 'r' ∨ c = 'R' := by
  have hascii : ∀ n < 128, (Char.ofNat n).toLower = 'r' ↔
      Char.ofNat n = 'r' ∨ Char.ofNat n = 'R' := by decide
  by_cases hc : c.toNat < 128
  · have hiff := hascii c.toNat hc
    rw [Char.ofNat_toNat] at hiff
    rw [lowerChar, if_pos hc, List.head?_cons, Option.some.injEq, hiff]
  · have hletters : ¬(c = 'r' ∨ c = 'R') := by
      rintro (rfl | rfl)
      · exact hc (by decide)
      · exact hc (by decide)
    refine ⟨fun h => ?_, fun h => absurd h hletters⟩
    rw [lowerChar, if_neg hc] at h
    split at h
    · exact absurd h (by decide)
    · rw [List.head?_cons, Option.some.injEq] at h
      cases hfound : lowerRuns.findSome? (·.target? c.toNat) with
      | none =>
        rw [hfound] at h
        exact .inl h
      | some d =>
        obtain ⟨run, hrun, htarget⟩ := List.exists_of_findSome?_eq_some hfound
        rw [hfound] at h
        obtain rfl : d = 'r' := h
        exact absurd htarget (target?_ne_of_mem_lowerRuns hrun (by omega))

/-- A text in lower case begins with the letter r only if the text does in either case. -/
theorem head?_lower_iff {cs : List Char} :
    (lower cs).head? = some 'r' ↔ cs.head? = some 'r' ∨ cs.head? = some 'R' := by
  cases cs with
  | nil => simp [lower, lowerFrom]
  | cons c cs =>
    rw [List.head?_cons, Option.some.injEq, Option.some.injEq, ← head?_lowerChar_iff]
    by_cases hsigma : c = 'Σ'
    · subst hsigma
      have hlower : (lower ('Σ' :: cs)).head? = some 'σ' ∨
          (lower ('Σ' :: cs)).head? = some 'ς' := by
        simp only [lower, lowerFrom, if_true]
        split
        · exact .inr rfl
        · exact .inl rfl
      have hchar : (lowerChar 'Σ').head? ≠ some 'r' := mt head?_lowerChar_iff.1 (by decide)
      refine ⟨fun h => ?_, fun h => absurd h hchar⟩
      rw [h] at hlower
      exact absurd hlower (by decide)
    · have hlower : lower (c :: cs) = lowerChar c ++ lowerFrom [c] cs := by
        simp only [lower, lowerFrom, if_neg hsigma]
      have hne : lowerChar c ≠ [] := by
        unfold lowerChar
        split
        · exact List.cons_ne_nil _ _
        · split <;> exact List.cons_ne_nil _ _
      obtain ⟨d, ds, hd⟩ := List.exists_cons_of_ne_nil hne
      rw [hlower, hd]
      rfl

end Text

namespace Filter

theorem isDescending_iff {order : Value} : isDescending order = true ↔ AsksReverse order := by
  rw [isDescending, beq_iff_eq, Text.head?_lower_iff]
  rfl

/-! ## The whole sort -/

section Whole

variable {key first : Value} {items : List Value} (hfirst : items.head? = some first)
  (hkind : first.type = .dict ∨ first.type = .list)
include hfirst hkind

theorem sortValue_of_sortable (h : Sortable key first items) (order : Value) :
    ∃ sorted, sortValue (.list items) key order = pure (.list sorted) ∧
      StablySorted (Precedes key first (AsksReverse order)) (Ties key first) items sorted := by
  obtain ⟨readKey, hread⟩ := exists_keyReader hkind key
  obtain ⟨rest, rfl⟩ := List.head?_eq_some_iff.1 hfirst
  have halike := (sortable_iff hread).1 h
  refine ⟨_, sortValue_of_readsAlike hread halike order, ?_⟩
  rw [← isDescending_iff]
  exact halike.stablySorted hread (isDescending order)

theorem sortValue_of_not_sortable (h : ¬Sortable key first items) (order : Value) :
    (sortValue (.list items) key order).value = .null := by
  obtain ⟨readKey, hread⟩ := exists_keyReader hkind key
  obtain ⟨rest, rfl⟩ := List.head?_eq_some_iff.1 hfirst
  exact sortValue_of_not_readsAlike hread (mt (sortable_iff hread).2 h) order

/-- The stable order of the items is what the sort gives. -/
theorem sortValue_of_stablySorted (h : Sortable key first items) {order : Value}
    {sorted : List Value}
    (hsorted : StablySorted (Precedes key first (AsksReverse order)) (Ties key first) items
      sorted) :
    (sortValue (.list items) key order).value = .list sorted := by
  obtain ⟨readKey, hread⟩ := exists_keyReader hkind key
  obtain ⟨found, hfound, hstable⟩ := sortValue_of_sortable hfirst hkind h order
  rw [← isDescending_iff] at hsorted hstable
  rw [hfound, ((sortable_iff hread).1 h).unique hread hsorted hstable]
  rfl

end Whole

/-! ## Descending order -/

/-- Keys the other way round have the opposite order. -/
theorem keyOrder?_swap {k l : Value} {o : Ordering} (h : keyOrder? k l = some o) :
    keyOrder? l k = some o.swap := by
  have halike : AreAlike [k, l] := by
    rcases alike_of_keyOrder? h with ⟨hk, hl⟩ | ⟨hk, hl⟩
    · exact .inl (by simp [hk, hl])
    · exact .inr (by simp [hk, hl])
  obtain ⟨β, hβ, rank, hrank⟩ := halike.exists_rank
  rw [hrank k (by simp) l (by simp), Option.some.injEq] at h
  rw [hrank l (by simp) k (by simp), ← h]
  exact congrArg some Std.OrientedCmp.eq_swap

theorem Precedes.swap {key first a b : Value} {up down : Prop} (hup : ¬up) (hdown : down)
    (h : Precedes key first up b a) : Precedes key first down a b := by
  obtain ⟨k, l, o, hk, hl, horder, hascending, -⟩ := h
  refine ⟨l, k, o.swap, hl, hk, keyOrder?_swap horder, fun hnot => absurd hdown hnot, fun _ => ?_⟩
  cases o with
  | lt => exact nofun
  | eq => exact nofun
  | gt => exact absurd rfl (hascending hup)

/-- Only the kind of the first item matters to the keys. -/
theorem HasKey.of_type {key first other item value : Value} (h : HasKey key first item value)
    (htype : first.type = other.type) : HasKey key other item value := by
  cases other with
  | dict =>
    cases h with
    | field hwalk => exact .field hwalk
    | front => cases htype
    | back => cases htype
  | list =>
    cases h with
    | field => cases htype
    | front hindex hget => exact .front hindex hget
    | back hindex hget => exact .back hindex hget
  | _ => cases h <;> cases htype

theorem hasKey_congr {key first other : Value} (h : first.type = other.type) :
    HasKey key first = HasKey key other := by
  funext item value
  exact propext ⟨fun hkey => hkey.of_type h, fun hkey => hkey.of_type h.symm⟩

theorem precedes_congr {key first other : Value} (h : first.type = other.type) :
    Precedes key first = Precedes key other := by
  funext descending a b
  rw [Precedes, Precedes, hasKey_congr h]

theorem ties_congr {key first other : Value} (h : first.type = other.type) :
    Ties key first = Ties key other := by
  funext a b
  rw [Ties, Ties, hasKey_congr h]

theorem Ties.symm {key first a b : Value} (h : Ties key first a b) : Ties key first b a := by
  obtain ⟨k, l, hk, hl, horder⟩ := h
  exact ⟨l, k, hl, hk, keyOrder?_swap horder⟩

/-- What can be sorted can be sorted from its end. -/
theorem Sortable.reverse {key first : Value} {items : List Value} (h : Sortable key first items) :
    Sortable key first items.reverse := by
  obtain ⟨keys, hkeys, halike⟩ := h
  refine ⟨keys.reverse, List.forall₂_reverse_iff.2 hkeys, ?_⟩
  unfold AreAlike at halike ⊢
  simpa only [List.mem_reverse] using halike

theorem sortable_reverse_iff {key first : Value} {items : List Value} :
    Sortable key first items.reverse ↔ Sortable key first items := by
  refine ⟨fun h => ?_, Sortable.reverse⟩
  have hback := h.reverse
  rwa [List.reverse_reverse] at hback

/-- Two answers of a sort are each other's reverse, or both are null. -/
def Mirrored (a b : Value) : Prop :=
  (∃ items, a = .list items ∧ b = .list items.reverse) ∨ (a = .null ∧ b = .null)

section Mirrored

variable {key first : Value} {items : List Value} {up down : Value} (hup : ¬AsksReverse up)
  (hdown : AsksReverse down)
include hup hdown

/-- Sorted from its end and turned round, a list is in descending order. -/
theorem stablySorted_turned {sorted : List Value}
    (h : StablySorted (Precedes key first (AsksReverse up)) (Ties key first) items.reverse sorted) :
    StablySorted (Precedes key first (AsksReverse down)) (Ties key first) items
      sorted.reverse := by
  have hreverse := h.reverse
  rw [List.reverse_reverse] at hreverse
  exact hreverse.congr (fun a _ b _ hprecedes => hprecedes.swap hup hdown) fun a _ b _ => id

/-- Sorting in descending order is sorting from the end and turning the result round. -/
theorem mirrored_sortValue_reverse
    (hkinds : (∀ item ∈ items, item.type = .dict) ∨ ∀ item ∈ items, item.type = .list) :
    Mirrored (sortValue (.list items.reverse) key up).value
      (sortValue (.list items) key down).value := by
  rcases List.eq_nil_or_concat' items with rfl | ⟨front, last, hlast⟩
  · exact .inl ⟨[], rfl, rfl⟩
  have hne : items ≠ [] := by simp [hlast]
  obtain ⟨first, hfirst⟩ : ∃ first, items.head? = some first := ⟨_, List.head?_eq_some_head hne⟩
  have hend : items.reverse.head? = some last := by simp [hlast]
  have hfirstMem : first ∈ items := List.mem_of_mem_head? hfirst
  have hlastMem : last ∈ items := by simp [hlast]
  obtain ⟨hkind, hsame⟩ : (first.type = .dict ∨ first.type = .list) ∧ last.type = first.type := by
    rcases hkinds with hdict | hlist
    · exact ⟨.inl (hdict first hfirstMem), (hdict last hlastMem).trans (hdict first hfirstMem).symm⟩
    · exact ⟨.inr (hlist first hfirstMem), (hlist last hlastMem).trans (hlist first hfirstMem).symm⟩
  have hsortable : Sortable key last items.reverse ↔ Sortable key first items := by
    rw [sortable_reverse_iff, Sortable, Sortable, hasKey_congr hsame]
  by_cases h : Sortable key first items
  · obtain ⟨sorted, hsorted, hstable⟩ :=
      sortValue_of_sortable hend (hsame ▸ hkind) (hsortable.2 h) up
    rw [precedes_congr hsame, ties_congr hsame] at hstable
    exact .inl ⟨sorted, congrArg Logged.value hsorted,
      sortValue_of_stablySorted hfirst hkind h (stablySorted_turned hup hdown hstable)⟩
  · exact .inr ⟨sortValue_of_not_sortable hend (hsame ▸ hkind) (mt hsortable.1 h) up,
      sortValue_of_not_sortable hfirst hkind h down⟩

/-- If no two keys are equal, sorting in descending order is turning the sorted list round. -/
theorem mirrored_sortValue (hfirst : items.head? = some first)
    (hkind : first.type = .dict ∨ first.type = .list)
    (hapart : items.Pairwise fun a b => ¬Ties key first a b) :
    Mirrored (sortValue (.list items) key up).value (sortValue (.list items) key down).value := by
  by_cases h : Sortable key first items
  · obtain ⟨sorted, hsorted, hstable⟩ := sortValue_of_sortable hfirst hkind h up
    have hback : items.reverse.Pairwise fun a b => ¬Ties key first a b :=
      List.pairwise_reverse.2 (hapart.imp fun hnot hties => hnot hties.symm)
    have hturned := stablySorted_turned hup hdown
      (hstable.of_perm (List.reverse_perm items).symm hback)
    exact .inl ⟨sorted, congrArg Logged.value hsorted,
      sortValue_of_stablySorted hfirst hkind h hturned⟩
  · exact .inr ⟨sortValue_of_not_sortable hfirst hkind h up,
      sortValue_of_not_sortable hfirst hkind h down⟩

end Mirrored

/-! ## The filters -/

/-- The types of values that the filters accept as a key. -/
def keyTypes : List ValueType := [.str, .int, .bool]

/-- With arguments that it accepts the filter sorts by them. -/
theorem dictSort_apply (s : Surroundings) {key order : Value} (hkey : key.type ∈ keyTypes)
    (horder : order.type = .str) (value : Value) :
    dictSort.apply s value [key, order] = sortValue value key order := by
  cases order with
  | str =>
    cases key with
    | str | int | bool => rfl
    | _ => simp [Value.type, keyTypes] at hkey
  | _ => cases horder

/-- With one argument both filters sort by the same key, the one in ascending and the other in
descending order. -/
theorem exists_sortKey (key : Value) : ∃ used : Value,
    (key.type ∈ keyTypes → used = key) ∧
    ∀ (s : Surroundings) (value : Value),
      (dictSort.apply s value [key]).value = (sortValue value used (.str "")).value ∧
      (dictSortReversed.apply s value [key]).value =
        (sortValue value used (.str "reverse")).value := by
  cases key with
  | str t => exact ⟨.str t, fun _ => rfl, fun s value => ⟨rfl, rfl⟩⟩
  | int n => exact ⟨.int n, fun _ => rfl, fun s value => ⟨rfl, rfl⟩⟩
  | bool b => exact ⟨.bool b, fun _ => rfl, fun s value => ⟨rfl, rfl⟩⟩
  | _ =>
    exact ⟨.str "", fun h => by simp [Value.type, keyTypes] at h, fun s value => ⟨rfl, rfl⟩⟩

/-- A list of mappings or of lists is sorted (`sortValue`) by the keys of its items if all have one
and these are all strings or all numbers; then it is in ascending or descending order, and items
with equal keys stand as they stood. Otherwise the answer is null. In descending order the list is
sorted from its end and turned round, which is the sorted list turned round if no two keys are
equal. -/
theorem sorts_stably_or_not_at_all (items : List Value) (key : Value) :
    (∀ first ∈ items.head?, first.type = .dict ∨ first.type = .list → ∀ order : Value,
      (Sortable key first items → ∃ sorted : List Value,
        sortValue (.list items) key order = pure (.list sorted) ∧
        StablySorted (Precedes key first (AsksReverse order)) (Ties key first) items sorted) ∧
      (¬Sortable key first items → (sortValue (.list items) key order).value = .null)) ∧
    (∀ (s : Surroundings) (order : Value), key.type ∈ keyTypes → order.type = .str →
      dictSort.apply s (.list items) [key, order] = sortValue (.list items) key order) ∧
    ((∀ item ∈ items, item.type = .dict) ∨ (∀ item ∈ items, item.type = .list) →
      ∀ s : Surroundings,
        Mirrored (dictSort.apply s (.list items.reverse) [key]).value
          (dictSortReversed.apply s (.list items) [key]).value ∧
        (key.type ∈ keyTypes →
          (∀ first ∈ items.head?, items.Pairwise fun a b => ¬Ties key first a b) →
          Mirrored (dictSort.apply s (.list items) [key]).value
            (dictSortReversed.apply s (.list items) [key]).value)) := by
  have hup : ¬AsksReverse (.str "") := by decide
  have hdown : AsksReverse (.str "reverse") := by decide
  refine ⟨fun first hfirst hkind order => ?_, fun s order hkey horder => ?_, fun hkinds s => ?_⟩
  · exact ⟨fun h => sortValue_of_sortable hfirst hkind h order,
      fun h => sortValue_of_not_sortable hfirst hkind h order⟩
  · exact dictSort_apply s hkey horder (.list items)
  · obtain ⟨used, hused, hfilters⟩ := exists_sortKey key
    refine ⟨?_, fun hkey hapart => ?_⟩
    · rw [(hfilters s _).1, (hfilters s _).2]
      exact mirrored_sortValue_reverse hup hdown hkinds
    · obtain rfl := hused hkey
      rw [(hfilters s _).1, (hfilters s _).2]
      cases items with
      | nil => exact .inl ⟨[], rfl, rfl⟩
      | cons first rest =>
        have hkind : first.type = .dict ∨ first.type = .list :=
          hkinds.imp (fun h => h first (by simp)) fun h => h first (by simp)
        exact mirrored_sortValue hup hdown rfl hkind (hapart first rfl)

/-- Sorted by their last items, two lists with the same one stand as they stood. -/
theorem sorts_stably_or_not_at_all_ties :
    let later : Value := .list [.str "b", .str "x"]
    let same : Value := .list [.str "a", .str "x"]
    let items : List Value := [later, same, .list [.str "c", .str "w"]]
    (∃ sorted, sortValue (.list items) (.int (-1)) (.str "") = pure (.list sorted) ∧
      [later, same].Sublist sorted) ∧
    ∀ s : Surroundings, Mirrored (dictSort.apply s (.list items.reverse) [.int (-1)]).value
      (dictSortReversed.apply s (.list items) [.int (-1)]).value := by
  intro later same items
  have hlater : HasKey (.int (-1)) later later (.str "x") := .back (i := 0) rfl rfl
  have hsame : HasKey (.int (-1)) later same (.str "x") := .back (i := 0) rfl rfl
  have hlast : HasKey (.int (-1)) later (.list [.str "c", .str "w"]) (.str "w") :=
    .back (i := 0) rfl rfl
  have hsortable : Sortable (.int (-1)) later items :=
    ⟨[.str "x", .str "x", .str "w"], .cons hlater (.cons hsame (.cons hlast .nil)),
      .inl (by simp [IsText])⟩
  have hequal : keyOrder? (.str "x") (.str "x") = some .eq := by decide
  have hties : ∀ a ∈ [later, same], ∀ b ∈ [later, same], Ties (.int (-1)) later a b := by
    have hkey : ∀ a ∈ [later, same], HasKey (.int (-1)) later a (.str "x") := by
      simp only [List.forall_mem_cons]
      exact ⟨hlater, hsame, by simp⟩
    exact fun a ha b hb => ⟨_, _, hkey a ha, hkey b hb, hequal⟩
  have hall := sorts_stably_or_not_at_all items (.int (-1))
  obtain ⟨sorted, hsorted, hstable⟩ := (hall.1 later rfl (.inr rfl) (.str "")).1 hsortable
  have hlists : ∀ item ∈ items, item.type = .list := by
    simp [items, later, same, Value.type]
  refine ⟨⟨sorted, hsorted, hstable.stable _ ?_ hties⟩, fun s => (hall.2.2 (.inr hlists) s).1⟩
  exact .cons_cons _ (.cons_cons _ (List.nil_sublist _))

end Filter

end Stencil
