import Mathlib.Data.List.Sort

/-!
# Stable order

A list of given items in order of their ranks, in which items of the same rank stand as they stood
before. There is exactly one such list, and the merge sort finds it. Being the only one, it is also
the list in the opposite order once both are turned round.
-/

namespace Stencil

/-! ## Stable order -/

/-- A list of the same items in order, in which items that tie stand as they stood before. -/
structure StablySorted {α : Type} (precedes ties : α → α → Prop) (items sorted : List α) :
    Prop where
  perm : sorted.Perm items
  ordered : sorted.Pairwise precedes
  stable : ∀ group : List α, group.Sublist items → (∀ a ∈ group, ∀ b ∈ group, ties a b) →
    group.Sublist sorted

namespace StablySorted

variable {α β : Type} {items sorted : List α}

/-- What the items say of each other is all that matters. -/
theorem congr {precedes ties precedes' ties' : α → α → Prop}
    (h : StablySorted precedes ties items sorted)
    (hprecedes : ∀ a ∈ items, ∀ b ∈ items, precedes a b → precedes' a b)
    (hties : ∀ a ∈ items, ∀ b ∈ items, ties' a b → ties a b) :
    StablySorted precedes' ties' items sorted := by
  refine ⟨h.perm, ?_, fun group hgroup hsame => h.stable group hgroup ?_⟩
  · refine h.ordered.imp_of_mem fun ha hb => ?_
    exact hprecedes _ (h.perm.mem_iff.1 ha) _ (h.perm.mem_iff.1 hb)
  · intro a ha b hb
    exact hties a (hgroup.subset ha) b (hgroup.subset hb) (hsame a ha b hb)

/-- Turned round, a list in order is in the opposite order. -/
theorem reverse {precedes ties : α → α → Prop} (h : StablySorted precedes ties items sorted) :
    StablySorted (fun a b => precedes b a) ties items.reverse sorted.reverse := by
  refine ⟨?_, List.pairwise_reverse.2 h.ordered, fun group hgroup hsame => ?_⟩
  · exact (List.reverse_perm sorted).trans (h.perm.trans (List.reverse_perm items).symm)
  · have hback : group.reverse.Sublist items := by
      have hreverse := hgroup.reverse
      rwa [List.reverse_reverse] at hreverse
    have hstable := h.stable group.reverse hback (by simpa using hsame)
    have hreverse := hstable.reverse
    rwa [List.reverse_reverse] at hreverse

/-- If no two items tie, it does not matter how they stood before. -/
theorem of_perm {precedes ties : α → α → Prop} (h : StablySorted precedes ties items sorted)
    {items' : List α} (hperm : items.Perm items')
    (hapart : items'.Pairwise fun a b => ¬ties a b) :
    StablySorted precedes ties items' sorted := by
  refine ⟨h.perm.trans hperm, h.ordered, fun group hgroup hsame => ?_⟩
  have hgroup' : group.Pairwise fun a b => ¬ties a b := hapart.sublist hgroup
  match group, hgroup' with
  | [], _ => exact List.nil_sublist sorted
  | [a], _ =>
    have ha : a ∈ sorted := (h.perm.trans hperm).mem_iff.2 (hgroup.subset (by simp))
    exact List.singleton_sublist.2 ha
  | a :: b :: group, hgroup' =>
    exact absurd (hsame a (by simp) b (by simp)) (List.rel_of_pairwise_cons hgroup' (by simp))

section Rank

variable [LinearOrder β] {rank : α → β}

/-- The merge sort is stable. -/
theorem mergeSort (rank : α → β) (items : List α) :
    StablySorted (fun a b => rank a ≤ rank b) (fun a b => rank a = rank b) items
      (items.mergeSort fun a b => decide (rank a ≤ rank b)) := by
  have htrans : ∀ a b c : α, decide (rank a ≤ rank b) = true → decide (rank b ≤ rank c) = true →
      decide (rank a ≤ rank c) = true := by
    simp only [decide_eq_true_eq]
    exact fun a b c => le_trans
  have htotal : ∀ a b : α, (decide (rank a ≤ rank b) || decide (rank b ≤ rank a)) = true := by
    simp only [Bool.or_eq_true, decide_eq_true_eq]
    exact fun a b => le_total (rank a) (rank b)
  refine ⟨List.mergeSort_perm items _, ?_, fun group hgroup hsame => ?_⟩
  · refine (List.pairwise_mergeSort htrans htotal items).imp ?_
    simp only [decide_eq_true_eq]
    exact id
  · refine List.sublist_mergeSort htrans htotal ?_ hgroup
    refine List.pairwise_of_forall_mem_list ?_
    intro a ha b hb
    exact decide_eq_true (hsame a ha b hb).le

/-- The items of one rank stand as they stood before. -/
theorem filter_eq (h : StablySorted (fun a b => rank a ≤ rank b) (fun a b => rank a = rank b)
    items sorted) (r : β) :
    sorted.filter (fun a => decide (rank a = r)) = items.filter fun a => decide (rank a = r) := by
  have hsame : ∀ a ∈ items.filter (fun a => decide (rank a = r)), rank a = r := by
    intro a ha
    exact of_decide_eq_true (List.mem_filter.1 ha).2
  have hsub := h.stable _ List.filter_sublist fun a ha b hb => (hsame a ha).trans (hsame b hb).symm
  have hclass := hsub.filter fun a => decide (rank a = r)
  rw [List.filter_filter] at hclass
  simp only [Bool.and_self] at hclass
  exact (hclass.eq_of_length (h.perm.filter _).length_eq.symm).symm

end Rank

end StablySorted

section Classes

variable {α β : Type} {rank : α → β} {xs ys : List α}

theorem mem_iff_of_filter_eq [DecidableEq β]
    (h : ∀ r, xs.filter (fun a => decide (rank a = r)) = ys.filter fun a => decide (rank a = r))
    (a : α) : a ∈ xs ↔ a ∈ ys := by
  have hclass := congrArg (a ∈ ·) (h (rank a))
  simpa using hclass

/-- Lists in order of ranks in which the items of each rank are the same are the same. -/
theorem eq_of_filter_eq [LinearOrder β]
    (hxs : xs.Pairwise fun a b => rank a ≤ rank b) (hys : ys.Pairwise fun a b => rank a ≤ rank b)
    (h : ∀ r, xs.filter (fun a => decide (rank a = r)) = ys.filter fun a => decide (rank a = r)) :
    xs = ys := by
  induction xs generalizing ys with
  | nil =>
    refine (List.eq_nil_iff_forall_not_mem.2 fun a ha => ?_).symm
    exact List.not_mem_nil ((mem_iff_of_filter_eq h a).2 ha)
  | cons x xs ih =>
    have hmem := mem_iff_of_filter_eq h
    cases ys with
    | nil => exact absurd ((hmem x).1 (by simp)) List.not_mem_nil
    | cons y ys =>
      rw [List.pairwise_cons] at hxs hys
      -- Both heads have the least rank, so they are the first of its class.
      have hle : rank x ≤ rank y := by
        rcases List.mem_cons.1 ((hmem y).2 (by simp)) with rfl | hy
        · exact le_refl _
        · exact hxs.1 y hy
      have hge : rank y ≤ rank x := by
        rcases List.mem_cons.1 ((hmem x).1 (by simp)) with rfl | hx
        · exact le_refl _
        · exact hys.1 x hx
      have hrank : rank x = rank y := le_antisymm hle hge
      have hhead := h (rank x)
      rw [List.filter_cons_of_pos (by simp), List.filter_cons_of_pos (by simp [hrank])] at hhead
      obtain ⟨rfl, -⟩ := List.cons.inj hhead
      have htail : ∀ r, xs.filter (fun a => decide (rank a = r)) =
          ys.filter fun a => decide (rank a = r) := by
        intro r
        have hr := h r
        by_cases hx : rank x = r
        · rw [List.filter_cons_of_pos (by simp [hx]), List.filter_cons_of_pos (by simp [hx])] at hr
          exact (List.cons.inj hr).2
        · rwa [List.filter_cons_of_neg (by simp [hx]), List.filter_cons_of_neg (by simp [hx])] at hr
      rw [ih hxs.2 hys.2 htail]

/-- There is one stable order. -/
theorem StablySorted.unique [LinearOrder β] {items : List α}
    (hxs : StablySorted (fun a b => rank a ≤ rank b) (fun a b => rank a = rank b) items xs)
    (hys : StablySorted (fun a b => rank a ≤ rank b) (fun a b => rank a = rank b) items ys) :
    xs = ys :=
  eq_of_filter_eq hxs.ordered hys.ordered fun r => (hxs.filter_eq r).trans (hys.filter_eq r).symm

end Classes

end Stencil
