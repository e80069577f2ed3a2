import Mathlib
import Stencil.Text.Substitute

/-!
# Replacing a needle

A replacement (`replaceAll`) goes through a text from the left: where the needle stands it is
replaced and left behind as a whole, everywhere else one character is kept. If it is replaced by a
character that it does not hold, then the text that comes out does not hold the needle any more, and
it holds no other text without that character that was not there before.
-/

namespace Stencil.Text

/-- The characters that have been replaced are passed over. -/
theorem substituteFrom_eq_drop (rule : Rule) (skip : Nat) (cs : List Char) :
    substituteFrom rule skip cs = substitute rule (cs.drop skip) := by
  induction skip generalizing cs with
  | zero => rfl
  | succ skip ih =>
    cases cs with
    | nil => rfl
    | cons c cs => exact ih cs

/-- Where a rule applies to what stands in front, substitution goes on behind it. -/
theorem substitute_append {rule : Rule} {front new rest : List Char} (hfront : front ≠ [])
    (h : rule (front ++ rest) = some (new, front.length)) :
    substitute rule (front ++ rest) = new ++ substitute rule rest := by
  cases front with
  | nil => exact absurd rfl hfront
  | cons c tail =>
    rw [List.cons_append] at h ⊢
    rw [substitute, substituteFrom, h]
    simp only [List.length_cons, Nat.add_sub_cancel]
    rw [substituteFrom_eq_drop, List.drop_left]

/-- Where it does not apply, a character is kept. -/
theorem substitute_cons {rule : Rule} {c : Char} {cs : List Char} (h : rule (c :: cs) = none) :
    substitute rule (c :: cs) = c :: substitute rule cs := by
  rw [substitute, substituteFrom, h]
  rfl

section Needle

variable {needle : List Char} (hneedle : needle ≠ [])
include hneedle

/-! ## Equations -/

theorem replaceAll_eq_substitute (replacement cs : List Char) :
    replaceAll needle replacement cs = substitute (replaceRule needle replacement) cs := by
  rw [replaceAll, List.isEmpty_eq_false_iff.2 hneedle]
  rfl

theorem replaceAll_nil (replacement : List Char) : replaceAll needle replacement [] = [] := by
  rw [replaceAll_eq_substitute hneedle]
  rfl

theorem replaceAll_append (replacement rest : List Char) :
    replaceAll needle replacement (needle ++ rest) =
      replacement ++ replaceAll needle replacement rest := by
  have hfront : needle.isPrefixOf (needle ++ rest) = true :=
    List.isPrefixOf_iff_prefix.2 (List.prefix_append needle rest)
  rw [replaceAll_eq_substitute hneedle, replaceAll_eq_substitute hneedle]
  exact substitute_append hneedle (if_pos hfront)

theorem replaceAll_cons {c : Char} {cs : List Char} (h : ¬needle <+: c :: cs)
    (replacement : List Char) :
    replaceAll needle replacement (c :: cs) = c :: replaceAll needle replacement cs := by
  have hfront : ¬needle.isPrefixOf (c :: cs) = true := by rwa [List.isPrefixOf_iff_prefix]
  rw [replaceAll_eq_substitute hneedle, replaceAll_eq_substitute hneedle]
  exact substitute_cons (if_neg hfront)

/-- Induction along a replacement: either the needle stands in front, or a character is kept. -/
@[elab_as_elim]
theorem needle_induction {motive : List Char → Prop} (nil : motive [])
    (replaced : ∀ rest, motive rest → motive (needle ++ rest))
    (kept : ∀ c cs, ¬needle <+: c :: cs → motive cs → motive (c :: cs)) (cs : List Char) :
    motive cs := by
  match cs with
  | [] => exact nil
  | c :: cs =>
    by_cases hfront : needle <+: c :: cs
    · obtain ⟨rest, hrest⟩ := hfront
      have hshorter : rest.length ≤ cs.length := by
        have hpos : 0 < needle.length := List.length_pos_of_ne_nil hneedle
        have hlength := congrArg List.length hrest
        rw [List.length_append, List.length_cons] at hlength
        omega
      have hmotive : motive (needle ++ rest) :=
        replaced rest (needle_induction nil replaced kept rest)
      rwa [hrest] at hmotive
    · exact kept c cs hfront (needle_induction nil replaced kept cs)
  termination_by cs.length

/-- What does not hold the first character of the needle is kept as it is. -/
theorem replaceAll_append_of_not_mem {c : Char} (hhead : needle.head? = some c)
    (replacement : List Char) {before : List Char} (hbefore : c ∉ before) (rest : List Char) :
    replaceAll needle replacement (before ++ rest) =
      before ++ replaceAll needle replacement rest := by
  induction before with
  | nil => rfl
  | cons b before ih =>
    rw [List.mem_cons, not_or] at hbefore
    have hfront : ¬needle <+: b :: (before ++ rest) := by
      rintro ⟨tail, htail⟩
      have hsame := congrArg List.head? htail
      rw [List.head?_append, hhead, List.head?_cons, Option.some_or, Option.some_inj] at hsame
      exact hbefore.1 hsame
    rw [List.cons_append, replaceAll_cons hneedle hfront, ih hbefore.2, List.cons_append]

/-! ## What a text holds afterwards -/

section Character

variable {d : Char}

/-- What stands in front afterwards, and does not hold the new character, stood there before. -/
theorem prefix_of_prefix_replaceAll {part : List Char} (hd : d ∉ part) {cs : List Char}
    (h : part <+: replaceAll needle [d] cs) : part <+: cs := by
  induction cs using needle_induction hneedle generalizing part with
  | nil => rwa [replaceAll_nil hneedle] at h
  | replaced rest _ =>
    rw [replaceAll_append hneedle] at h
    cases part with
    | nil => exact List.nil_prefix
    | cons p part =>
      rw [List.singleton_append, List.cons_prefix_cons] at h
      exact absurd (List.mem_cons.2 (.inl h.1.symm)) hd
  | kept c cs hfront ih =>
    rw [replaceAll_cons hneedle hfront] at h
    cases part with
    | nil => exact List.nil_prefix
    | cons p part =>
      rw [List.cons_prefix_cons] at h ⊢
      exact ⟨h.1, ih (List.not_mem_of_not_mem_cons hd) h.2⟩

/-- The same at any place. -/
theorem infix_of_infix_replaceAll {part : List Char} (hd : d ∉ part) {cs : List Char}
    (h : part <:+: replaceAll needle [d] cs) : part <:+: cs := by
  induction cs using needle_induction hneedle with
  | nil => rwa [replaceAll_nil hneedle] at h
  | replaced rest ih =>
    have hcases := h
    rw [replaceAll_append hneedle, List.singleton_append, List.infix_cons_iff] at hcases
    rcases hcases with hfront | hrest
    · rw [← List.singleton_append, ← replaceAll_append hneedle] at hfront
      exact (prefix_of_prefix_replaceAll hneedle hd hfront).isInfix
    · exact (ih hrest).trans (List.suffix_append needle rest).isInfix
  | kept c cs hfront ih =>
    rw [replaceAll_cons hneedle hfront, List.infix_cons_iff] at h
    rcases h with hstarts | hrest
    · rw [← replaceAll_cons hneedle hfront] at hstarts
      exact (prefix_of_prefix_replaceAll hneedle hd hstarts).isInfix
    · exact (ih hrest).trans (List.suffix_cons c cs).isInfix

/-- The needle is gone. -/
theorem not_infix_replaceAll (hd : d ∉ needle) (cs : List Char) :
    ¬needle <:+: replaceAll needle [d] cs := by
  induction cs using needle_induction hneedle with
  | nil =>
    rw [replaceAll_nil hneedle, List.infix_nil]
    exact hneedle
  | replaced rest ih =>
    rw [replaceAll_append hneedle, List.singleton_append, List.infix_cons_iff, not_or]
    refine ⟨fun hfront => ?_, ih⟩
    cases needle with
    | nil => exact hneedle rfl
    | cons c tail =>
      rw [List.cons_prefix_cons] at hfront
      exact hd (List.mem_cons.2 (.inl hfront.1.symm))
  | kept c cs hfront ih =>
    rw [replaceAll_cons hneedle hfront, List.infix_cons_iff, not_or]
    refine ⟨fun hstarts => hfront ?_, ih⟩
    rw [← replaceAll_cons hneedle hfront] at hstarts
    exact prefix_of_prefix_replaceAll hneedle hd hstarts

end Character

/-! ## Texts that stay as they are -/

theorem replaceAll_eq_self (replacement : List Char) {cs : List Char} (h : ¬needle <:+: cs) :
    replaceAll needle replacement cs = cs := by
  induction cs with
  | nil => exact replaceAll_nil hneedle replacement
  | cons c cs ih =>
    rw [List.infix_cons_iff, not_or] at h
    rw [replaceAll_cons hneedle h.1, ih h.2]

section Shorter

variable {replacement : List Char} (hshorter : replacement.length < needle.length)
include hshorter

theorem length_replaceAll_le (cs : List Char) :
    (replaceAll needle replacement cs).length ≤ cs.length := by
  induction cs using needle_induction hneedle with
  | nil => rw [replaceAll_nil hneedle]
  | replaced rest ih =>
    rw [replaceAll_append hneedle, List.length_append, List.length_append]
    omega
  | kept c cs hfront ih =>
    rw [replaceAll_cons hneedle hfront]
    exact Nat.succ_le_succ ih

/-- A text that holds the needle gets shorter. -/
theorem length_replaceAll_lt {cs : List Char} (h : needle <:+: cs) :
    (replaceAll needle replacement cs).length < cs.length := by
  induction cs using needle_induction hneedle with
  | nil => exact absurd (List.infix_nil.1 h) hneedle
  | replaced rest _ =>
    have hrest := length_replaceAll_le hneedle hshorter rest
    rw [replaceAll_append hneedle, List.length_append, List.length_append]
    omega
  | kept c cs hfront ih =>
    rw [replaceAll_cons hneedle hfront]
    exact Nat.succ_lt_succ (ih ((List.infix_cons_iff.1 h).resolve_left hfront))

/-- A replacement by less leaves exactly those texts alone that do not hold the needle. -/
theorem replaceAll_eq_self_iff {cs : List Char} :
    replaceAll needle replacement cs = cs ↔ ¬needle <:+: cs := by
  constructor
  · intro hsame hholds
    have hlength := length_replaceAll_lt hneedle hshorter hholds
    rw [hsame] at hlength
    exact lt_irrefl _ hlength
  · exact replaceAll_eq_self hneedle replacement

end Shorter

end Needle

end Stencil.Text
