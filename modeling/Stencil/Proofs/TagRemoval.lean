import Stencil.Proofs.HtmlPieces
import Stencil.Proofs.Replacement

/-!
# Texts without tags

A pass over a text leaves out every stretch from a `<` to the next `>`. Before a tag that is left
out no `<` can stand, for it would have begun the tag itself; so what is joined when the tag goes
never makes up a new one. One pass leaves no tag, and the second one ends the loop (`stripTags`).
-/

namespace Stencil.Text

open scoped List

/-! ## One pass -/

/-- A text without the tags that stand in it. -/
def dropTags (cs : List Char) : List Char := substitute tagRule cs

/-- How often passes are made over a text until one of them changes nothing, and what they leave. -/
inductive PassesEnd (pass : List Char → List Char) : Nat → List Char → List Char → Prop where
  | unchanged {cs : List Char} (h : pass cs = cs) : PassesEnd pass 1 cs cs
  | changed {n : Nat} {cs ds : List Char} (h : pass cs ≠ cs)
    (hrest : PassesEnd pass n (pass cs) ds) : PassesEnd pass (n + 1) cs ds

/-- The second text is the first one without some of the stretches that reach from a `<` to the
next `>`. -/
inductive LeavesOutTags : List Char → List Char → Prop where
  | nil : LeavesOutTags [] []
  | kept (c : Char) {cs ds : List Char} (hrest : LeavesOutTags cs ds) :
    LeavesOutTags (c :: cs) (c :: ds)
  | tag {inside cs ds : List Char} (hinside : '>' ∉ inside) (hrest : LeavesOutTags cs ds) :
    LeavesOutTags ('<' :: (inside ++ '>' :: cs)) ds

theorem LeavesOutTags.sublist {cs ds : List Char} (h : LeavesOutTags cs ds) : ds <+ cs := by
  induction h with
  | nil => exact .slnil
  | kept c _ ih => exact ih.cons_cons c
  | @tag inside cs ds _ _ ih =>
    have hbehind : cs <+ inside ++ '>' :: cs :=
      (List.sublist_cons_self '>' cs).trans (List.sublist_append_right inside _)
    exact ih.trans (hbehind.cons '<')

theorem tagRule_tag {inside : List Char} (hinside : '>' ∉ inside) (rest : List Char) :
    tagRule ('<' :: (inside ++ '>' :: rest)) = some ([], inside.length + 2) := by
  rw [tagRule]
  simp [takeWhile_ne_append hinside]

theorem tagRule_cons {c : Char} {cs : List Char} (h : c = '<' → '>' ∉ cs) :
    tagRule (c :: cs) = none := by
  by_cases hc : c = '<'
  · subst hc
    rw [tagRule]
    simp [takeWhile_ne_of_not_mem (h rfl)]
  · rw [tagRule]
    simpa using hc

@[simp] theorem dropTags_nil : dropTags [] = [] := rfl

theorem dropTags_tag {inside : List Char} (hinside : '>' ∉ inside) (rest : List Char) :
    dropTags ('<' :: (inside ++ '>' :: rest)) = dropTags rest := by
  have hrule : tagRule (('<' :: (inside ++ ['>'])) ++ rest) =
      some ([], ('<' :: (inside ++ ['>'])).length) := by
    simpa using tagRule_tag hinside rest
  have happend := substitute_append (List.cons_ne_nil _ _) hrule
  simpa [dropTags] using happend

theorem dropTags_cons {c : Char} {cs : List Char} (h : c = '<' → '>' ∉ cs) :
    dropTags (c :: cs) = c :: dropTags cs :=
  substitute_cons (tagRule_cons h)

/-- Induction along a pass: either a tag stands in front, or a character is kept. -/
@[elab_as_elim]
theorem tag_induction {motive : List Char → Prop} (nil : motive [])
    (tag : ∀ inside rest, '>' ∉ inside → motive rest → motive ('<' :: (inside ++ '>' :: rest)))
    (kept : ∀ c cs, (c = '<' → '>' ∉ cs) → motive cs → motive (c :: cs)) (cs : List Char) :
    motive cs := by
  match cs with
  | [] => exact nil
  | c :: cs =>
    by_cases htag : c = '<' ∧ '>' ∈ cs
    · obtain ⟨rfl, hclosed⟩ := htag
      obtain ⟨inside, rest, hcs, hinside⟩ := List.eq_append_cons_of_mem hclosed
      have hshorter : rest.length ≤ cs.length := by
        rw [hcs, List.length_append, List.length_cons]
        omega
      rw [hcs]
      exact tag inside rest hinside (tag_induction nil tag kept rest)
    · exact kept c cs (not_and.1 htag) (tag_induction nil tag kept cs)
  termination_by cs.length

theorem leavesOutTags_dropTags (cs : List Char) : LeavesOutTags cs (dropTags cs) := by
  induction cs using tag_induction with
  | nil => exact .nil
  | tag inside rest hinside ih =>
    rw [dropTags_tag hinside]
    exact .tag hinside ih
  | kept c cs h ih =>
    rw [dropTags_cons h]
    exact .kept c ih

/-! ## No tag is left -/

/-- A `<` that is kept has no `>` behind it, and the pass puts none there. -/
theorem not_tag_dropTags (cs : List Char) : ¬['<', '>'] <+ dropTags cs := by
  induction cs using tag_induction with
  | nil => simp
  | tag inside rest hinside ih => rwa [dropTags_tag hinside]
  | kept c cs h ih =>
    rw [dropTags_cons h]
    intro hsub
    rcases List.sublist_cons_iff.1 hsub with hlater | ⟨tail, htail, hclosed⟩
    · exact ih hlater
    · obtain ⟨rfl, rfl⟩ := List.cons_eq_cons.1 htail
      have hmem : '>' ∈ dropTags cs := List.singleton_sublist.1 hclosed
      exact h rfl ((leavesOutTags_dropTags cs).sublist.subset hmem)

/-- A pass leaves exactly those texts alone in which no `<` has a `>` behind it. -/
theorem dropTags_eq_self_iff {cs : List Char} : dropTags cs = cs ↔ ¬['<', '>'] <+ cs := by
  constructor
  · intro hsame
    rw [← hsame]
    exact not_tag_dropTags cs
  · intro hplain
    induction cs with
    | nil => rfl
    | cons c cs ih =>
      have hopen : c = '<' → '>' ∉ cs := by
        rintro rfl hclosed
        exact hplain ((List.singleton_sublist.2 hclosed).cons_cons '<')
      rw [dropTags_cons hopen, ih fun hsub => hplain (hsub.cons c)]

/-- A second pass finds nothing. -/
theorem dropTags_dropTags (cs : List Char) : dropTags (dropTags cs) = dropTags cs :=
  dropTags_eq_self_iff.2 (not_tag_dropTags cs)

/-! ## The loop -/

theorem stripTags_of_unchanged {cs : List Char} (h : dropTags cs = cs) : stripTags cs = cs := by
  rw [stripTags, ← dropTags, h, if_neg (lt_irrefl _)]

/-- What the loop leaves is what its first pass leaves. -/
theorem stripTags_eq_dropTags (cs : List Char) : stripTags cs = dropTags cs := by
  by_cases hshorter : (dropTags cs).length < cs.length
  · rw [stripTags, ← dropTags, if_pos hshorter, stripTags_of_unchanged (dropTags_dropTags cs)]
  · have hsame : dropTags cs = cs :=
      (leavesOutTags_dropTags cs).sublist.eq_of_length_le (not_lt.1 hshorter)
    rw [stripTags_of_unchanged hsame, hsame]

/-- The loop ends after its first pass or after its second one. -/
theorem passesEnd_stripTags (cs : List Char) : ∃ n ≤ 2, PassesEnd dropTags n cs (stripTags cs) := by
  rw [stripTags_eq_dropTags]
  by_cases hsame : dropTags cs = cs
  · exact ⟨1, by omega, hsame.symm ▸ .unchanged hsame⟩
  · exact ⟨2, le_rfl, .changed hsame (.unchanged (dropTags_dropTags cs))⟩

/-- Stripping ends, and leaves a text in which no `<` has a `>` behind it. Nothing but stretches
from a `<` to the next `>` is left out, and nothing at all exactly if there is none. Stripping once
more changes nothing. -/
theorem stripTags_leaves_no_tag (cs : List Char) :
    (∃ n ≤ 2, PassesEnd (substitute tagRule) n cs (stripTags cs)) ∧
      ¬['<', '>'] <+ stripTags cs ∧
      LeavesOutTags cs (stripTags cs) ∧ stripTags cs <+ cs ∧
      (stripTags cs = cs ↔ ¬['<', '>'] <+ cs) ∧
      stripTags (stripTags cs) = stripTags cs := by
  have hleaves := leavesOutTags_dropTags cs
  refine ⟨passesEnd_stripTags cs, ?_⟩
  rw [stripTags_eq_dropTags, stripTags_eq_dropTags, dropTags_dropTags]
  exact ⟨not_tag_dropTags cs, hleaves, hleaves.sublist, dropTags_eq_self_iff, rfl⟩

/-- A tag ends at the next `>`, and a `<` that nothing closes is kept. -/
example : stripTags "<a<b>c>d<".toList = "c>d<".toList := by
  cbv

end Stencil.Text
