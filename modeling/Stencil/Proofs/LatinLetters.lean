import Mathlib
import Stencil.Text.Latin

/-!
# Texts in ASCII

Every character has a piece of ASCII that stands for it, whichever table or rule the piece is from.
So every text is written in ASCII (`latin`), and one that is so already is left alone.
-/

namespace Stencil.Text

/-- All characters of a text are of ASCII. -/
def IsAscii (cs : List Char) : Prop := ∀ c ∈ cs, c.toNat < 128

theorem isAscii_nil : IsAscii [] := by simp [IsAscii]

theorem IsAscii.append {cs ds : List Char} (hcs : IsAscii cs) (hds : IsAscii ds) :
    IsAscii (cs ++ ds) := fun c hc => (List.mem_append.1 hc).elim (hcs c) (hds c)

theorem IsAscii.mono {cs ds : List Char} (h : IsAscii ds) (hsub : cs ⊆ ds) : IsAscii cs :=
  fun c hc => h c (hsub hc)

theorem isAscii_ofNat {n : Nat} (h : n < 128) : IsAscii [Char.ofNat n] := by
  intro c hc
  obtain rfl := List.mem_singleton.1 hc
  rwa [Char.toNat_ofNat, if_pos (.inl (by omega))]

/-! ## The tables -/

/-- A text that is written out is compared with its characters as a whole; taking it apart from its
bytes would be slow. -/
theorem isAscii_of_eq {s : String} {cs : List Char} (hs : s = String.ofList cs)
    (hall : cs.all (fun c => c.toNat < 128) = true) : IsAscii s.toList := by
  rw [hs, String.toList_ofList]
  simpa [IsAscii] using hall

theorem isAscii_latinBlocks : ∀ block ∈ latinBlocks, IsAscii block.pieces.toList := by
  unfold latinBlocks
  repeat refine List.forall_mem_cons.2 ⟨isAscii_of_eq rfl (by decide +kernel), ?_⟩
  exact List.forall_mem_nil _

theorem isAscii_latinReadings : ∀ entry ∈ latinReadings, IsAscii entry.1.toList := by
  unfold latinReadings
  repeat refine List.forall_mem_cons.2 ⟨isAscii_of_eq rfl (by decide +kernel), ?_⟩
  exact List.forall_mem_nil _

theorem isAscii_latinNames : ∀ entry ∈ latinNames, IsAscii entry.2.toList := by
  unfold latinNames
  repeat refine List.forall_mem_cons.2 ⟨isAscii_of_eq rfl (by decide +kernel), ?_⟩
  exact List.forall_mem_nil _

theorem isAscii_hangulParts :
    ∀ names ∈ [hangulInitials, hangulVowels, hangulFinals], ∀ name ∈ names,
      IsAscii name.toList := by
  simp only [List.forall_mem_cons, List.not_mem_nil, false_imp_iff, implies_true, and_true]
  refine ⟨?_, ?_, ?_⟩
  · unfold hangulInitials
    repeat refine List.forall_mem_cons.2 ⟨isAscii_of_eq rfl (by decide +kernel), ?_⟩
    exact List.forall_mem_nil _
  · unfold hangulVowels
    repeat refine List.forall_mem_cons.2 ⟨isAscii_of_eq rfl (by decide +kernel), ?_⟩
    exact List.forall_mem_nil _
  · unfold hangulFinals
    repeat refine List.forall_mem_cons.2 ⟨isAscii_of_eq rfl (by decide +kernel), ?_⟩
    exact List.forall_mem_nil _

/-! ## The rules -/

theorem subset_of_mem_splitWhere {p : Char → Bool} {cs part : List Char}
    (h : part ∈ splitWhere p cs) : part ⊆ cs := by
  induction cs generalizing part with
  | nil =>
    obtain rfl := List.mem_singleton.1 h
    exact List.nil_subset _
  | cons c cs ih =>
    rw [splitWhere] at h
    split_ifs at h with hc
    · rcases List.mem_cons.1 h with rfl | hlater
      · exact List.nil_subset _
      · exact List.subset_cons_of_subset c (ih hlater)
    · split at h
      case h_1 =>
        obtain rfl := List.mem_singleton.1 h
        exact List.cons_subset_cons c (List.nil_subset _)
      case h_2 first parts hsplit =>
        rcases List.mem_cons.1 h with rfl | hlater
        · exact List.cons_subset_cons c (ih (hsplit ▸ List.mem_cons_self))
        · exact List.subset_cons_of_subset c (ih (hsplit ▸ List.mem_cons_of_mem first hlater))

theorem isAscii_hangulSyllable (index : Nat) : IsAscii (hangulSyllable index) := by
  have hpart {names : List String} (hnames : ∀ name ∈ names, IsAscii name.toList) (i : Nat) :
      IsAscii (names[i]?.getD "").toList := by
    cases hname : names[i]? with
    | none => exact isAscii_nil
    | some name => exact hnames name (List.mem_of_getElem? hname)
  have hall := isAscii_hangulParts
  simp only [List.forall_mem_cons] at hall
  exact ((hpart hall.1 _).append (hpart hall.2.1 _)).append (hpart hall.2.2.1 _)

theorem isAscii_piece? {block : LatinBlock} (hblock : block ∈ latinBlocks) {n : Nat}
    {piece : List Char} (h : block.piece? n = some piece) : IsAscii piece := by
  unfold LatinBlock.piece? at h
  split_ifs at h
  exact (isAscii_latinBlocks block hblock).mono
    (subset_of_mem_splitWhere (List.mem_of_getElem? h))

theorem mem_of_latinBlock? {n : Nat} {block : LatinBlock} (h : latinBlock? n = some block) :
    block ∈ latinBlocks := by
  have hfold (blocks : List LatinBlock) (found : Option LatinBlock)
      (hfound : blocks.foldl (fun found block => if block.first ≤ n then some block else found)
        found = some block) : block ∈ blocks ∨ found = some block := by
    induction blocks generalizing found with
    | nil => exact .inr hfound
    | cons next blocks ih =>
      rcases ih _ hfound with hmem | hnext
      · exact .inl (List.mem_cons_of_mem _ hmem)
      · dsimp only at hnext
        split_ifs at hnext
        · obtain rfl := Option.some_inj.1 hnext
          exact .inl List.mem_cons_self
        · exact .inr hnext
  rcases hfold latinBlocks none h with hmem | hnone
  · exact hmem
  · cases hnone

/-- A space behind a name. -/
theorem isAscii_spaced {name : List Char} (h : IsAscii name) : IsAscii (name ++ [' ']) :=
  h.append (isAscii_ofNat (n := 32) (by decide))

theorem isAscii_latinReading? {c : Char} {piece : List Char} (h : latinReading? c = some piece) :
    IsAscii piece := by
  obtain ⟨entry, hentry, rfl⟩ := Option.map_eq_some_iff.1 h
  exact isAscii_spaced (isAscii_latinReadings entry (List.mem_of_find?_eq_some hentry))

theorem isAscii_latinName? {c : Char} {piece : List Char} (h : latinName? c = some piece) :
    IsAscii piece := by
  obtain ⟨name, hname, rfl⟩ := Option.map_eq_some_iff.1 h
  obtain ⟨front, back, hnames, -⟩ := List.lookup_eq_some_iff.1 hname
  exact isAscii_spaced (isAscii_latinNames (c, name) (by simp [hnames]))

theorem isAscii_latinForeign (c : Char) : IsAscii (latinForeign c) := by
  unfold latinForeign
  dsimp only
  split_ifs with hhangul hwide hstyled
  · exact isAscii_hangulSyllable _
  · exact isAscii_ofNat (by omega)
  · unfold styledLetter
    split_ifs
    · exact isAscii_ofNat (by omega)
    · exact isAscii_ofNat (by omega)
  · cases hknown : (latinReading? c <|> latinName? c <|>
        (latinBlock? c.toNat).bind (·.piece? c.toNat)) with
    | some piece =>
      rw [Option.getD_some]
      simp only [Option.orElse_eq_orElse, Option.orElse_eq_or, Option.or_eq_some_iff] at hknown
      rcases hknown with hreading | ⟨-, hname | ⟨-, hblock⟩⟩
      · exact isAscii_latinReading? hreading
      · exact isAscii_latinName? hname
      · obtain ⟨block, hfound, hpiece⟩ := Option.bind_eq_some_iff.1 hblock
        exact isAscii_piece? (mem_of_latinBlock? hfound) hpiece
    | none =>
      rw [Option.getD_none]
      cases hdigit : digitValue? c with
      | none => exact isAscii_nil
      | some d =>
        obtain ⟨⟨first, last⟩, -, rfl⟩ := Option.map_eq_some_iff.1 hdigit
        exact isAscii_ofNat (show 48 + (c.toNat - first) % 10 < 128 by omega)

/-- Every text is written in ASCII. -/
theorem isAscii_latin (cs : List Char) : IsAscii (latin cs) := by
  intro d hd
  obtain ⟨c, -, hc⟩ := List.mem_flatMap.1 hd
  split_ifs at hc with hascii
  · obtain rfl := List.mem_singleton.1 hc
    exact hascii
  · exact isAscii_latinForeign c d hc

/-- ASCII is left alone. -/
theorem latin_eq_self {cs : List Char} (h : IsAscii cs) : latin cs = cs := by
  induction cs with
  | nil => rfl
  | cons c cs ih =>
    obtain ⟨hc, hcs⟩ := List.forall_mem_cons.1 h
    rw [latin, List.flatMap_cons, if_pos hc, ← latin, ih hcs, List.singleton_append]

end Stencil.Text
