import Stencil.Value.Basic

/-!
# Fields of mappings

What is under a key after a field has been set (`Fields.insert`) and after one mapping has been laid
over another (`Fields.merge`), and that both keep the keys in strictly increasing order. Laying a
mapping over the empty one gives the mapping itself.
-/

namespace Stencil.Fields

/-- The keys are strictly increasing, as in every mapping. -/
def Ordered (fields : Fields) : Prop := fields.Pairwise fun a b => a.1 < b.1

instance (fields : Fields) : Decidable (Ordered fields) :=
  inferInstanceAs (Decidable (fields.Pairwise fun a b => a.1 < b.1))

/-! ## Setting a field -/

/-- Setting a field changes what is under its key and nothing else. -/
theorem get?_insert (key k : String) (value : Value) (fields : Fields) :
    get? k (insert key value fields) = if k = key then some value else get? k fields := by
  induction fields with
  | nil => simp [insert, get?, eq_comm]
  | cons field fields ih =>
    obtain ⟨k', v⟩ := field
    rw [insert]
    split
    · simp [get?, eq_comm]
    · split
      · rename_i heq
        subst heq
        by_cases hk : key = k
        · simp [get?, hk]
        · simp [get?, hk, Ne.symm hk]
      · rename_i hne
        rw [get?, get?, ih]
        by_cases hk : k' = k
        · subst hk
          simp [Ne.symm hne]
        · simp [hk]

/-- A field of the new mapping is the one that was set or an old one. -/
theorem mem_insert {key : String} {value : Value} {fields : Fields} {field : String × Value}
    (h : field ∈ insert key value fields) : field = (key, value) ∨ field ∈ fields := by
  induction fields with
  | nil => simpa [insert] using h
  | cons other fields ih =>
    rw [insert] at h
    split at h
    · simpa using h
    · split at h
      · rcases List.mem_cons.1 h with rfl | h
        · exact .inl rfl
        · exact .inr (by simp [h])
      · rcases List.mem_cons.1 h with rfl | h
        · exact .inr (by simp)
        · exact (ih h).imp_right fun h => by simp [h]

/-- Setting a field keeps the order. -/
theorem Ordered.insert {fields : Fields} (h : Ordered fields) (key : String) (value : Value) :
    Ordered (insert key value fields) := by
  induction fields with
  | nil => simp [Fields.insert, Ordered]
  | cons field fields ih =>
    obtain ⟨k, v⟩ := field
    obtain ⟨hfirst, hrest⟩ := List.pairwise_cons.1 h
    rw [Fields.insert]
    split
    · rename_i hlt
      refine List.pairwise_cons.2 ⟨fun other hother => ?_, h⟩
      rcases List.mem_cons.1 hother with rfl | hother
      · exact hlt
      · exact String.lt_trans hlt (hfirst other hother)
    · split
      · rename_i heq
        exact List.pairwise_cons.2 ⟨heq ▸ hfirst, hrest⟩
      · rename_i hlt hne
        refine List.pairwise_cons.2 ⟨fun other hother => ?_, ih hrest⟩
        rcases mem_insert hother with rfl | hother
        · have hle : k ≤ key := String.not_lt.1 hlt
          exact String.not_le.1 fun hge => hne (String.le_antisymm hge hle)
        · exact hfirst other hother

/-- A field whose key is greater than all others comes last. -/
theorem insert_eq_append {key : String} {value : Value} {fields : Fields}
    (h : ∀ field ∈ fields, field.1 < key) :
    insert key value fields = fields ++ [(key, value)] := by
  induction fields with
  | nil => rfl
  | cons field fields ih =>
    have hlt : field.1 < key := h field (by simp)
    have hnlt : ¬key < field.1 := fun hgt => String.lt_irrefl _ (String.lt_trans hlt hgt)
    have hne : key ≠ field.1 := fun heq => String.lt_irrefl _ (heq ▸ hlt)
    rw [insert, if_neg hnlt, if_neg hne, ih fun other hother => h other (by simp [hother])]
    rfl

/-! ## Laying one mapping over another -/

@[simp]
theorem merge_nil (fields : Fields) : merge fields [] = fields := rfl

@[simp]
theorem merge_cons (fields : Fields) (field : String × Value) (delta : Fields) :
    merge fields (field :: delta) = merge (insert field.1 field.2 fields) delta := rfl

/-- What is under a key of two lists of fields is under it in the first, or else in the second. -/
theorem get?_append (k : String) (fields others : Fields) :
    get? k (fields ++ others) = (get? k fields).or (get? k others) := by
  induction fields with
  | nil => rfl
  | cons field fields ih =>
    rw [List.cons_append, get?, get?]
    split
    · rfl
    · exact ih

/-- After merging the last field with a key counts, or else what was there before. -/
theorem get?_merge (k : String) (fields delta : Fields) :
    get? k (merge fields delta) = (get? k delta.reverse).or (get? k fields) := by
  induction delta generalizing fields with
  | nil => rfl
  | cons field delta ih =>
    rw [merge_cons, ih, get?_insert, List.reverse_cons, get?_append, Option.or_assoc]
    by_cases hk : k = field.1
    · simp [get?, hk]
    · simp [get?, hk, Ne.symm hk]

/-- After merging several mappings in order, the last of all their fields with a key counts, or else
what was there before. -/
theorem get?_foldl_merge (k : String) (fields : Fields) (deltas : List Fields) :
    get? k (deltas.foldl merge fields) = (get? k deltas.flatten.reverse).or (get? k fields) := by
  induction deltas generalizing fields with
  | nil => rfl
  | cons delta deltas ih =>
    rw [List.foldl_cons, ih, get?_merge, List.flatten_cons, List.reverse_append, get?_append,
      Option.or_assoc]

/-- What is under a key after merging depends only on what was there before. -/
theorem get?_merge_congr {k : String} {fields fields' : Fields} (delta : Fields)
    (h : get? k fields = get? k fields') :
    get? k (merge fields delta) = get? k (merge fields' delta) := by
  rw [get?_merge, get?_merge, h]

/-- Merging keeps the order. -/
theorem Ordered.merge {fields : Fields} (h : Ordered fields) (delta : Fields) :
    Ordered (merge fields delta) := by
  induction delta generalizing fields with
  | nil => exact h
  | cons field delta ih => exact ih (h.insert field.1 field.2)

/-- So does merging several mappings. -/
theorem Ordered.foldl_merge {fields : Fields} (h : Ordered fields) (deltas : List Fields) :
    Ordered (deltas.foldl Fields.merge fields) := by
  induction deltas generalizing fields with
  | nil => exact h
  | cons delta deltas ih => exact ih (h.merge delta)

/-- Fields that follow others in order are appended. -/
theorem merge_eq_append {fields delta : Fields} (h : Ordered (fields ++ delta)) :
    merge fields delta = fields ++ delta := by
  induction delta generalizing fields with
  | nil => simp
  | cons field delta ih =>
    have hlast : ∀ other ∈ fields, other.1 < field.1 := fun other hother =>
      (List.pairwise_append.1 h).2.2 other hother field (by simp)
    rw [merge_cons, insert_eq_append hlast, ih (by simpa using h)]
    simp

/-- A mapping laid over nothing is the mapping. -/
theorem merge_empty {delta : Fields} (h : Ordered delta) : merge [] delta = delta :=
  merge_eq_append h

/-! ## Fields and keys -/

/-- What is under a key is a field. -/
theorem mem_of_get? {k : String} {v : Value} {fields : Fields} (h : get? k fields = some v) :
    (k, v) ∈ fields := by
  induction fields with
  | nil => simp [get?] at h
  | cons field fields ih =>
    rw [get?] at h
    split at h
    · rename_i heq
      simp only [Option.some.injEq] at h
      simp [← heq, ← h]
    · simp [ih h]

/-- In a mapping a field is what is under its key. -/
theorem Ordered.mem_iff {fields : Fields} (h : Ordered fields) {k : String} {v : Value} :
    (k, v) ∈ fields ↔ get? k fields = some v := by
  refine ⟨fun hmem => ?_, mem_of_get?⟩
  induction fields with
  | nil => simp at hmem
  | cons field fields ih =>
    obtain ⟨hfirst, hrest⟩ := List.pairwise_cons.1 h
    rw [get?]
    rcases List.mem_cons.1 hmem with rfl | hmem
    · exact if_pos rfl
    · have hne : field.1 ≠ k := fun heq => String.lt_irrefl _ (heq ▸ hfirst _ hmem)
      rw [if_neg hne, ih hrest hmem]

end Stencil.Fields
