import Stencil.Proofs.Fields
import Stencil.Render.Resolve

/-!
# What a name can see of a dataset

Following a path (`Dataset.walk`) reads the dataset at one key: the name itself, or what stands
before one of its points. So two datasets that agree at the keys reached by some names give each of
these names the same value, and have it among their paths or not.
-/

namespace Stencil

/-- A name reaches a key of a dataset if it is the key or goes on with a point behind it. -/
def Reaches (name key : String) : Prop := name = key ∨ (key ++ ".").toList <+: name.toList

/-! ## The keys that a path reaches -/

/-- The first part of a text is all of it, or a separator follows it. -/
theorem Text.splitWhere_head (p : Char → Bool) (cs : List Char) :
    ∃ part parts, splitWhere p cs = part :: parts ∧
      (part = cs ∨ ∃ c after, p c = true ∧ cs = part ++ c :: after) := by
  induction cs with
  | nil => exact ⟨[], [], rfl, .inl rfl⟩
  | cons c cs ih =>
    by_cases hc : p c = true
    · exact ⟨[], splitWhere p cs, by rw [splitWhere, if_pos hc], .inr ⟨c, cs, hc, rfl⟩⟩
    · obtain ⟨part, parts, hsplit, hpart⟩ := ih
      refine ⟨c :: part, parts, by rw [splitWhere, if_neg hc, hsplit], ?_⟩
      rcases hpart with rfl | ⟨d, after, hd, rfl⟩
      · exact .inl rfl
      · exact .inr ⟨d, after, hd, rfl⟩

/-- A path has a first step, which is a key that it reaches. -/
theorem Value.pathSteps_head (path : String) :
    ∃ head rest, pathSteps path = head :: rest ∧ Reaches path head := by
  obtain ⟨part, parts, hsplit, hpart⟩ := Text.splitWhere_head (· == '.') path.toList
  refine ⟨String.ofList part, parts.map String.ofList, ?_, ?_⟩
  · rw [pathSteps, Text.splitOn, hsplit]
    rfl
  · rcases hpart with rfl | ⟨c, after, hc, hpath⟩
    · exact .inl (String.ofList_toList).symm
    · refine .inr ⟨after, ?_⟩
      rw [beq_iff_eq] at hc
      rw [hpath, hc]
      simp

/-- What reaches a longer path reaches what the path begins with. -/
theorem Reaches.append {name path step : String} (h : Reaches name (path ++ "." ++ step)) :
    (path ++ ".").toList <+: name.toList := by
  rcases h with rfl | h
  · exact ⟨step.toList, by simp⟩
  · refine List.IsPrefix.trans ⟨step.toList ++ ['.'], ?_⟩ h
    simp

mutual

/-- The paths below a value at some path reach that path. -/
theorem Value.reaches_of_mem_paths {name path : String} :
    (value : Value) → name ∈ paths path value → Reaches name path
  | .dict fields => fun h => by
    rw [paths, List.mem_append, List.mem_singleton] at h
    exact h.symm.imp_right (reaches_of_mem_fieldPaths fields)
  | .list items => fun h => by
    rw [paths, List.mem_append, List.mem_singleton] at h
    exact h.symm.imp_right (reaches_of_mem_itemPaths items)
  | .null | .bool _ | .int _ | .float _ | .str _ => fun h => .inl (by simpa [paths] using h)

/-- The paths below the fields of a mapping go on behind its own path. -/
theorem Value.reaches_of_mem_fieldPaths {name path : String} :
    (fields : List (String × Value)) → name ∈ fieldPaths path fields →
      (path ++ ".").toList <+: name.toList
  | [] => fun h => by simp [fieldPaths] at h
  | (key, value) :: rest => fun h => by
    rw [fieldPaths, List.mem_append] at h
    rcases h with h | h
    · exact (reaches_of_mem_paths value h).append
    · exact reaches_of_mem_fieldPaths rest h

/-- The paths below the items of a list go on behind its own path. -/
theorem Value.reaches_of_mem_itemPaths {name path : String} {index : Nat} :
    (items : List Value) → name ∈ itemPaths path index items →
      (path ++ ".").toList <+: name.toList
  | [] => fun h => by simp [itemPaths] at h
  | item :: rest => fun h => by
    rw [itemPaths, List.mem_append] at h
    rcases h with h | h
    · exact (reaches_of_mem_paths item h).append
    · exact reaches_of_mem_itemPaths rest h

end

/-- A path can be followed in a dataset if it is one of the paths below what is under some key. -/
theorem Dataset.mem_keySet_iff {dataset : Dataset} (h : Fields.Ordered dataset) {name : String} :
    name ∈ dataset.keySet ↔
      ∃ key value, Fields.get? key dataset = some value ∧ name ∈ Value.paths key value := by
  rw [keySet, List.mem_flatMap]
  constructor
  · rintro ⟨⟨key, value⟩, hmem, hname⟩
    exact ⟨key, value, h.mem_iff.1 hmem, hname⟩
  · rintro ⟨key, value, hget, hname⟩
    exact ⟨(key, value), h.mem_iff.2 hget, hname⟩

/-! ## Datasets that names cannot tell apart -/

/-- Two mappings that agree at every key that one of the names reaches: the key is in both with one
value, or in neither. -/
structure Alike (names : List String) (d₁ d₂ : Dataset) : Prop where
  left : Fields.Ordered d₁
  right : Fields.Ordered d₂
  agree : ∀ key, (∃ name ∈ names, Reaches name key) → Fields.get? key d₁ = Fields.get? key d₂

namespace Alike

variable {names : List String} {d₁ d₂ : Dataset} (h : Alike names d₁ d₂)
include h

/-- Setting the same field in both keeps them alike. -/
protected theorem insert (key : String) (value : Value) :
    Alike names (Fields.insert key value d₁) (Fields.insert key value d₂) where
  left := h.left.insert key value
  right := h.right.insert key value
  agree k hk := by rw [Fields.get?_insert, Fields.get?_insert, h.agree k hk]

/-- Laying the same mapping over both keeps them alike. -/
protected theorem merge (delta : Dataset) :
    Alike names (Fields.merge d₁ delta) (Fields.merge d₂ delta) where
  left := h.left.merge delta
  right := h.right.merge delta
  agree k hk := Fields.get?_merge_congr delta (h.agree k hk)

variable {name : String} (hn : name ∈ names)
include hn

/-- A name leads to the same place in both. -/
theorem walk_eq : d₁.walk name = d₂.walk name := by
  obtain ⟨head, rest, hsteps, hreaches⟩ := Value.pathSteps_head name
  have hget := h.agree head ⟨name, hn, hreaches⟩
  simp only [Dataset.walk, hsteps, hget]

/-- A name is among the paths of both or of neither. -/
theorem mem_keySet_iff : name ∈ d₁.keySet ↔ name ∈ d₂.keySet := by
  rw [Dataset.mem_keySet_iff h.left, Dataset.mem_keySet_iff h.right]
  -- A path of the name lies below a key that the name reaches, where the two agree.
  have hget : ∀ {key value}, name ∈ Value.paths key value →
      Fields.get? key d₁ = Fields.get? key d₂ := fun hpath =>
    h.agree _ ⟨name, hn, Value.reaches_of_mem_paths _ hpath⟩
  constructor
  · rintro ⟨key, value, hkey, hpath⟩
    exact ⟨key, value, hget hpath ▸ hkey, hpath⟩
  · rintro ⟨key, value, hkey, hpath⟩
    exact ⟨key, value, (hget hpath).trans hkey, hpath⟩

theorem contains_keySet_eq : d₁.keySet.contains name = d₂.keySet.contains name := by
  rw [Bool.eq_iff_iff, List.contains_iff_mem, List.contains_iff_mem]
  exact h.mem_keySet_iff hn

/-- A name stands for the same in the scopes of both. -/
theorem lookup_eq : (Scope.of d₁).lookup name = (Scope.of d₂).lookup name := by
  unfold Scope.lookup
  rw [Scope.keys_of, Scope.keys_of, Scope.dataset_of, Scope.dataset_of, h.contains_keySet_eq hn,
    h.walk_eq hn]

theorem fetch_eq (shape : Shape) :
    (Scope.of d₁).fetch shape name = (Scope.of d₂).fetch shape name := by
  unfold Scope.fetch
  rw [h.lookup_eq hn]

end Alike

end Stencil
