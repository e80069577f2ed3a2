import Stencil.Proofs.Lookup

/-!
# The paths of a dataset

`Dataset.keySet` spells every place of a dataset as a text with points, and `Dataset.walk` cuts a
text at its points and follows the parts. Both speak of one relation, `Value.Leads`: from a value a
list of names leads to another. They agree on a text if its indices are written as `keySet` writes
them, and if no key has a point itself. A key with a point is spelled like a longer path, which may
lead nowhere.
-/

namespace Stencil

namespace Value

/-! ## Indices in plain decimal -/

/-- The name of an index: its decimal digits. -/
def indexName (i : Nat) : String := String.ofList (Double.natDigits i)

/-- A number in plain decimal: digits without a sign and without a leading zero. -/
structure IsPlainIndex (step : String) : Prop where
  ne_nil : step.toList ≠ []
  digits : ∀ c ∈ step.toList, c.isDigit = true
  leading : step.toList.head? = some '0' → step.toList = ['0']

theorem digitsValue_natDigits (i : Nat) : Double.digitsValue (Double.natDigits i) = i :=
  Nat.ofDigitChars_ten_toDigits

/-- The digits of a digit's value are the digit. -/
theorem natDigits_digit {c : Char} (h : c.isDigit = true) :
    c.toNat - 48 < 10 ∧ Double.natDigits (c.toNat - 48) = [c] := by
  simp only [Char.isDigit, Bool.and_eq_true, decide_eq_true_eq] at h
  have hlow : 48 ≤ c.toNat := h.1
  have hhigh : c.toNat ≤ 57 := h.2
  have hlt : c.toNat - 48 < 10 := by omega
  have hchar : Nat.digitChar (c.toNat - 48) = c := by
    apply Char.toNat_inj.1
    rw [Nat.toNat_digitChar_of_lt_ten hlt]
    omega
  exact ⟨hlt, by rw [Double.natDigits, Nat.toDigits_of_lt_base hlt, hchar]⟩

/-- The digits of a number with one more digit. -/
theorem natDigits_append {n d : Nat} (hn : 0 < n) (hd : d < 10) :
    Double.natDigits (10 * n + d) = Double.natDigits n ++ Double.natDigits d :=
  (Nat.toDigits_append_toDigits (by decide) hn hd).symm

/-- Digits read behind a positive number stand behind its digits. -/
theorem natDigits_ofDigitChars {n : Nat} (hn : 0 < n) {cs : List Char}
    (h : ∀ c ∈ cs, c.isDigit = true) :
    Double.natDigits (Nat.ofDigitChars 10 cs n) = Double.natDigits n ++ cs := by
  induction cs generalizing n with
  | nil => exact (List.append_nil _).symm
  | cons c cs ih =>
    obtain ⟨hlt, hdigit⟩ := natDigits_digit (h c (by simp))
    calc Double.natDigits (Nat.ofDigitChars 10 (c :: cs) n)
        = Double.natDigits (Nat.ofDigitChars 10 cs (10 * n + (c.toNat - 48))) := rfl
      _ = Double.natDigits (10 * n + (c.toNat - 48)) ++ cs :=
        ih (by omega) fun d hd => h d (by simp [hd])
      _ = Double.natDigits n ++ c :: cs := by
        rw [natDigits_append hn hlt, hdigit, List.append_assoc, List.singleton_append]

/-- The digits of a positive number begin with no zero. -/
theorem head?_natDigits_ne {i : Nat} (h : 0 < i) : (Double.natDigits i).head? ≠ some '0' := by
  induction i using Nat.strongRecOn with
  | ind i ih =>
    by_cases hlt : i < 10
    · rw [Double.natDigits, Nat.toDigits_of_lt_base hlt]
      intro hzero
      have hval : i.digitChar.toNat = 48 := by
        rw [List.head?_cons, Option.some.injEq] at hzero
        rw [hzero]
        rfl
      rw [Nat.toNat_digitChar_of_lt_ten hlt] at hval
      omega
    · -- The first digit is that of the number without its last digit.
      have hsplit := natDigits_append (by omega : 0 < i / 10) (Nat.mod_lt i (by decide : 10 > 0))
      rw [Nat.div_add_mod] at hsplit
      have hhead := ih (i / 10) (by omega) (by omega)
      have hne : Nat.toDigits 10 (i / 10) ≠ [] := Nat.toDigits_ne_nil
      obtain ⟨c, cs, hcs⟩ := List.exists_cons_of_ne_nil hne
      rw [Double.natDigits, hcs] at hhead
      rw [hsplit, Double.natDigits, hcs]
      exact hhead

/-- The names in plain decimal are the names of indices. -/
theorem isPlainIndex_iff {step : String} : IsPlainIndex step ↔ ∃ i, step = indexName i := by
  constructor
  · rintro ⟨hne, hdigits, hleading⟩
    obtain ⟨c, cs, hcs⟩ := List.exists_cons_of_ne_nil hne
    -- Behind a leading zero nothing follows; otherwise the first digit is positive.
    by_cases hzero : c = '0'
    · refine ⟨0, String.toList_inj.1 ?_⟩
      rw [hleading (by rw [hcs, hzero]; rfl)]
      rfl
    · obtain ⟨-, hdigit⟩ := natDigits_digit (hdigits c (by simp [hcs]))
      have hpos : 0 < c.toNat - 48 := by
        refine Nat.pos_of_ne_zero fun hval => hzero ?_
        rw [hval] at hdigit
        exact (List.cons.inj hdigit).1.symm
      refine ⟨Nat.ofDigitChars 10 cs (c.toNat - 48), String.toList_inj.1 ?_⟩
      rw [indexName, String.toList_ofList,
        natDigits_ofDigitChars hpos fun d hd => hdigits d (by simp [hcs, hd]), hdigit, hcs]
      rfl
  · rintro ⟨i, rfl⟩
    refine ⟨?_, ?_, ?_⟩
    · rw [indexName, String.toList_ofList]
      exact Nat.toDigits_ne_nil
    · rw [indexName, String.toList_ofList]
      exact fun c hc => Nat.isDigit_of_mem_toDigits (by decide) (by decide) hc
    · rw [indexName, String.toList_ofList]
      intro hhead
      obtain rfl : i = 0 := Nat.eq_zero_of_not_pos fun hi => head?_natDigits_ne hi hhead
      rfl

/-- The name of an index is read as that index, if it fits in a word. -/
theorem readIndex?_indexName (i : Nat) :
    readIndex? (indexName i) = (some i).filter (· < Double.wordCount) := by
  have hplain : IsPlainIndex (indexName i) := isPlainIndex_iff.2 ⟨i, rfl⟩
  have hread : Double.readNat? (indexName i).toList = some i := by
    have hall : (indexName i).toList.all Char.isDigit = true := List.all_eq_true.2 hplain.digits
    rw [Double.readNat?, hall, if_neg (by simpa using hplain.ne_nil), indexName,
      String.toList_ofList, digitsValue_natDigits]
  rw [readIndex?]
  split
  · rename_i cs hcs
    -- The name has digits only, so it begins with no sign.
    have hsign := hplain.digits '+' (by simp [hcs])
    exact absurd hsign (by decide)
  · simp only [hread]

/-- A step in plain decimal that is read as an index is its name. -/
theorem eq_indexName_of_readIndex? {step : String} {i : Nat} (hplain : IsPlainIndex step)
    (h : readIndex? step = some i) : step = indexName i := by
  obtain ⟨j, rfl⟩ := isPlainIndex_iff.1 hplain
  rw [readIndex?_indexName, Option.filter_some] at h
  split at h
  · rw [Option.some.inj h]
  · cases h

/-! ## Places -/

/-- From a value a list of names leads to another: over the keys of mappings and the indices of
lists. -/
inductive Leads : Value → List String → Value → Prop
  | here (value : Value) : Leads value [] value
  | key {fields : Fields} {name : String} {value goal : Value} {names : List String} :
    (name, value) ∈ fields → Leads value names goal → Leads (.dict fields) (name :: names) goal
  | item {items : List Value} {i : Nat} {value goal : Value} {names : List String} :
    items[i]? = some value → Leads value names goal →
      Leads (.list items) (indexName i :: names) goal

/-- A property of a value and of everything in it. -/
def Everywhere (P : Value → Prop) (root : Value) : Prop :=
  ∀ names value, Leads root names value → P value

/-- What holds of every mapping and every list: the keys are in order, and a word can count the
items. -/
def WellFormed : Value → Prop
  | .dict fields => Fields.Ordered fields
  | .list items => items.length ≤ Double.wordCount
  | _ => True

/-- No key has a point. -/
def Undotted : Value → Prop
  | .dict fields => ∀ field ∈ fields, '.' ∉ field.1.toList
  | _ => True

/-- Wherever a step of a path is taken in a list, it is written in plain decimal. -/
def PlainIndices (root : Value) (steps : List String) : Prop :=
  ∀ before step after items, steps = before ++ step :: after →
    walkSteps root before = .ok (.list items) → IsPlainIndex step

namespace Leads

variable {root value goal : Value} {names : List String}

theorem trans {more : List String} (h : Leads root names value) (hmore : Leads value more goal) :
    Leads root (names ++ more) goal := by
  induction h with
  | here => exact hmore
  | key hmem _ ih => exact .key hmem (ih hmore)
  | item hget _ ih => exact .item hget (ih hmore)

/-- A way is cut where some of its names have been followed. -/
theorem exists_of_append {before after : List String} (h : Leads root (before ++ after) goal) :
    ∃ value, Leads root before value ∧ Leads value after goal := by
  induction before generalizing root with
  | nil => exact ⟨root, .here root, h⟩
  | cons name before ih =>
    rw [List.cons_append] at h
    cases h with
    | key hmem hrest =>
      obtain ⟨value, hbefore, hafter⟩ := ih hrest
      exact ⟨value, .key hmem hbefore, hafter⟩
    | item hget hrest =>
      obtain ⟨value, hbefore, hafter⟩ := ih hrest
      exact ⟨value, .item hget hbefore, hafter⟩

end Leads

theorem Everywhere.self {P : Value → Prop} {root : Value} (h : Everywhere P root) : P root :=
  h [] root (.here root)

theorem Everywhere.of_leads {P : Value → Prop} {root value : Value} {names : List String}
    (h : Everywhere P root) (hleads : Leads root names value) : Everywhere P value :=
  fun more goal hmore => h (names ++ more) goal (hleads.trans hmore)

/-- A property of a mapping and of all that its fields hold. -/
theorem everywhere_dict {P : Value → Prop} {fields : Fields} :
    Everywhere P (.dict fields) ↔
      P (.dict fields) ∧ ∀ field ∈ fields, Everywhere P field.2 := by
  constructor
  · exact fun h => ⟨h.self, fun field hmem => h.of_leads (.key hmem (.here field.2))⟩
  · rintro ⟨hself, hfields⟩ names goal hleads
    cases hleads with
    | here => exact hself
    | key hmem hrest => exact hfields _ hmem _ _ hrest

/-- A property of a list and of all its items. -/
theorem everywhere_list {P : Value → Prop} {items : List Value} :
    Everywhere P (.list items) ↔ P (.list items) ∧ ∀ value ∈ items, Everywhere P value := by
  constructor
  · refine fun h => ⟨h.self, fun value hmem => ?_⟩
    obtain ⟨i, hget⟩ := List.mem_iff_getElem?.1 hmem
    exact h.of_leads (.item hget (.here value))
  · rintro ⟨hself, hitems⟩ names goal hleads
    cases hleads with
    | here => exact hself
    | item hget hrest => exact hitems _ (List.mem_of_getElem? hget) _ _ hrest

/-- What holds nothing leads nowhere else. -/
theorem everywhere_of_atom {P : Value → Prop} {value : Value} (hdict : value.type ≠ .dict)
    (hlist : value.type ≠ .list) : Everywhere P value ↔ P value := by
  refine ⟨Everywhere.self, fun hself names goal hleads => ?_⟩
  cases hleads with
  | here => exact hself
  | key => exact absurd rfl hdict
  | item => exact absurd rfl hlist

/-! ## Following names -/

theorem walkSteps_cons (root : Value) (name : String) (names : List String) :
    walkSteps root (name :: names) = (root.step name).bind fun value => walkSteps value names := rfl

/-- What names lead to is found by following them. -/
theorem walkSteps_of_leads {root goal : Value} {names : List String} (h : Leads root names goal)
    (hroot : Everywhere WellFormed root) : walkSteps root names = .ok goal := by
  induction h with
  | here => rfl
  | key hmem hrest ih =>
    have hordered : Fields.Ordered _ := hroot.self
    rw [walkSteps_cons, step, hordered.mem_iff.1 hmem]
    exact ih (hroot.of_leads (.key hmem (.here _)))
  | @item items i value goal names hget hrest ih =>
    have hlength : items.length ≤ Double.wordCount := hroot.self
    have hi : i < items.length := (List.getElem?_eq_some_iff.1 hget).1
    have hread : readIndex? (indexName i) = some i := by
      rw [readIndex?_indexName, Option.filter_some, if_pos (by simp; omega)]
    rw [walkSteps_cons, step, hread, Option.bind_some, hget]
    exact ih (hroot.of_leads (.item hget (.here _)))

theorem PlainIndices.head {items : List Value} {name : String} {names : List String}
    (h : PlainIndices (.list items) (name :: names)) : IsPlainIndex name :=
  h [] name names items rfl rfl

theorem PlainIndices.tail {root value : Value} {name : String} {names : List String}
    (h : PlainIndices root (name :: names)) (hstep : root.step name = .ok value) :
    PlainIndices value names := by
  intro before step after items hnames hwalk
  refine h (name :: before) step after items (by rw [hnames, List.cons_append]) ?_
  rw [walkSteps_cons, hstep]
  exact hwalk

/-- Names that can be followed lead to what is found, if the indices are in plain decimal. -/
theorem leads_of_walkSteps {root goal : Value} {names : List String}
    (h : walkSteps root names = .ok goal) (hplain : PlainIndices root names) :
    Leads root names goal := by
  induction names generalizing root with
  | nil =>
    obtain rfl : root = goal := Except.ok.inj h
    exact .here root
  | cons name names ih =>
    rw [walkSteps_cons] at h
    cases hstep : root.step name with
    | error reason => simp [hstep, Except.bind] at h
    | ok value =>
      rw [hstep] at h
      have hrest : Leads value names goal := ih h (hplain.tail hstep)
      cases root with
      | dict fields =>
        have hget : Fields.get? name fields = some value := by
          cases hget : Fields.get? name fields <;> simp_all [step]
        exact .key (Fields.mem_of_get? hget) hrest
      | list items =>
        have hget : (readIndex? name).bind (items[·]?) = some value := by
          cases hget : (readIndex? name).bind (items[·]?) <;> simp_all [step]
        -- Without plain decimal the index could be spelled otherwise, with a sign for instance.
        obtain ⟨i, hread, hitem⟩ := Option.bind_eq_some_iff.1 hget
        rw [eq_indexName_of_readIndex? hplain.head hread]
        exact .item hitem hrest
      | null | bool | int | float | str => cases hstep

/-- Where names lead somewhere, the indices among them are in plain decimal. -/
theorem plainIndices_of_leads {root goal : Value} {names : List String} (h : Leads root names goal)
    (hroot : Everywhere WellFormed root) : PlainIndices root names := by
  rintro before step after items rfl hwalk
  -- Following is a function, so the list is the value to which the names before lead.
  obtain ⟨value, hbefore, hafter⟩ := h.exists_of_append
  rw [walkSteps_of_leads hbefore hroot] at hwalk
  obtain rfl : value = .list items := Except.ok.inj hwalk
  cases hafter with
  | item hget hrest => exact isPlainIndex_iff.2 ⟨_, rfl⟩

/-- Names lead somewhere if and only if they can be followed with indices in plain decimal. -/
theorem leads_iff_walkSteps {root goal : Value} {names : List String}
    (hroot : Everywhere WellFormed root) :
    Leads root names goal ↔ walkSteps root names = .ok goal ∧ PlainIndices root names :=
  ⟨fun h => ⟨walkSteps_of_leads h hroot, plainIndices_of_leads h hroot⟩,
    fun h => leads_of_walkSteps h.1 h.2⟩

/-! ## Names spelled with points -/

/-- The names behind a path, a point before each of them. -/
def dotted (path : String) (names : List String) : String :=
  names.foldl (fun path name => path ++ "." ++ name) path

theorem toList_dotted (path : String) (names : List String) :
    (dotted path names).toList = path.toList ++ names.flatMap fun name => '.' :: name.toList := by
  induction names generalizing path with
  | nil => simp [dotted]
  | cons name names ih =>
    rw [dotted, List.foldl_cons, ← dotted, ih]
    simp

/-- The paths below the fields of a mapping, field by field. -/
theorem mem_fieldPaths_iff {text path : String} {fields : Fields} :
    text ∈ fieldPaths path fields ↔
      ∃ name value, (name, value) ∈ fields ∧ text ∈ paths (path ++ "." ++ name) value := by
  induction fields with
  | nil => simp [fieldPaths]
  | cons field fields ih =>
    obtain ⟨name, value⟩ := field
    rw [fieldPaths, List.mem_append, ih]
    constructor
    · rintro (h | ⟨name, value, hmem, h⟩)
      · exact ⟨name, value, by simp, h⟩
      · exact ⟨name, value, by simp [hmem], h⟩
    · rintro ⟨name, value, hmem, h⟩
      rcases List.mem_cons.1 hmem with heq | hmem
      · cases heq
        exact .inl h
      · exact .inr ⟨name, value, hmem, h⟩

/-- The paths below the items of a list, item by item. -/
theorem mem_itemPaths_iff {text path : String} {index : Nat} {items : List Value} :
    text ∈ itemPaths path index items ↔
      ∃ i value, items[i]? = some value ∧
        text ∈ paths (path ++ "." ++ indexName (index + i)) value := by
  induction items generalizing index with
  | nil => simp [itemPaths]
  | cons item items ih =>
    rw [itemPaths, List.mem_append, ih]
    constructor
    · rintro (h | ⟨i, value, hget, h⟩)
      · exact ⟨0, item, rfl, h⟩
      · refine ⟨i + 1, value, hget, ?_⟩
        rwa [Nat.add_comm i, ← Nat.add_assoc]
    · rintro ⟨i, value, hget, h⟩
      cases i with
      | zero =>
        obtain rfl : item = value := Option.some.inj hget
        exact .inl h
      | succ i =>
        refine .inr ⟨i, value, hget, ?_⟩
        rwa [Nat.add_assoc, Nat.add_comm 1]

/-- What names lead to has them behind the path of the value among the paths below it. -/
theorem mem_paths_of_leads {value goal : Value} {names : List String} (h : Leads value names goal)
    (path : String) : dotted path names ∈ paths path value := by
  induction h generalizing path with
  | here value => cases value <;> simp [paths, dotted]
  | @key fields name value goal names hmem hrest ih =>
    have hbelow : dotted (path ++ "." ++ name) names ∈ fieldPaths path fields :=
      mem_fieldPaths_iff.2 ⟨name, value, hmem, ih _⟩
    rw [paths]
    exact List.mem_append_left _ hbelow
  | @item items i value goal names hget hrest ih =>
    have hbelow : dotted (path ++ "." ++ indexName i) names ∈ itemPaths path 0 items :=
      mem_itemPaths_iff.2 ⟨i, value, hget, by rw [Nat.zero_add]; exact ih _⟩
    rw [paths]
    exact List.mem_append_left _ hbelow

/-- The paths below a value are spelled by names that lead somewhere. -/
theorem leads_of_mem_paths {text path : String} (value : Value) :
    text ∈ paths path value → ∃ names goal, Leads value names goal ∧ text = dotted path names := by
  cases value with
  | dict fields =>
    intro h
    rw [paths, List.mem_append, List.mem_singleton, mem_fieldPaths_iff] at h
    rcases h with ⟨name, value, hmem, h⟩ | rfl
    · have hsmaller : sizeOf value < sizeOf fields := by
        have hfield := List.sizeOf_lt_of_mem hmem
        simp only [Prod.mk.sizeOf_spec] at hfield
        omega
      obtain ⟨names, goal, hleads, htext⟩ := leads_of_mem_paths value h
      exact ⟨name :: names, goal, .key hmem hleads, htext⟩
    · exact ⟨[], _, .here _, rfl⟩
  | list items =>
    intro h
    rw [paths, List.mem_append, List.mem_singleton, mem_itemPaths_iff] at h
    rcases h with ⟨i, value, hget, h⟩ | rfl
    · have hsmaller : sizeOf value < sizeOf items :=
        List.sizeOf_lt_of_mem (List.mem_of_getElem? hget)
      rw [Nat.zero_add] at h
      obtain ⟨names, goal, hleads, htext⟩ := leads_of_mem_paths value h
      exact ⟨indexName i :: names, goal, .item hget hleads, htext⟩
    · exact ⟨[], _, .here _, rfl⟩
  | null | bool | int | float | str =>
    intro h
    exact ⟨[], _, .here _, by simpa [paths, dotted] using h⟩
termination_by sizeOf value

end Value

/-! ## Cutting at points -/

namespace Text

/-- A text without a separator is one part. -/
theorem splitOn_of_not_mem {sep : Char} {cs : List Char} (h : sep ∉ cs) :
    splitOn sep cs = [cs] := by
  rw [splitOn]
  induction cs with
  | nil => rfl
  | cons c cs ih =>
    have hc : ¬(c == sep) = true := fun heq => h (by simp [beq_iff_eq.1 heq])
    rw [splitWhere, if_neg hc, ih fun hmem => h (by simp [hmem])]

/-- A text with a separator in it has the parts before it and then those behind it. -/
theorem splitOn_append_cons (sep : Char) (cs ds : List Char) :
    splitOn sep (cs ++ sep :: ds) = splitOn sep cs ++ splitOn sep ds := by
  rw [splitOn, splitOn]
  induction cs with
  | nil => simp [splitOn, splitWhere]
  | cons c cs ih =>
    obtain ⟨part, parts, hsplit, -⟩ := splitWhere_head (· == sep) cs
    rw [List.cons_append, splitWhere, splitWhere, ih, hsplit]
    by_cases hc : (c == sep) = true
    · rw [if_pos hc, if_pos hc]
      rfl
    · rw [if_neg hc, if_neg hc]
      rfl

/-- A part ends at the first separator. -/
theorem splitOn_append {sep : Char} {cs : List Char} (h : sep ∉ cs) (ds : List Char) :
    splitOn sep (cs ++ sep :: ds) = cs :: splitOn sep ds := by
  rw [splitOn_append_cons, splitOn_of_not_mem h, List.singleton_append]

/-- A text is its parts with a separator before each but the first. -/
theorem splitOn_flatMap {sep : Char} {cs part : List Char} {parts : List (List Char)}
    (h : splitOn sep cs = part :: parts) : part ++ parts.flatMap (sep :: ·) = cs := by
  rw [splitOn] at h
  induction cs generalizing part parts with
  | nil =>
    obtain ⟨rfl, rfl⟩ := List.cons.inj h
    rfl
  | cons c cs ih =>
    obtain ⟨first, rest, hsplit, -⟩ := splitWhere_head (· == sep) cs
    have hcs := ih hsplit
    rw [splitWhere, hsplit] at h
    split at h
    · rename_i hc
      obtain ⟨rfl, rfl⟩ := List.cons.inj h
      rw [List.flatMap_cons, List.nil_append, beq_iff_eq.1 hc, List.cons_append, hcs]
    · obtain ⟨rfl, rfl⟩ := List.cons.inj h
      rw [List.cons_append, hcs]

end Text

namespace Value

/-- A path spells its own steps. -/
theorem dotted_of_pathSteps {path head : String} {rest : List String}
    (h : pathSteps path = head :: rest) : dotted head rest = path := by
  obtain ⟨part, parts, hsplit, -⟩ := Text.splitWhere_head (· == '.') path.toList
  rw [pathSteps, Text.splitOn, hsplit, List.map_cons] at h
  obtain ⟨rfl, rfl⟩ := List.cons.inj h
  apply String.toList_inj.1
  rw [toList_dotted, List.flatMap_map]
  simpa using Text.splitOn_flatMap hsplit

/-- Names without points are the steps of the path that spells them. -/
theorem pathSteps_dotted {head : String} {rest : List String}
    (h : ∀ name ∈ head :: rest, '.' ∉ name.toList) :
    pathSteps (dotted head rest) = head :: rest := by
  rw [pathSteps, toList_dotted]
  induction rest generalizing head with
  | nil =>
    rw [List.flatMap_nil, List.append_nil, Text.splitOn_of_not_mem (h head (by simp))]
    simp
  | cons name rest ih =>
    rw [List.flatMap_cons, List.cons_append, Text.splitOn_append (h head (by simp)), List.map_cons,
      ih fun other hother => h other (List.mem_cons_of_mem _ hother), String.ofList_toList]

/-- Without points in keys there are none in the names that lead anywhere. -/
theorem Leads.not_mem_of_undotted {root goal : Value} {names : List String}
    (h : Leads root names goal) (hroot : Everywhere Undotted root) :
    ∀ name ∈ names, '.' ∉ name.toList := by
  induction h with
  | here => simp
  | @key fields name value goal names hmem hrest ih =>
    have hkeys : ∀ field ∈ fields, '.' ∉ field.1.toList := hroot.self
    intro other hother
    rcases List.mem_cons.1 hother with rfl | hother
    · exact hkeys _ hmem
    · exact ih (hroot.of_leads (.key hmem (.here _))) other hother
  | @item items i value goal names hget hrest ih =>
    intro other hother
    rcases List.mem_cons.1 hother with rfl | hother
    · have hdigits := (isPlainIndex_iff.2 ⟨i, rfl⟩).digits
      exact fun hpoint => absurd (hdigits '.' hpoint) (by decide)
    · exact ih (hroot.of_leads (.item hget (.here _))) other hother

end Value

/-! ## Paths of datasets -/

namespace Dataset

open Value

/-- A dataset is followed like the mapping it is. -/
theorem walk_eq_walkSteps (dataset : Dataset) (path : String) :
    dataset.walk path = walkSteps (.dict dataset) (pathSteps path) := by
  obtain ⟨head, rest, hsteps, -⟩ := pathSteps_head path
  simp only [walk, hsteps, walkSteps_cons, step]
  cases Fields.get? head dataset <;> rfl

/-- The paths of a dataset are spelled by the names that lead anywhere in it. -/
theorem mem_keySet_iff_leads {dataset : Dataset} {path : String} :
    path ∈ dataset.keySet ↔
      ∃ key names goal, Leads (.dict dataset) (key :: names) goal ∧ path = dotted key names := by
  rw [keySet, List.mem_flatMap]
  constructor
  · rintro ⟨⟨key, value⟩, hmem, hpath⟩
    obtain ⟨names, goal, hleads, rfl⟩ := leads_of_mem_paths value hpath
    exact ⟨key, names, goal, .key hmem hleads, rfl⟩
  · rintro ⟨key, names, goal, hleads, rfl⟩
    cases hleads with
    | key hmem hrest => exact ⟨_, hmem, mem_paths_of_leads hrest key⟩

/-- A path that can be followed with indices in plain decimal is listed, also where keys have
points. -/
theorem mem_keySet_of_walk {dataset : Dataset} {path : String} {goal : Value}
    (h : dataset.walk path = .ok goal) (hplain : PlainIndices (.dict dataset) (pathSteps path)) :
    path ∈ dataset.keySet := by
  obtain ⟨head, rest, hsteps, -⟩ := pathSteps_head path
  rw [walk_eq_walkSteps, hsteps] at h
  rw [hsteps] at hplain
  exact mem_keySet_iff_leads.2
    ⟨head, rest, goal, leads_of_walkSteps h hplain, (dotted_of_pathSteps hsteps).symm⟩

/-- If no key has a point, the paths listed are the ones that can be followed with indices in plain
decimal. So a word that reads as a number and cannot be followed is that number. -/
theorem mem_keySet_iff_walk {dataset : Dataset} (hdataset : Everywhere WellFormed (.dict dataset))
    (hkeys : Everywhere Undotted (.dict dataset)) (path : String) :
    (path ∈ dataset.keySet ↔
      (∃ goal, dataset.walk path = .ok goal) ∧ PlainIndices (.dict dataset) (pathSteps path)) ∧
    ∀ number, ofWord? path = some number → (∀ goal, dataset.walk path ≠ .ok goal) →
      (Scope.of dataset).lookup path = .ok number := by
  have hiff : path ∈ dataset.keySet ↔
      (∃ goal, dataset.walk path = .ok goal) ∧ PlainIndices (.dict dataset) (pathSteps path) := by
    constructor
    · intro hmem
      -- The names that spell the path have no points, so cutting at the points gives them back.
      obtain ⟨key, names, goal, hleads, rfl⟩ := mem_keySet_iff_leads.1 hmem
      obtain ⟨hwalk, hplain⟩ := (leads_iff_walkSteps hdataset).1 hleads
      rw [walk_eq_walkSteps, pathSteps_dotted (hleads.not_mem_of_undotted hkeys)]
      exact ⟨⟨goal, hwalk⟩, hplain⟩
    · rintro ⟨⟨goal, hwalk⟩, hplain⟩
      exact mem_keySet_of_walk hwalk hplain
  refine ⟨hiff, fun number hnumber hnowhere => ?_⟩
  have hunlisted : dataset.keySet.contains path = false := by
    rw [← Bool.not_eq_true, List.contains_iff_mem, hiff]
    exact fun h => hnowhere _ h.1.choose_spec
  simp only [Scope.lookup, hnumber, Scope.keys_of, hunlisted, Bool.false_eq_true, if_false]

/-- The item of a list is listed under its index in plain decimal, and not under the index with a
sign, with which it can be followed too. -/
theorem mem_keySet_iff_walk_of_list :
    let dataset : Dataset := [("a", .list [.int 7]), ("b", .null)]
    Everywhere WellFormed (.dict dataset) ∧ Everywhere Undotted (.dict dataset) ∧
      PlainIndices (.dict dataset) (pathSteps "a.0") ∧
      ¬PlainIndices (.dict dataset) (pathSteps "a.+0") ∧
      (Scope.of dataset).lookup "7" = .ok (.int 7) := by
  intro dataset
  have hatom (P : Value → Prop) :
      (Everywhere P (.int 7) ↔ P (.int 7)) ∧ (Everywhere P .null ↔ P .null) :=
    ⟨everywhere_of_atom (by decide) (by decide), everywhere_of_atom (by decide) (by decide)⟩
  have hdataset : Everywhere WellFormed (.dict dataset) := by
    rw [everywhere_dict]
    refine ⟨(by decide : Fields.Ordered dataset), ?_⟩
    simp [dataset, everywhere_list, hatom, WellFormed, Double.wordCount]
  have hkeys : Everywhere Undotted (.dict dataset) := by
    simp [dataset, everywhere_dict, everywhere_list, hatom, Undotted]
  have hlisted := (mem_keySet_iff_walk hdataset hkeys "a.0").1.1 (by decide)
  have hsigned : "a.+0" ∉ dataset.keySet := by decide
  have hnumber := (mem_keySet_iff_walk hdataset hkeys "7").2 (.int 7) rfl
  refine ⟨hdataset, hkeys, hlisted.2, fun hplain => hsigned ?_, hnumber fun goal h => ?_⟩
  · exact (mem_keySet_iff_walk hdataset hkeys "a.+0").1.2 ⟨⟨.int 7, rfl⟩, hplain⟩
  · cases h

/-- A key with a point is listed like a path, but followed as a path it leads nowhere. Then the word
is not the number that it reads as either. -/
theorem not_walk_of_dotted_key :
    let dataset : Dataset := [("2.5", .str "x")]
    "2.5" ∈ dataset.keySet ∧ dataset.walk "2.5" = .error (.missingKey "2") ∧
      (ofWord? "2.5").isSome ∧ (Scope.of dataset).lookup "2.5" = .error (.missingKey "2") := by
  intro dataset
  have hlisted : dataset.keySet.contains "2.5" = true := by decide
  have hlookup : (Scope.of dataset).lookup "2.5" = .error (.missingKey "2") := by
    simp only [Scope.lookup, Scope.keys_of, hlisted, if_true]
    cases ofWord? "2.5" <;> rfl
  exact ⟨List.contains_iff_mem.1 hlisted, rfl, by decide +kernel, hlookup⟩

end Dataset

end Stencil
