import Stencil.Filter.Apply
import Stencil.Proofs.LineNumbers

/-!
# Specifications of formats

There is one way to take a specification apart (`Spec.parse?`) into flags, width, precision and
conversion. It is accepted if its width and its precision are sizes or left out. Both are cut to the
bound, a converted value gets the sign that the flags ask for, and fill characters are put in up to
the width.
-/

namespace Stencil.Filter

/-! ## Texts with fill characters -/

/-- Where fill characters are put into a text: before it, between two parts of it, and behind it. -/
structure Padding where
  fill : Char
  left : Nat
  inside : Nat
  right : Nat

/-- A text in two parts with the fill characters put in. -/
def Padding.around (p : Padding) (front back : List Char) : List Char :=
  List.replicate p.left p.fill ++ front ++ List.replicate p.inside p.fill ++ back ++
    List.replicate p.right p.fill

/-- A text with so many fill characters put in at most. -/
def PaddedWithin (bound : Nat) (text out : List Char) : Prop :=
  ∃ (p : Padding) (front back : List Char), text = front ++ back ∧ out = p.around front back ∧
    p.left + p.inside + p.right ≤ bound

theorem paddedWithin_sides {left right bound : Nat} (h : left + right ≤ bound) (fill : Char)
    (cs : List Char) :
    PaddedWithin bound cs (List.replicate left fill ++ cs ++ List.replicate right fill) :=
  ⟨⟨fill, left, 0, right⟩, cs, [], by simp, by simp [Padding.around], h⟩

theorem paddedWithin_self (bound : Nat) (cs : List Char) : PaddedWithin bound cs cs :=
  ⟨⟨' ', 0, 0, 0⟩, cs, [], by simp, by simp [Padding.around], Nat.zero_le bound⟩

theorem paddedWithin_before {count bound : Nat} (h : count ≤ bound) (fill : Char)
    (cs : List Char) : PaddedWithin bound cs (List.replicate count fill ++ cs) :=
  ⟨⟨fill, count, 0, 0⟩, cs, [], by simp, by simp [Padding.around], h⟩

theorem paddedWithin_behind {count bound : Nat} (h : count ≤ bound) (fill : Char)
    (cs : List Char) : PaddedWithin bound cs (cs ++ List.replicate count fill) :=
  ⟨⟨fill, 0, 0, count⟩, cs, [], by simp, by simp [Padding.around], by simpa using h⟩

theorem paddedWithin_between {count bound : Nat} (h : count ≤ bound) (fill : Char)
    (front back : List Char) :
    PaddedWithin bound (front ++ back) (front ++ List.replicate count fill ++ back) :=
  ⟨⟨fill, 0, count, 0⟩, front, back, rfl, by simp [Padding.around], by simpa using h⟩

/-- What padding and conversions take for the sign of a number. -/
def IsSign (c : Char) : Prop := c = '-' ∨ c = '+' ∨ c = ' '

/-- A text cut behind the sign it begins with, if it does. -/
inductive Signed : List Char → List Char → Prop
  | bare {rest : List Char} : (∀ c ∈ rest.head?, ¬IsSign c) → Signed [] rest
  | sign {c : Char} (rest : List Char) : IsSign c → Signed [c] rest

theorem exists_signed (cs : List Char) : ∃ sign rest, cs = sign ++ rest ∧ Signed sign rest := by
  by_cases hsign : ∃ c rest, cs = c :: rest ∧ IsSign c
  · obtain ⟨c, rest, rfl, hc⟩ := hsign
    exact ⟨[c], rest, rfl, .sign rest hc⟩
  · refine ⟨[], cs, rfl, .bare fun c hc hc' => hsign ?_⟩
    obtain ⟨rest, rfl⟩ := List.head?_eq_some_iff.1 hc
    exact ⟨c, rest, rfl, hc'⟩

/-- Padding puts blanks on one side of a text, or zeros between its sign and the rest. -/
theorem padTo_cases {sign rest : List Char} (h : Signed sign rest) (flags : List Char)
    (numeric : Bool) (width : Nat) :
    ∃ count ≤ width, padTo flags numeric width (sign ++ rest) =
          sign ++ rest ++ List.replicate count ' ' ∨
        padTo flags numeric width (sign ++ rest) = sign ++ List.replicate count '0' ++ rest ∨
        padTo flags numeric width (sign ++ rest) = List.replicate count ' ' ++ (sign ++ rest) := by
  refine ⟨width - (sign ++ rest).length, Nat.sub_le _ _, ?_⟩
  simp only [padTo]
  split_ifs with hleft hzeros
  · exact .inl rfl
  · right; left
    cases h with
    | @sign c rest hc =>
      have hsign : c = '-' ∨ c = '+' ∨ c = ' ' := hc
      simp only [List.singleton_append, if_pos hsign]
      rfl
    | bare hrest =>
      cases rest with
      | nil => rfl
      | cons c rest =>
        have hsign : ¬(c = '-' ∨ c = '+' ∨ c = ' ') := hrest c rfl
        simp only [List.nil_append, if_neg hsign]
        rfl
  · exact .inr (.inr rfl)

theorem paddedWithin_padTo (flags : List Char) (numeric : Bool) {width bound : Nat}
    (hwidth : width ≤ bound) (cs : List Char) :
    PaddedWithin bound cs (padTo flags numeric width cs) := by
  obtain ⟨sign, rest, rfl, hsigned⟩ := exists_signed cs
  obtain ⟨count, hcount, hpad⟩ := padTo_cases hsigned flags numeric width
  rcases hpad with h | h | h
  · rw [h]
    exact paddedWithin_behind (hcount.trans hwidth) ' ' _
  · rw [h]
    exact paddedWithin_between (hcount.trans hwidth) '0' sign rest
  · rw [h]
    exact paddedWithin_before (hcount.trans hwidth) ' ' _

/-! ## The text of a specification -/

/-- The precision with the point in front of it. -/
def Spec.places (spec : Spec) : List Char :=
  match spec.precision with
  | some p => '.' :: p
  | none => []

/-- The text that a specification is taken apart from. -/
def Spec.text (spec : Spec) : List Char :=
  spec.flags ++ (spec.width ++ spec.places) ++ [spec.conversion]

/-- The parts of a specification can be told apart: the width begins with no flag and has no point.
-/
structure Spec.WellFormed (spec : Spec) : Prop where
  flags : ∀ c ∈ spec.flags, isFlag c = true
  width : ∀ c ∈ spec.width.head?, isFlag c = false
  point : '.' ∉ spec.width

/-- A text is cut in front of the first character that is not like those before it. -/
theorem span_of_head {p : Char → Bool} {front rest : List Char} (hfront : ∀ c ∈ front, p c = true)
    (hrest : ∀ c ∈ rest.head?, p c = false) :
    (front ++ rest).takeWhile p = front ∧ (front ++ rest).dropWhile p = rest := by
  rw [List.takeWhile_append_of_pos hfront, List.dropWhile_append_of_pos hfront]
  cases rest with
  | nil => exact ⟨List.append_nil front, rfl⟩
  | cons c rest =>
    have hstop : ¬p c = true := by simp [hrest c rfl]
    rw [List.takeWhile_cons_of_neg hstop, List.append_nil, List.dropWhile_cons_of_neg hstop]
    exact ⟨rfl, rfl⟩

theorem Spec.head?_places {spec : Spec} {c : Char} (h : c ∈ spec.places.head?) : c = '.' := by
  unfold places at h
  split at h
  · exact (Option.some_inj.1 h).symm
  · cases h

theorem Spec.parse?_text {spec : Spec} (h : spec.WellFormed) : parse? spec.text = some spec := by
  have hflag : isFlag '.' = false := rfl
  have hfirst : ∀ c ∈ (spec.width ++ spec.places).head?, isFlag c = false := by
    intro c hc
    cases hwidth : spec.width with
    | nil =>
      rw [hwidth] at hc
      rwa [head?_places hc]
    | cons d width =>
      rw [hwidth] at hc
      refine h.width c ?_
      rwa [hwidth]
  have hbefore : ∀ c ∈ spec.width, (c != '.') = true := fun c hc =>
    bne_iff_ne.2 (ne_of_mem_of_not_mem hc h.point)
  have hplaces : ∀ c ∈ spec.places.head?, (c != '.') = false := by
    intro c hc
    rw [head?_places hc]
    rfl
  have hsized := span_of_head h.flags hfirst
  have hpointed := span_of_head hbefore hplaces
  simp only [parse?, text, List.getLast?_concat, List.dropLast_concat, Option.map_some, hsized.1,
    hsized.2, hpointed.1, List.drop_left]
  obtain ⟨flags, width, precision, conversion⟩ := spec
  cases precision <;> rfl

/-- A specification is what its text is taken apart into, and there is one way to take it apart. -/
theorem Spec.parse?_eq_some_iff {cs : List Char} {spec : Spec} :
    parse? cs = some spec ↔ spec.WellFormed ∧ spec.text = cs := by
  constructor
  · intro h
    obtain ⟨conversion, hlast, rfl⟩ := Option.map_eq_some_iff.1 h
    obtain ⟨body, rfl⟩ := List.getLast?_eq_some_iff.1 hlast
    simp only [List.dropLast_concat]
    obtain ⟨sized, hsized⟩ : ∃ sized, sized = body.dropWhile isFlag := ⟨_, rfl⟩
    obtain ⟨width, hwidth⟩ : ∃ width, width = sized.takeWhile (· != '.') := ⟨_, rfl⟩
    obtain ⟨places, hplaces⟩ : ∃ places, places = sized.dropWhile (· != '.') := ⟨_, rfl⟩
    have hparts : width ++ places = sized := by
      rw [hwidth, hplaces, List.takeWhile_append_dropWhile]
    have hbody : body.takeWhile isFlag ++ (width ++ places) = body := by
      rw [hparts, hsized, List.takeWhile_append_dropWhile]
    have hdrop : sized.drop width.length = places := by
      rw [← hparts, List.drop_left]
    have hfirst := List.head?_dropWhile_not isFlag body
    have hfirst' := List.head?_dropWhile_not (· != '.') sized
    rw [← hsized, ← hparts] at hfirst
    rw [← hplaces] at hfirst'
    rw [← hsized, ← hwidth, hdrop]
    constructor
    · refine ⟨fun c hc => List.mem_takeWhile_imp hc, fun c hc => ?_, fun hpoint => ?_⟩
      · rw [List.head?_append, Option.mem_def.1 hc] at hfirst
        exact hfirst
      · rw [hwidth] at hpoint
        simpa using List.mem_takeWhile_imp hpoint
    · cases places with
      | nil => exact congrArg (· ++ [conversion]) hbody
      | cons c rest =>
        obtain rfl : c = '.' := by simpa using hfirst'
        exact congrArg (· ++ [conversion]) hbody
  · rintro ⟨hspec, rfl⟩
    exact parse?_text hspec

/-! ## Accepted specifications -/

/-- A specification with its sizes read and cut to the bound. -/
structure Settled where
  flags : List Char
  width : Nat
  precision : Option Nat
  conversion : Char
  deriving DecidableEq, Repr

/-- A size cut to the bound. -/
def boundedSize? (cs : List Char) : Option Nat := (readSize? cs).map (min · maxWidth)

theorem value_clampSize? (cs : List Char) : (clampSize? cs).value = boundedSize? cs := by
  unfold clampSize? boundedSize?
  cases readSize? cs with
  | none => rfl
  | some n => simp only [Logged.value_bind, Logged.value_pure, value_clampWidth, Option.map_some]

theorem exists_clampSize? (cs : List Char) :
    ∃ events, clampSize? cs = ⟨boundedSize? cs, events⟩ :=
  ⟨(clampSize? cs).events, Logged.eq_of (value_clampSize? cs) rfl⟩

theorem boundedSize?_le {cs : List Char} {n : Nat} (h : boundedSize? cs = some n) :
    n ≤ maxWidth := by
  obtain ⟨m, -, rfl⟩ := Option.map_eq_some_iff.1 h
  exact min_le_right _ _

/-- The width of a specification, zero if it is left out; none if it is no size. -/
def Spec.width? (spec : Spec) : Option Nat :=
  if spec.width.isEmpty then some 0 else boundedSize? spec.width

/-- The precision of a specification, if it has one; none if it is no size. -/
def Spec.precision? (spec : Spec) : Option (Option Nat) :=
  match spec.precision with
  | some p => (boundedSize? p).map some
  | none => some none

/-- Reads the sizes of a specification. -/
def Spec.settle? (spec : Spec) : Option Settled :=
  spec.precision?.bind fun precision =>
    spec.width?.map fun width => ⟨spec.flags, width, precision, spec.conversion⟩

/-- A settled specification has the flags and the conversion it was written with, and sizes within
the bound. -/
theorem Spec.settled_of_settle? {spec : Spec} {d : Settled} (h : spec.settle? = some d) :
    d.flags = spec.flags ∧ d.conversion = spec.conversion ∧ d.width ≤ maxWidth ∧
      ∀ p ∈ d.precision, p ≤ maxWidth := by
  obtain ⟨precision, hprecision, h⟩ := Option.bind_eq_some_iff.1 h
  obtain ⟨width, hwidth, rfl⟩ := Option.map_eq_some_iff.1 h
  refine ⟨rfl, rfl, ?_, fun p hp => ?_⟩
  · rw [Spec.width?] at hwidth
    split_ifs at hwidth
    · rw [← Option.some_inj.1 hwidth]
      exact Nat.zero_le _
    · exact boundedSize?_le hwidth
  · obtain rfl := Option.mem_def.1 hp
    unfold Spec.precision? at hprecision
    split at hprecision
    · obtain ⟨n, hn, hsome⟩ := Option.map_eq_some_iff.1 hprecision
      rw [← Option.some_inj.1 hsome]
      exact boundedSize?_le hn
    · cases hprecision

/-- A value formatted by an accepted specification. -/
def Settled.format? (d : Settled) (value : Value) : Option (List Char) :=
  (convert? d.conversion d.precision value).map fun (converted, numeric) =>
    padTo d.flags numeric d.width (if numeric then addSign d.flags converted else converted)

theorem value_formatWith? (value : Value) (cs : List Char) :
    (formatWith? value cs).value =
      (Spec.parse? cs).bind fun spec => spec.settle?.bind (·.format? value) := by
  rw [formatWith?]
  cases Spec.parse? cs with
  | none => rfl
  | some spec =>
    obtain ⟨flags, width, precision, conversion⟩ := spec
    obtain ⟨widthEvents, hwidth⟩ := exists_clampSize? width
    simp only [Option.bind_some, Spec.settle?, Spec.precision?, Spec.width?, hwidth]
    -- Both sides go through the precision first, and then through the width.
    cases precision with
    | none =>
      by_cases hempty : width.isEmpty = true
      · simp only [if_pos hempty]
        rfl
      · simp only [if_neg hempty]
        cases boundedSize? width <;> rfl
    | some p =>
      obtain ⟨precisionEvents, hprecision⟩ := exists_clampSize? p
      simp only [hprecision]
      cases boundedSize? p with
      | none => rfl
      | some places =>
        by_cases hempty : width.isEmpty = true
        · simp only [if_pos hempty]
          rfl
        · simp only [if_neg hempty]
          cases boundedSize? width <;> rfl

/-- The text of a specification, without the percent sign in front. -/
def specText (spec : String) : List Char :=
  match spec.toList with
  | '%' :: rest => rest
  | rest => rest

/-- A value formatted by the text of a specification. -/
def formatBy? (value : Value) (spec : String) : Option (List Char) :=
  (Spec.parse? (specText spec)).bind fun spec => spec.settle?.bind (·.format? value)

/-- What cannot be formatted becomes the empty text. -/
theorem value_stringFormat (s : Surroundings) (value : Value) (given : List Value) :
    (stringFormat.apply s value given).value = .str (String.ofList ((formatBy? value
      ((stringFormat.resolveArguments given).value.getD 0 .null).display).getD [])) := by
  rw [value_apply]
  obtain ⟨spec, hspec⟩ : ∃ spec, spec =
      ((stringFormat.resolveArguments given).value.getD 0 .null).display := ⟨_, rfl⟩
  have hformat : (formatWith? value (specText spec)).value = formatBy? value spec :=
    value_formatWith? value (specText spec)
  show (stringFormatValue value _).value = _
  rw [← hspec]
  show (match (formatWith? value (specText spec)).value with
    | some text => pure (.str (String.ofList text))
    | none => .withEvent (.formatFailed spec value.display) (.str "") : Logged Value).value = _
  rw [hformat]
  cases formatBy? value spec <;> rfl

end Stencil.Filter
