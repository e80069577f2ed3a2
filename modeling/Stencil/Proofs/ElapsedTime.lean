import Mathlib
import Stencil.Date.Elapsed
import Stencil.Proofs.Paths

/-!
# What phrases for spans of time tell

A phrase (`elapsedIn`) counts one unit of a table, or that unit and the one next to it. The units do
not divide each other, but the rest that a larger unit leaves is less than that unit, and the rest
that the smaller one leaves is less than the smaller one. So a phrase never tells more than the
span, and it tells less by less than the smaller unit. With the units in use (`timeUnits`) a phrase
can be read in one way only.
-/

namespace Stencil.Date

/-! ## Phrases -/

/-- A text that names a count of a unit. The name is in the plural unless the count is one. -/
inductive Names : String → Nat → TimeUnit → Prop
  | one (unit : TimeUnit) : Names ("1 " ++ unit.name) 1 unit
  | several {count : Nat} (h : count ≠ 1) (unit : TimeUnit) :
    Names (String.ofList (Double.natDigits count) ++ " " ++ unit.name ++ "s") count unit

/-- The unit next to a unit in a table. The last one has none. -/
def next? (units : List TimeUnit) (unit : TimeUnit) : Option TimeUnit :=
  units[units.idxOf unit + 1]?

/-- What a phrase tells in the units of a table: how many seconds, and how long the finest unit is
that it could have named. A unit stands alone if there is none of the next one, or no next one. -/
inductive Tells (units : List TimeUnit) : (phrase : String) → (told finest : Nat) → Prop
  | single {unit : TimeUnit} {count : Nat} {text : String} :
    unit ∈ units → 1 ≤ count → Names text count unit →
      Tells units text (count * unit.seconds) ((next? units unit).getD unit).seconds
  | double {unit next : TimeUnit} {count rest : Nat} {text more : String} :
    unit ∈ units → next? units unit = some next → 1 ≤ count → 1 ≤ rest →
      rest * next.seconds < unit.seconds → Names text count unit → Names more rest next →
      Tells units (text ++ ", " ++ more) (count * unit.seconds + rest * next.seconds) next.seconds

theorem names_iff {text : String} {count : Nat} {unit : TimeUnit} :
    Names text count unit ↔ text = countText count unit.name := by
  have hone : countText 1 unit.name = "1 " ++ unit.name := by
    rw [countText, if_pos rfl, String.append_empty]
    rfl
  constructor
  · rintro (_ | ⟨hcount, _⟩)
    · exact hone.symm
    · rw [countText, if_neg hcount]
  · rintro rfl
    by_cases hcount : count = 1
    · rw [hcount, hone]
      exact .one unit
    · rw [countText, if_neg hcount]
      exact .several hcount unit

/-! ## The phrase of a span -/

theorem next?_cons_self (unit : TimeUnit) (units : List TimeUnit) :
    next? (unit :: units) unit = units.head? := by
  rw [next?, List.idxOf_cons_self, List.getElem?_cons_succ, List.head?_eq_getElem?]

/-- What a phrase tells in the units of a table it tells with another unit in front as well. -/
theorem Tells.cons {units : List TimeUnit} {phrase : String} {told finest : Nat}
    (h : Tells units phrase told finest) {unit : TimeUnit} (hunit : unit ∉ units) :
    Tells (unit :: units) phrase told finest := by
  have hnext : ∀ other ∈ units, next? (unit :: units) other = next? units other := by
    intro other hother
    have hne : unit ≠ other := fun heq => hunit (heq ▸ hother)
    rw [next?, next?, List.idxOf_cons_ne _ hne, List.getElem?_cons_succ]
  cases h with
  | single hmem hcount htext =>
    rw [← hnext _ hmem]
    exact .single (List.mem_cons_of_mem _ hmem) hcount htext
  | double hmem hsome hcount hrest hlt htext hmore =>
    rw [← hnext _ hmem] at hsome
    exact .double (List.mem_cons_of_mem _ hmem) hsome hcount hrest hlt htext hmore

/-- The phrase for a span that is as long as some unit or longer, in a table of different units. It
counts the first unit that is not longer than the span. -/
theorem tells_elapsedIn {units : List TimeUnit} (hnodup : units.Nodup)
    (hpos : ∀ unit ∈ units, 0 < unit.seconds) {seconds : Nat}
    (hlong : ∃ unit ∈ units, unit.seconds ≤ seconds) :
    ∃ told finest, Tells units (elapsedIn seconds units) told finest ∧
      told ≤ seconds ∧ seconds < told + finest := by
  induction units with
  | nil => simp at hlong
  | cons unit smaller ih =>
    rw [List.nodup_cons] at hnodup
    rw [List.forall_mem_cons] at hpos
    rw [elapsedIn]
    split_ifs with hshort
    · obtain ⟨other, hother, hle⟩ := hlong
      have hsmaller : other ∈ smaller := by
        rcases List.mem_cons.1 hother with rfl | hmem
        · omega
        · exact hmem
      obtain ⟨told, finest, htells, hbounds⟩ := ih hnodup.2 hpos.2 ⟨other, hsmaller, hle⟩
      exact ⟨told, finest, htells.cons hnodup.1, hbounds⟩
    · have hcount : 1 ≤ seconds / unit.seconds :=
        (Nat.one_le_div_iff hpos.1).2 (Nat.le_of_not_lt hshort)
      have hsplit : seconds / unit.seconds * unit.seconds + seconds % unit.seconds = seconds :=
        Nat.div_add_mod' seconds unit.seconds
      have hless : seconds % unit.seconds < unit.seconds := Nat.mod_lt seconds hpos.1
      have hnext : next? (unit :: smaller) unit = smaller.head? := next?_cons_self unit smaller
      have hsingle : Tells (unit :: smaller) (countText (seconds / unit.seconds) unit.name) _ _ :=
        .single List.mem_cons_self hcount (names_iff.2 rfl)
      rw [hnext] at hsingle
      cases smaller with
      | nil =>
        refine ⟨_, _, hsingle, by omega, ?_⟩
        rw [List.head?_nil, Option.getD_none]
        omega
      | cons next others =>
        rw [List.head?_cons, Option.getD_some] at hsingle
        dsimp only
        generalize seconds % unit.seconds = remainder at hsplit hless ⊢
        have hlow : remainder / next.seconds * next.seconds ≤ remainder :=
          Nat.div_mul_le_self remainder next.seconds
        have hhigh : remainder < remainder / next.seconds * next.seconds + next.seconds :=
          Nat.lt_div_mul_add (hpos.2 next List.mem_cons_self)
        split_ifs with hnone
        · rw [hnone, Nat.zero_mul] at hhigh
          exact ⟨_, _, hsingle, by omega, by omega⟩
        · have hdouble : Tells (unit :: next :: others) _ _ _ :=
            .double List.mem_cons_self hnext hcount (Nat.pos_of_ne_zero hnone) (by omega)
              (names_iff.2 rfl) (names_iff.2 rfl)
          exact ⟨_, _, hdouble, by omega, by omega⟩

/-! ## Reading a phrase -/

/-- What stands before the first separator ends there. -/
theorem append_separator_inj {sep : Char} {cs ds cs' ds' : List Char} (h : sep ∉ cs)
    (h' : sep ∉ cs') : cs ++ sep :: ds = cs' ++ sep :: ds' ↔ cs = cs' ∧ ds = ds' := by
  constructor
  · intro heq
    have hparts := congrArg (Text.splitOn sep) heq
    rw [Text.splitOn_append h, Text.splitOn_append h'] at hparts
    obtain rfl : cs = cs' := (List.cons.inj hparts).1
    rw [List.append_cancel_left_eq, List.cons_inj_right] at heq
    exact ⟨rfl, heq⟩
  · rintro ⟨rfl, rfl⟩
    rfl

theorem toList_countText (count : Nat) (name : String) :
    (countText count name).toList =
      Double.natDigits count ++ ' ' :: (name.toList ++ if count = 1 then [] else ['s']) := by
  rw [countText]
  split_ifs <;> simp

theorem not_mem_natDigits {c : Char} (hc : c.isDigit = false) (count : Nat) :
    c ∉ Double.natDigits count := by
  intro hmem
  have hdigit := Nat.isDigit_of_mem_toDigits (by decide) (by decide) hmem
  simp [hc] at hdigit

section TimeUnits

variable {unit other : TimeUnit} (hunit : unit ∈ timeUnits)
include hunit

theorem comma_not_mem_countText (count : Nat) : ',' ∉ (countText count unit.name).toList := by
  have hnames : ∀ unit ∈ timeUnits, ',' ∉ unit.name.toList := by decide
  rw [toList_countText]
  split_ifs <;> simp [not_mem_natDigits, hnames unit hunit]

/-- The count ends at the first blank, and what follows is the name of one unit only. -/
theorem countText_inj (hother : other ∈ timeUnits) {count count' : Nat}
    (h : countText count unit.name = countText count' other.name) :
    count = count' ∧ unit = other := by
  have hnames : ∀ unit ∈ timeUnits, ∀ other ∈ timeUnits, unit.name = other.name → unit = other := by
    decide
  rw [← String.toList_inj, toList_countText, toList_countText,
    append_separator_inj (not_mem_natDigits rfl _) (not_mem_natDigits rfl _)] at h
  obtain ⟨hdigits, hname⟩ := h
  obtain rfl : count = count' := by
    have hvalue := congrArg Double.digitsValue hdigits
    rwa [Value.digitsValue_natDigits, Value.digitsValue_natDigits] at hvalue
  rw [List.append_left_inj, String.toList_inj] at hname
  exact ⟨rfl, hnames unit hunit other hother hname⟩

end TimeUnits

/-- A phrase for one count has no comma, so where there are two the first one ends there. -/
theorem Tells.unique {phrase phrase' : String} {told told' finest finest' : Nat}
    (h : Tells timeUnits phrase told finest) (h' : Tells timeUnits phrase' told' finest')
    (heq : phrase = phrase') : told = told' ∧ finest = finest' := by
  have hmem {unit next : TimeUnit} (h : next? timeUnits unit = some next) : next ∈ timeUnits :=
    List.mem_of_getElem? h
  cases h with
  | @single unit count _ hunit _ htext =>
    have hcomma := comma_not_mem_countText hunit count
    cases h' with
    | single hunit' _ htext' =>
      rw [names_iff.1 htext, names_iff.1 htext'] at heq
      obtain ⟨rfl, rfl⟩ := countText_inj hunit hunit' heq
      exact ⟨rfl, rfl⟩
    | double =>
      rw [← names_iff.1 htext, heq] at hcomma
      simp at hcomma
  | @double unit next count rest _ _ hunit hnext _ _ _ htext hmore =>
    cases h' with
    | @single unit' count' _ hunit' _ htext' =>
      have hcomma := comma_not_mem_countText hunit' count'
      rw [← names_iff.1 htext', ← heq] at hcomma
      simp at hcomma
    | @double unit' next' count' rest' _ _ hunit' hnext' _ _ _ htext' hmore' =>
      rw [names_iff.1 htext, names_iff.1 hmore, names_iff.1 htext', names_iff.1 hmore',
        ← String.toList_inj] at heq
      simp only [String.toList_append, List.append_assoc] at heq
      obtain ⟨hfirst, hsecond⟩ := (append_separator_inj (comma_not_mem_countText hunit count)
        (comma_not_mem_countText hunit' count')).1 heq
      obtain ⟨rfl, rfl⟩ := countText_inj hunit hunit' (String.toList_inj.1 hfirst)
      obtain ⟨rfl, rfl⟩ := countText_inj (hmem hnext) (hmem hnext')
        (String.toList_inj.1 (List.cons.inj hsecond).2)
      exact ⟨rfl, rfl⟩

/-- A phrase for a span of a minute or more counts one unit of the table, or that unit and the next
one (`Tells`). What it can be read to tell is not more than the span, and less by less than the
smaller unit. -/
theorem elapsed_truthful {seconds : Int} (h : 60 ≤ seconds) :
    (∃ told finest : Nat, Tells timeUnits (elapsed seconds) told finest) ∧
      ∀ told finest : Nat, Tells timeUnits (elapsed seconds) told finest →
        told ≤ seconds ∧ seconds < told + finest := by
  have hnodup : timeUnits.Nodup := by decide
  have hpos : ∀ unit ∈ timeUnits, 0 < unit.seconds := by decide
  have hminute : (⟨60, "minute"⟩ : TimeUnit) ∈ timeUnits := by decide
  obtain ⟨told, finest, htells, hle, hlt⟩ :=
    tells_elapsedIn hnodup hpos ⟨_, hminute, (by omega : 60 ≤ seconds.toNat)⟩
  refine ⟨⟨told, finest, htells⟩, fun told' finest' htells' => ?_⟩
  obtain ⟨rfl, rfl⟩ := htells.unique htells' rfl
  omega

/-- A second before two years are over there are twelve months behind the first one. -/
theorem elapsed_truthful_before_two_years :
    elapsed 63071999 = "1 year, 12 months" ∧
      Tells timeUnits "1 year, 12 months" 62640000 2592000 ∧
      (62640000 : Int) ≤ 63071999 ∧ (63071999 : Int) < 62640000 + 2592000 := by
  have helapsed : elapsed 63071999 = "1 year, 12 months" := by decide +kernel
  have htells : Tells timeUnits "1 year, 12 months" 62640000 2592000 :=
    @Tells.double timeUnits ⟨31536000, "year"⟩ ⟨2592000, "month"⟩ 1 12 "1 year" "12 months"
      (by decide) (by decide) (by decide) (by decide) (by decide)
      (names_iff.2 (by decide +kernel)) (names_iff.2 (by decide +kernel))
  have hread : Tells timeUnits (elapsed 63071999) 62640000 2592000 := helapsed ▸ htells
  exact ⟨helapsed, htells, (elapsed_truthful (by decide)).2 62640000 2592000 hread⟩

end Stencil.Date
