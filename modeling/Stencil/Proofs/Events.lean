import Stencil.Render.Scope

/-!
# What lookups and filters tell

That templates nest too deeply (`Event.isTooDeep`) is told where a level is entered and nowhere
else: no filter, no lookup and no condition tells it. Most of them tell nothing either that halts
the run (`Logged.Plain`); of the filters all but two.
-/

namespace Stencil

/-- Whether an event tells that templates nest too deeply. -/
@[simp] def Event.isTooDeep : Event → Bool
  | .tooDeep .. => true
  | _ => false

/-- No other event has its message. -/
theorem Event.isTooDeep_iff {e : Event} :
    e.isTooDeep = true ↔ e.message = "templates nest too deeply" := by
  cases e with
  | halted reason => cases reason <;> decide
  | _ => simp [message]

/-! ## Properties of events -/

namespace Logged

variable {α β : Type} {p : Event → Prop}

/-- All events of a result have a property. -/
def Only (p : Event → Prop) (x : Logged α) : Prop := ∀ e ∈ x.events, p e

theorem only_pure (a : α) : (pure a : Logged α).Only p := by
  simp [Only]

theorem only_withEvent {e : Event} {a : α} : (withEvent e a).Only p ↔ p e := by
  simp [Only, withEvent]

theorem only_emit {e : Event} : (emit e).Only p ↔ p e := by
  simp [Only, emit]

/-- The events of one result after another are those of both. -/
theorem only_bind {x : Logged α} {f : α → Logged β} :
    (x >>= f).Only p ↔ x.Only p ∧ (f x.value).Only p := by
  simp [Only, or_imp, forall_and]

/-- A result that no limit on the depth has cut: it does not tell of one. -/
def Uncut (x : Logged α) : Prop := x.Only fun e => e.isTooDeep = false

@[simp] theorem uncut_pure (a : α) : (pure a : Logged α).Uncut := only_pure a

@[simp] theorem uncut_withEvent {e : Event} {a : α} :
    (withEvent e a).Uncut ↔ e.isTooDeep = false := only_withEvent

@[simp] theorem uncut_emit {e : Event} : (emit e).Uncut ↔ e.isTooDeep = false := only_emit

@[simp] theorem uncut_bind {x : Logged α} {f : α → Logged β} :
    (x >>= f).Uncut ↔ x.Uncut ∧ (f x.value).Uncut := only_bind

theorem Uncut.only {x : Logged α} (h : x.Uncut) (hp : ∀ e, e.isTooDeep = false → p e) :
    x.Only p := by
  intro e he
  exact hp e (h e he)

@[simp] theorem uncut_sum (x y : Int) : (sum x y).Uncut := by
  unfold sum
  split <;> simp

/-- A result that does not tell of the depth, and on the way to which nothing halts. -/
def Plain (x : Logged α) : Prop := x.Only fun e => e.isTooDeep = false ∧ e.isHalt = false

@[simp] theorem plain_pure (a : α) : (pure a : Logged α).Plain := only_pure a

@[simp] theorem plain_withEvent {e : Event} {a : α} :
    (withEvent e a).Plain ↔ e.isTooDeep = false ∧ e.isHalt = false := only_withEvent

@[simp] theorem plain_emit {e : Event} :
    (emit e).Plain ↔ e.isTooDeep = false ∧ e.isHalt = false := only_emit

@[simp] theorem plain_bind {x : Logged α} {f : α → Logged β} :
    (x >>= f).Plain ↔ x.Plain ∧ (f x.value).Plain := only_bind

theorem Plain.uncut {x : Logged α} (h : x.Plain) : x.Uncut := fun e he => (h e he).1

theorem Plain.halts_eq {x : Logged α} (h : x.Plain) : x.halts = false := by
  rw [halts, List.any_eq_false]
  intro e he
  rw [(h e he).2]
  exact Bool.false_ne_true

theorem plain_mapList {f : α → Logged β} (h : ∀ a, (f a).Plain) (as : List α) :
    (mapList f as).Plain := by
  induction as with
  | nil => exact plain_pure []
  | cons a as ih => simp [mapList, h, ih]

end Logged

open Logged

/-! ## Filters -/

namespace Date

@[simp] theorem plain_format (m : Moment) (style : Style) (text : List Char) :
    (format m style text).Plain := by
  unfold format
  dsimp only
  repeat' split
  all_goals simp

end Date

namespace Filter

@[simp] theorem plain_addValues (value operand : Value) : (addValues value operand).Plain := by
  unfold addValues
  repeat' split
  all_goals simp

@[simp] theorem plain_divisible (value divisor : Value) : (divisible value divisor).Plain := by
  unfold divisible
  dsimp only
  repeat' split
  all_goals simp

@[simp] theorem plain_fileSize (value : Value) : (fileSize value).Plain := by
  unfold fileSize
  dsimp only
  repeat' split
  all_goals simp

@[simp] theorem plain_floatFormatValue (value decimals : Value) :
    (floatFormatValue value decimals).Plain := by
  unfold floatFormatValue
  dsimp only
  repeat' split
  all_goals simp

@[simp] theorem plain_digitOf (value : Value) (digits : List Char) (position : Value) :
    (digitOf value digits position).Plain := by
  unfold digitOf
  repeat' split
  all_goals simp

@[simp] theorem plain_digitAt (value position : Value) : (digitAt value position).Plain := by
  cases value <;> simp [digitAt]

@[simp] theorem plain_text? (filter : String) (value : Value) : (text? filter value).Plain := by
  cases value <;> simp [text?]

@[simp] theorem plain_mapText (filter : String) (value : Value) (f : List Char → List Char) :
    (mapText filter value f).Plain := by
  simp [mapText]

@[simp] theorem plain_mapCounted (filter : String) (value count : Value)
    (f : Int → List Char → List Char) : (mapCounted filter value count f).Plain := by
  unfold mapCounted
  rw [plain_bind]
  refine ⟨plain_text? filter value, ?_⟩
  split
  · simp
  · split
    · simp
    · cases count <;> simp

@[simp] theorem plain_clampWidth (filter : String) (width : Nat) :
    (clampWidth filter width).Plain := by
  unfold clampWidth
  repeat' split
  all_goals simp

@[simp] theorem plain_widthAndFill (width fill : Value) : (widthAndFill width fill).Plain := by
  unfold widthAndFill
  repeat' split
  all_goals simp

@[simp] theorem plain_padText (filter : String) (value width fill : Value)
    (pad : Char → Nat → List Char → List Char) : (padText filter value width fill pad).Plain := by
  unfold padText
  rw [plain_bind]
  refine ⟨plain_text? filter value, ?_⟩
  split
  all_goals simp

@[simp] theorem uncut_numberLines (symbol : List Char) (column : Nat) (number : Int)
    (lines : List (List Char)) : (numberLines symbol column number lines).Uncut := by
  induction lines generalizing number with
  | nil => simp [numberLines]
  | cons line lines ih => simp [numberLines, ih]

@[simp] theorem plain_lineGap (gap : Value) : (lineGap gap).Plain := by
  unfold lineGap
  repeat' split
  all_goals simp

theorem uncut_lineNumbersValue (value start gap symbol : Value) :
    (lineNumbersValue value start gap symbol).Uncut := by
  unfold lineNumbersValue
  split
  · simp
  · simp [(plain_lineGap gap).uncut]

@[simp] theorem plain_clampSize? (cs : List Char) : (clampSize? cs).Plain := by
  unfold clampSize?
  split <;> simp

@[simp] theorem plain_formatWith? (value : Value) (cs : List Char) :
    (formatWith? value cs).Plain := by
  unfold formatWith?
  split
  · exact plain_pure none
  · rename_i spec _
    extract_lets sized
    have hsized : ∀ precision, (sized precision).Plain := fun precision => by
      cases precision with
      | none => exact plain_pure none
      | some precision =>
        simp only [sized]
        split
        · exact plain_pure _
        · rw [plain_bind]
          refine ⟨plain_clampSize? spec.width, ?_⟩
          split <;> exact plain_pure _
    split <;> simp [hsized]

@[simp] theorem plain_stringFormatValue (value : Value) (spec : String) :
    (stringFormatValue value spec).Plain := by
  unfold stringFormatValue
  dsimp only
  rw [plain_bind]
  refine ⟨plain_formatWith? _ _, ?_⟩
  split <;> simp

@[simp] theorem plain_moment? (filter : String) (value : Value) :
    (moment? filter value).Plain := by
  unfold moment?
  repeat' split
  all_goals simp

@[simp] theorem plain_reference? (filter : String) (now : Date.Moment) (compare : Value) :
    (reference? filter now compare).Plain := by
  unfold reference?
  repeat' split
  all_goals simp

@[simp] theorem plain_dateValue (filter : String) (value format style : Value) :
    (dateValue filter value format style).Plain := by
  unfold dateValue
  rw [plain_bind]
  refine ⟨plain_moment? filter value, ?_⟩
  split <;> simp

@[simp] theorem plain_spanValue (filter : String) (now : Date.Moment) (value compare : Value)
    (span : Date.Moment → Date.Moment → Int) :
    (spanValue filter now value compare span).Plain := by
  simp [spanValue]

@[simp] theorem plain_findValue (value key expected : Value) :
    (findValue value key expected).Plain := by
  unfold findValue
  split <;> simp

@[simp] theorem plain_findAllValue (value key expected : Value) :
    (findAllValue value key expected).Plain := by
  unfold findAllValue
  split <;> simp

@[simp] theorem plain_pickItem (filter : String) (value : Value)
    (pick : List Value → Option Value) : (pickItem filter value pick).Plain := by
  unfold pickItem
  repeat' split
  all_goals simp

@[simp] theorem plain_joinValue (value : Value) (joiner splitter : List Char) :
    (joinValue value joiner splitter).Plain := by
  cases value <;> simp [joinValue]

theorem uncut_lengthValue (value extra : Value) : (lengthValue value extra).Uncut := by
  unfold lengthValue
  split <;> simp

@[simp] theorem plain_lengthIsValue (value expected : Value) :
    (lengthIsValue value expected).Plain := by
  unfold lengthIsValue
  split <;> simp

@[simp] theorem plain_makeListValue (value : Value) : (makeListValue value).Plain := by
  cases value <;> simp [makeListValue]

@[simp] theorem plain_unorderedListValue (value : Value) : (unorderedListValue value).Plain := by
  cases value <;> simp [unorderedListValue]

@[simp] theorem plain_sliceValue (value : Value) (spec : String) :
    (sliceValue value spec).Plain := by
  unfold sliceValue
  repeat' split
  all_goals simp

@[simp] theorem plain_sortValue (value key order : Value) :
    (sortValue value key order).Plain := by
  unfold sortValue
  dsimp only
  repeat' split
  all_goals simp

/-- Of all filters only two can halt the run. -/
theorem plain_run (s : Surroundings) {f : Filter} (hlength : f ≠ .length)
    (hnumbers : f ≠ .lineNumbers) (value a b c : Value) : (f.run s value a b c).Plain := by
  cases f with
  | length => exact absurd rfl hlength
  | lineNumbers => exact absurd rfl hnumbers
  | _ => simp [run]

/-- What a filter cannot do is told in other ways. -/
theorem uncut_run (s : Surroundings) (f : Filter) (value a b c : Value) :
    (f.run s value a b c).Uncut := by
  by_cases hlength : f = .length
  · subst hlength
    exact uncut_lengthValue value a
  by_cases hnumbers : f = .lineNumbers
  · subst hnumbers
    exact uncut_lineNumbersValue value a b c
  · exact (plain_run s hlength hnumbers value a b c).uncut

theorem plain_resolveOne (f : Filter) (position : Nat) (p : Parameter) (given : Option Value) :
    (f.resolveOne position p given).Plain := by
  unfold resolveOne
  repeat' split
  all_goals simp

theorem plain_resolveFrom (f : Filter) (position : Nat) (ps : List Parameter)
    (given : List Value) : (f.resolveFrom position ps given).Plain := by
  induction ps generalizing position given with
  | nil => exact plain_pure []
  | cons p ps ih => simp [resolveFrom, plain_resolveOne, ih]

theorem plain_resolveArguments (f : Filter) (given : List Value) :
    (f.resolveArguments given).Plain :=
  plain_resolveFrom f 1 f.parameters given

theorem plain_apply (s : Surroundings) {f : Filter} (hlength : f ≠ .length)
    (hnumbers : f ≠ .lineNumbers) (value : Value) (given : List Value) :
    (f.apply s value given).Plain := by
  simp [apply, plain_resolveArguments, plain_run s hlength hnumbers]

theorem uncut_apply (s : Surroundings) (f : Filter) (value : Value) (given : List Value) :
    (f.apply s value given).Uncut := by
  simp [apply, (plain_resolveArguments f given).uncut, uncut_run]

end Filter

/-! ## Lookups and conditions -/

theorem Scope.plain_fetch (scope : Scope) (shape : Shape) (name : String) :
    (scope.fetch shape name).Plain := by
  unfold fetch
  repeat' split
  all_goals simp

namespace Template

variable (s : Surroundings) (scope : Scope)

theorem Argument.plain_resolve (a : Argument) : (a.resolve scope).Plain := by
  unfold resolve
  split
  · exact scope.plain_fetch .any a.value
  · exact plain_pure _

theorem uncut_applyNamed (name : String) (arguments : List Argument) (value : Value) :
    (applyNamed s scope name arguments value).Uncut := by
  unfold applyNamed
  split
  · simp
  · simp [(plain_mapList (Argument.plain_resolve scope) arguments).uncut, Filter.uncut_apply]

theorem uncut_applyCalls (calls : List FilterCall) (value : Value) :
    (applyCalls s scope calls value).Uncut := by
  induction calls generalizing value with
  | nil => exact uncut_pure value
  | cons call calls ih => simp [applyCalls, uncut_applyNamed, ih]

theorem Token.uncut_resolve (t : Token) : (t.resolve s scope).Uncut := by
  unfold Token.resolve
  split <;> simp [uncut_applyCalls, (Scope.plain_fetch _ _ _).uncut]

theorem Token.uncut_operand (t : Token) : (t.operand s scope).Uncut := by
  unfold Token.operand
  repeat' split
  all_goals simp [uncut_applyCalls]

theorem uncut_operands (ts : List Token) : (operands s scope ts).Uncut := by
  induction ts with
  | nil => exact uncut_pure _
  | cons t ts ih =>
    rw [operands, uncut_bind]
    refine ⟨t.uncut_operand s scope, ?_⟩
    split <;> simp [ih]

theorem uncut_holds (condition : List Token) : (holds s scope condition).Uncut := by
  unfold holds
  rw [uncut_bind]
  refine ⟨uncut_operands s scope condition, ?_⟩
  repeat' split
  all_goals simp

end Template

/-! ## Tags -/

namespace Render.Env

open Template

variable (env : Env) (scope : Scope)

theorem uncut_resolve (t : Token) : (env.resolve scope t).Uncut := t.uncut_resolve _ scope

theorem uncut_firstOf (arguments : List Token) : (env.firstOf scope arguments).Uncut := by
  induction arguments with
  | nil => exact uncut_pure ""
  | cons t ts ih =>
    rw [firstOf, uncut_bind]
    refine ⟨env.uncut_resolve scope t, ?_⟩
    split <;> simp [ih]

theorem uncut_lengthOf (arguments : List Token) : (env.lengthOf scope arguments).Uncut := by
  cases arguments <;> simp [lengthOf, uncut_resolve]

theorem uncut_blockFilters (arguments : List Token) (value : Value) :
    (env.blockFilters scope arguments value).Uncut := by
  induction arguments generalizing value with
  | nil => exact uncut_pure value
  | cons t ts ih =>
    rw [blockFilters]
    split <;> simp [uncut_applyNamed, uncut_applyCalls, ih]

theorem uncut_sourceName (tag : String) (arguments : List Token) :
    (env.sourceName scope tag arguments).Uncut := by
  cases arguments with
  | nil => simp [sourceName]
  | cons t ts =>
    rw [sourceName, uncut_bind]
    refine ⟨env.uncut_resolve scope t, ?_⟩
    dsimp only
    split <;> simp

end Render.Env

end Stencil
