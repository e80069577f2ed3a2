import Stencil.Proofs.Blocks
import Stencil.Proofs.NonInterference
import Stencil.Proofs.Paths

/-!
# Loops

A loop (`Env.forLoop`) renders its body once for every item of a list, in order, each time against a
dataset of its own: that of the loop, overlaid first with what the loop tells of the iteration and
then with the item under the name of the loop. Nothing that an iteration does is seen by another
one. A body that only puts out the item makes the texts of all items put together.
-/

namespace Stencil

open Template

/-! ## Words as names -/

namespace Template

/-- Whether a character has no meaning of its own in a token or in a path: it is no blank, no quote,
no separator and no point. -/
def isPlainWordChar (c : Char) : Bool :=
  !Text.isBlank c && !isQuoteMark c && !Token.isDelimiter c && c != '.'

/-- A word that is a name as a token and a single step as a path. It may read as a number. -/
structure IsPlainWord (cs : List Char) : Prop where
  ne_nil : cs ≠ []
  plain : ∀ c ∈ cs, isPlainWordChar c = true

namespace IsPlainWord

variable {cs : List Char} (h : IsPlainWord cs)
include h

theorem of_mem {c : Char} (hc : c ∈ cs) :
    Text.isBlank c = false ∧ isQuoteMark c = false ∧ Token.isDelimiter c = false ∧ c ≠ '.' := by
  simpa [isPlainWordChar, and_assoc] using h.plain c hc

theorem isWord : IsWord cs where
  ne_nil := h.ne_nil
  avoids := Quote.avoids_of_forall fun _ hc => (h.of_mem hc).1
  closed := Quote.run_outside fun _ hc => (h.of_mem hc).2.1
  last _ hc := (h.of_mem (List.mem_of_mem_getLast? hc)).1

theorem point_not_mem : '.' ∉ cs := fun hc => (h.of_mem hc).2.2.2 rfl

theorem parse_eq :
    Token.parse cs false = ⟨String.ofList cs, .name, String.ofList cs, false, none, []⟩ := by
  have hsegment : Token.segment (cs ++ []) = (⟨.name, String.ofList cs⟩, []) :=
    segment_append (fun _ hc => (h.of_mem hc).2.2.1)
      (fun _ hc => (h.of_mem (List.mem_of_mem_head? hc)).2.1) (by simp)
  rw [List.append_nil] at hsegment
  simp [Token.parse, hsegment, Token.arguments, Token.filterCalls]

end IsPlainWord

end Template

/-- A key without a point stands for the value under it, also if it reads as a number. -/
theorem Scope.lookup_of_get? {dataset : Dataset} {name : String} {value : Value}
    (hpoint : '.' ∉ name.toList) (h : Fields.get? name dataset = some value) :
    (Scope.of dataset).lookup name = .ok value := by
  have hwalk : dataset.walk name = .ok value := by
    have hsteps : Value.pathSteps name = [name] := by
      rw [Value.pathSteps, Text.splitOn_of_not_mem hpoint, List.map_singleton,
        String.ofList_toList]
    rw [Dataset.walk, hsteps]
    simp only [h]
    rfl
  have hlisted : dataset.keySet.contains name = true :=
    List.contains_iff_mem.2 (Dataset.mem_keySet_iff_leads.2
      ⟨name, [], value, .key (Fields.mem_of_get? h) (.here value), rfl⟩)
  rw [Scope.lookup]
  split
  · rw [Scope.keys_of, if_pos hlisted]
    exact hwalk
  · exact hwalk

namespace Render.Env

variable (env : Env)

/-- A plain word that is a key of the dataset has the value under it. -/
theorem resolve_plainWord {cs : List Char} (hcs : IsPlainWord cs) {dataset : Dataset}
    {value : Value} (h : Fields.get? (String.ofList cs) dataset = some value) :
    env.resolve (.of dataset) (Token.parse cs false) = pure value := by
  have hlookup := Scope.lookup_of_get? (by rw [String.toList_ofList]; exact hcs.point_not_mem) h
  have hfetch : (Scope.of dataset).fetch .any (String.ofList cs) = pure value := by
    simp [Scope.fetch, hlookup, Shape.accepts]
  rw [hcs.parse_eq]
  simp only [resolve, Token.resolve, Token.number?, Bool.false_and, Bool.false_eq_true, if_false,
    hfetch]
  rfl

/-- Putting out such a word is putting out the text of the value. -/
theorem renderAt_plainWord {level : Nat} (hlevel : level ≤ env.config.maxDepth) (source : String)
    {cs : List Char} (hcs : IsPlainWord cs) {dataset : Dataset} {value : Value}
    (h : Fields.get? (String.ofList cs) dataset = some value) :
    env.renderAt level source dataset [.instruction .replace [Token.parse cs false]] =
      pure value.display := by
  rw [env.renderAt_singleton hlevel source dataset rfl, output, env.resolve_plainWord hcs h]
  rfl

/-! ## Iterations -/

/-- What the body of a loop is told of the iteration at an index: the number of the item from either
end, from one and from zero, whether it is the first or the last, and how many there are. -/
def countersAt (length index : Nat) : Fields :=
  let n : Int := length
  let i : Int := index
  [("counter", .int (i + 1)), ("counter0", .int i), ("first", .bool (i = 0)),
    ("last", .bool (i = n - 1)), ("length", .int n), ("revcounter", .int (n - i)),
    ("revcounter0", .int (n - i - 1))]

/-- The dataset of an iteration: what it is told, and then the item, laid over that of the loop. -/
def overlaid (dataset : Dataset) (name : String) (length : Nat) (item : Value × Nat) : Dataset :=
  Fields.merge (Fields.merge dataset [("forloop", .dict (countersAt length item.2))])
    [(name, item.1)]

/-- The item wins, also if it has the name of what the iteration is told. -/
theorem get?_overlaid (dataset : Dataset) (name : String) (length : Nat) (item : Value × Nat)
    (key : String) :
    Fields.get? key (overlaid dataset name length item) =
      if key = name then some item.1
      else if key = "forloop" then some (.dict (countersAt length item.2))
      else Fields.get? key dataset := by
  rw [overlaid, Fields.get?_merge, Fields.get?_merge]
  by_cases hname : key = name
  · simp [Fields.get?, hname]
  · by_cases hforloop : key = "forloop"
    · subst hforloop
      simp [Fields.get?, hname, Ne.symm hname]
    · simp [Fields.get?, hname, hforloop, Ne.symm hname, Ne.symm hforloop]

theorem loopFields_eq {index length : Nat} (h : index < length) :
    loopFields index length = countersAt length index := by
  have hof (a b c d e f g : Value) :
      Fields.ofList [("counter", a), ("counter0", b), ("revcounter", c), ("revcounter0", d),
        ("first", e), ("last", f), ("length", g)] =
      [("counter", a), ("counter0", b), ("first", e), ("last", f), ("length", g),
        ("revcounter", c), ("revcounter0", d)] := by
    cbv
  have hlast : (index + 1 == length) = decide ((index : Int) = length - 1) := by
    rw [Bool.eq_iff_iff, beq_iff_eq, decide_eq_true_iff]
    omega
  have hfirst : (index == 0) = decide ((index : Int) = 0) := by
    rw [Bool.eq_iff_iff, beq_iff_eq, decide_eq_true_iff]
    omega
  have hbehind : ((length - index : Nat) : Int) = length - index := by omega
  have hbehind0 : ((length - index - 1 : Nat) : Int) = length - index - 1 := by omega
  rw [loopFields, hof, hlast, hfirst]
  simp only [hbehind, hbehind0, countersAt, Nat.cast_add, Nat.cast_one]

variable (child : Child)

/-- The iterations of a loop, each by itself: outputs and events are put together in order. -/
theorem iterations_eq (dataset : Dataset) (name : String) (body : List Action)
    {length index : Nat} {items : List Value} (hlength : index + items.length = length) :
    let iteration (item : Value × Nat) := child "for" (overlaid dataset name length item) body
    iterations child dataset name body length index items =
      ⟨String.join ((items.zipIdx index).map fun item => (iteration item).value),
        (items.zipIdx index).flatMap fun item => (iteration item).events⟩ := by
  intro iteration
  induction items generalizing index with
  | nil => rfl
  | cons item items ih =>
    rw [List.length_cons] at hlength
    have hdata : iterationData dataset name index length item =
        overlaid dataset name length (item, index) := by
      rw [iterationData, loopFields_eq (by omega)]
      rfl
    rw [iterations, hdata, ih (by omega)]
    refine Logged.eq_of ?_ ?_
    · simp [iteration, List.zipIdx_cons]
    · simp [iteration, List.zipIdx_cons]

/-- A loop over a list looks the list up and then renders its iterations. -/
theorem renderAt_of_list {level : Nat} (hlevel : level ≤ env.config.maxDepth) (source : String)
    (dataset : Dataset) (name : Token) {word items : Token} (hword : word.value = "in")
    (body : Body) {values : List Value}
    (hitems : (env.resolve (.of dataset) items).value = .list values) :
    let iteration (item : Value × Nat) :=
      env.renderAt (level + 1) "for" (overlaid dataset name.value values.length item) body.actions
    env.renderAt level source dataset [.forLoop [name, word, items] body] =
      ⟨String.join (values.zipIdx.map fun item => (iteration item).value),
        (env.resolve (.of dataset) items).events ++
          values.zipIdx.flatMap fun item => (iteration item).events⟩ := by
  intro iteration
  have hiterations := iterations_eq (env.renderAt (level + 1)) dataset name.value body.actions
    (Nat.zero_add values.length)
  rw [env.renderAt_singleton hlevel source dataset rfl, output, forLoop, if_pos hword]
  refine Logged.eq_of ?_ ?_
  · simp only [Logged.value_bind, hitems, Scope.dataset_of, hiterations, iteration]
  · simp only [Logged.events_bind, hitems, Scope.dataset_of, hiterations, iteration]

/-- A loop renders its body for every item of the list, in order. -/
theorem renderAt_forLoop (env : Env) (loop : WrittenBlock env.config.trimBlocks .forLoop)
    {v xs : List Char}
    (hwords : splitArguments loop.part.tag.arguments = [v, "in".toList, xs]) :
    compile env.config.trimBlocks (String.ofList loop.text) = .ok [loop.action] ∧
    ∀ {level : Nat} (source : String) (dataset : Dataset) {items : List Value},
      level < env.config.maxDepth →
      (env.resolve (.of dataset) (Token.parse xs false)).value = .list items →
      let out := env.renderAt level source dataset [loop.action]
      let iteration (item : Value × Nat) : Logged String :=
        env.renderAt (level + 1) "for"
          (overlaid dataset (Token.parse v false).value items.length item) loop.part.body.actions
      out.value = String.join (items.zipIdx.map fun item => (iteration item).value) ∧
      out.events = (env.resolve (.of dataset) (Token.parse xs false)).events ++
        items.zipIdx.flatMap (fun item => (iteration item).events) ∧
      (IsPlainWord v → ¬HoldsOutside '\x7d' '\x7d' v → loop.part.body.text = emitOf v →
        out.value = String.join (items.map Value.display) ∧
        out.events = (env.resolve (.of dataset) (Token.parse xs false)).events) := by
  refine ⟨loop.compile_text, fun {level} source dataset {items} hlevel hitems => ?_⟩
  intro out iteration
  have haction : loop.action = .forLoop
      [Token.parse v false, Token.parse "in".toList false, Token.parse xs false]
      loop.part.body.body := by
    simp [WrittenBlock.action, PlainBlock.part, BlockPart.action, tokens, hwords]
  have hin : (Token.parse "in".toList false).value = "in" := by cbv
  have hout := env.renderAt_of_list (Nat.le_of_lt hlevel) source dataset (Token.parse v false) hin
    loop.part.body.body hitems
  rw [← haction] at hout
  have hvalue : out.value = String.join (items.zipIdx.map fun item => (iteration item).value) :=
    congrArg Logged.value hout
  have hevents : out.events = (env.resolve (.of dataset) (Token.parse xs false)).events ++
      items.zipIdx.flatMap (fun item => (iteration item).events) := congrArg Logged.events hout
  refine ⟨hvalue, hevents, fun hv hemit htext => ?_⟩
  -- The item is found under its name, so each iteration only puts out its text.
  have hiteration (item : Value × Nat) : iteration item = pure item.1.display := by
    have hname : (Token.parse v false).value = String.ofList v := by rw [hv.parse_eq]
    have hitem : Fields.get? (String.ofList v)
        (overlaid dataset (String.ofList v) items.length item) = some item.1 := by
      rw [get?_overlaid, if_pos rfl]
    simp only [iteration, hname, loop.part.body.actions_of_emit hv.isWord hemit htext]
    exact env.renderAt_plainWord hlevel "for" hv hitem
  have hdisplay : items.zipIdx.map (fun item => (iteration item).value) =
      items.map Value.display := by
    conv_rhs => rw [← List.zipIdx_map_fst 0 items, List.map_map]
    simp only [hiteration, Logged.value_pure, Function.comp_def]
  constructor
  · rw [hvalue, hdisplay]
  · rw [hevents]
    simp [hiteration]

/-- A loop whose name reads as a number. -/
def numberLoop : WrittenBlock true .forLoop where
  part :=
    { tag := ⟨" for 5 in xs ".toList, by cbv, by decide, by decide⟩
      body := ⟨"\x7b\x7b 5 \x7d\x7d".toList, [.instruction .replace [Token.parse ['5'] false]],
        by cbv, by decide⟩ }
  closing := ⟨" endfor ".toList, by cbv, by decide, by decide⟩

/-- The number is the name of the item, also where it is a key of the dataset. -/
theorem renderAt_forLoop_number :
    let env : Env := ⟨⟨none, true, 1⟩, .none, ⟨⟨0, 0, 0⟩, fun _ => 0⟩⟩
    let dataset : Dataset := [("5", .str "outer"), ("xs", .list [.str "a", .int 2])]
    let actions : List Action := [.forLoop (tokens "5 in xs".toList)
      (.mk "\x7b\x7b 5 \x7d\x7d" [.instruction .replace [Token.parse ['5'] false]])]
    compile true "\x7b% for 5 in xs %\x7d\x7b\x7b 5 \x7d\x7d\x7b% endfor %\x7d" = .ok actions ∧
      (env.renderAt 0 "page" dataset actions).value = "a2" ∧
      (env.renderAt 0 "page" dataset actions).events = [] := by
  intro env dataset actions
  have hword : IsPlainWord ['5'] := ⟨by decide, List.all_eq_true.1 (by decide)⟩
  have hitems : env.resolve (.of dataset) (Token.parse ['x', 's'] false) =
      pure (.list [.str "a", .int 2]) :=
    env.resolve_plainWord ⟨by decide, List.all_eq_true.1 (by decide)⟩ rfl
  obtain ⟨hcompile, hrender⟩ := @renderAt_forLoop env numberLoop ['5'] ['x', 's'] rfl
  obtain ⟨-, -, hlast⟩ := hrender "page" dataset Nat.zero_lt_one (by rw [hitems]; rfl)
  obtain ⟨hvalue, hevents⟩ := hlast hword (by decide) rfl
  rw [hitems] at hevents
  exact ⟨hcompile, hvalue, hevents⟩

end Render.Env

end Stencil
