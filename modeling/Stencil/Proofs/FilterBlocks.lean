import Stencil.Proofs.Loops
import Stencil.Proofs.TokenGrammar

/-!
# Filter blocks

A filter block (`Env.filterBlock`) renders its body and pipes the text through a chain of filters.
The first filter of the chain is read as the primary of a token and the others as the filters of
that token, while behind a variable all of them are read as its filters. Both readings take the same
names and arguments out of the text, and the variable changes nothing of what the arguments stand
for unless one of them goes through it. So the block renders as the emit of a variable that holds
the text of the body, whatever the filters are.
-/

namespace Stencil

open Template

namespace Template

/-! ## Chains -/

/-- A chain of filters that can be read as a token of its own: it does not begin with a quote, and
its first filter has one argument at most. -/
structure IsChain (chain : List Char) : Prop where
  head : ∀ c ∈ chain.head?, isQuoteMark c = false
  single : (Token.arguments (Token.bare chain).2).1.length ≤ 1

/-- The text of a name and a chain of filters behind it. -/
def piped (name : String) (chain : List Char) : List Char := name.toList ++ '|' :: chain

/-- The filters that a chain is read as behind a bar. -/
theorem filterCalls_bar (chain : List Char) :
    Token.filterCalls ('|' :: chain) =
      ⟨String.ofList (Token.bare chain).1, (Token.arguments (Token.bare chain).2).1⟩ ::
        Token.filterCalls (Token.arguments (Token.bare chain).2).2 := by
  rw [Token.filterCalls]

/-- Behind a variable all filters of a chain are read as filters. -/
theorem parse_piped {name : String} (hname : isBareName name = true) (chain : List Char) :
    Token.parse (piped name chain) false =
      ⟨String.ofList (piped name chain), .name, name, false, none,
        Token.filterCalls ('|' :: chain)⟩ := by
  obtain ⟨hplain, hhead⟩ := isBareName_iff.1 hname
  have hsegment : Token.segment (piped name chain) = (⟨.name, name⟩, '|' :: chain) := by
    rw [piped, segment_append hplain hhead (isDelimiter_of_mem_head? rfl _), String.ofList_toList]
  have harguments : Token.arguments ('|' :: chain) = ([], '|' :: chain) := by
    rw [Token.arguments]
    simp
  simp only [Token.parse, Bool.false_and, Bool.false_eq_true, if_false, hsegment, harguments]
  rfl

namespace IsChain

variable {chain : List Char} (h : IsChain chain)
include h

/-- By itself a chain is read as its first filter with its argument, and then the others. -/
theorem parse_eq :
    let first := Token.bare chain
    let given := Token.arguments first.2
    Token.parse chain false =
      ⟨String.ofList chain, .name, String.ofList first.1, false, given.1.head?,
        Token.filterCalls given.2⟩ := by
  intro first given
  have hsegment : Token.segment chain = (⟨.name, String.ofList first.1⟩, first.2) := by
    cases chain with
    | nil => rfl
    | cons c rest => simp [Token.segment, h.head c rfl, first]
  simp only [Token.parse, Bool.false_and, Bool.false_eq_true, if_false, hsegment]
  rfl

/-- Either way a chain is read as the same filters with the same arguments. -/
theorem filterCalls_eq :
    let token := Token.parse chain false
    token.kind = .name ∧
      Token.filterCalls ('|' :: chain) = ⟨token.value, token.argument.toList⟩ :: token.filters := by
  have hsingle := h.single
  rw [h.parse_eq, filterCalls_bar]
  refine ⟨rfl, ?_⟩
  -- With one argument at most, the first is all there are.
  generalize (Token.arguments (Token.bare chain).2).1 = given at hsingle
  match given, hsingle with
  | [], _ => rfl
  | [a], _ => rfl

end IsChain

end Template

namespace Render.Env

variable (env : Env)

/-! ## Values -/

/-- A chain as the only token of a filter block has the value that it has behind a variable. -/
theorem blockFilters_of_isChain {chain : List Char} (h : IsChain chain) (scope : Scope)
    (value : Value) :
    env.blockFilters scope [Token.parse chain false] value =
      applyCalls env.surroundings scope (Token.filterCalls ('|' :: chain)) value := by
  obtain ⟨hkind, hcalls⟩ := h.filterCalls_eq
  rw [hcalls, blockFilters, if_pos hkind, applyCalls]
  refine Logged.eq_of ?_ ?_
  · simp [blockFilters]
  · simp [blockFilters]

/-- A variable that is a key of the dataset has the value under it, piped through its chain. -/
theorem resolve_piped {name : String} (hname : isBareName name = true)
    (hpoint : '.' ∉ name.toList) {dataset : Dataset} {value : Value}
    (h : Fields.get? name dataset = some value) (chain : List Char) :
    env.resolve (.of dataset) (Token.parse (piped name chain) false) =
      applyCalls env.surroundings (.of dataset) (Token.filterCalls ('|' :: chain)) value := by
  have hfetch : (Scope.of dataset).fetch .any name = pure value := by
    simp [Scope.fetch, Scope.lookup_of_get? hpoint h, Shape.accepts]
  rw [parse_piped hname]
  simp only [resolve, Token.resolve, Token.number?, Bool.false_and, Bool.false_eq_true, if_false,
    hfetch]
  exact Logged.eq_of rfl rfl

/-- A key that no argument of a chain goes through makes no difference to it. -/
theorem applyCalls_insert {chain : List Char} (h : IsChain chain) {key : String}
    (hfresh : ∀ name ∈ (Token.parse chain false).argumentNames, ¬Reaches name key)
    {dataset : Dataset} (hdataset : Fields.Ordered dataset) (held : Value) :
    applyCalls env.surroundings (.of (Fields.insert key held dataset))
        (Token.filterCalls ('|' :: chain)) =
      applyCalls env.surroundings (.of dataset) (Token.filterCalls ('|' :: chain)) := by
  have halike : Alike (Token.parse chain false).argumentNames
      (Fields.insert key held dataset) dataset := by
    refine ⟨hdataset.insert key held, hdataset, ?_⟩
    rintro other ⟨name, hname, hreaches⟩
    rw [Fields.get?_insert, if_neg]
    rintro rfl
    exact hfresh name hname hreaches
  refine applyCalls_congr halike ?_
  rw [h.filterCalls_eq.2, List.flatMap_cons]
  exact List.Subset.refl _

/-! ## Blocks -/

/-- A filter block agrees with its chain of filters. Where the chain is the only token of the block,
and behind a key one word of an emit, the block renders to the same text as the emit does if the key
is bound to the text of the body and no argument of the chain goes through it. The block tells of
the body first and then the same. -/
theorem renderAt_filterBlock (env : Env) (block : WrittenBlock env.config.trimBlocks .filterBlock)
    {chain : List Char} (hblock : splitArguments block.part.tag.arguments = [chain])
    (hchain : IsChain chain) {key : String} (hname : isBareName key = true)
    (hpoint : '.' ∉ key.toList)
    (hfresh : ∀ name ∈ (Token.parse chain false).argumentNames, ¬Reaches name key)
    (hword : IsWord (piped key chain)) (hemit : ¬HoldsOutside '\x7d' '\x7d' (piped key chain)) :
    let emit : Action := .instruction .replace [Token.parse (piped key chain) false]
    compile env.config.trimBlocks (String.ofList block.text) = .ok [block.action] ∧
    compile env.config.trimBlocks (String.ofList (emitOf (piped key chain))) = .ok [emit] ∧
    ∀ (level : Nat) (source : String) {dataset : Dataset}, Fields.Ordered dataset →
      let body := env.renderAt (level + 1) "filter" dataset block.part.body.actions
      let out := env.renderAt level source dataset [block.action]
      let emitted :=
        env.renderAt level source (Fields.insert key (.str body.value) dataset) [emit]
      out.value = emitted.value ∧
        (level ≤ env.config.maxDepth → out.events = body.events ++ emitted.events) := by
  intro emit
  refine ⟨block.compile_text,
    compile_emitOf _ hword (cutOutsideQuotes_of_closes hword.closed hemit),
    fun level source {dataset} hdataset => ?_⟩
  intro body out emitted
  by_cases hlevel : level ≤ env.config.maxDepth
  · have haction : block.action =
        .filterBlock [Token.parse chain false] block.part.body.body := by
      simp [WrittenBlock.action, PlainBlock.part, BlockPart.action, tokens, hblock]
    have hbound : Fields.get? key (Fields.insert key (.str body.value) dataset) =
        some (.str body.value) := by
      rw [Fields.get?_insert, if_pos rfl]
    have hout : out = body >>= fun text =>
        applyCalls env.surroundings (.of dataset) (Token.filterCalls ('|' :: chain)) (.str text) >>=
          fun value => pure value.display := by
      simp only [out, haction]
      rw [env.renderAt_singleton hlevel source dataset rfl, output, filterBlock]
      simp only [env.blockFilters_of_isChain hchain]
      rfl
    have hemitted : emitted =
        applyCalls env.surroundings (.of dataset) (Token.filterCalls ('|' :: chain))
          (.str body.value) >>= fun value => pure value.display := by
      simp only [emitted, emit]
      rw [env.renderAt_singleton hlevel source _ rfl, output,
        env.resolve_piped hname hpoint hbound chain, env.applyCalls_insert hchain hfresh hdataset]
    rw [hout, hemitted]
    exact ⟨rfl, fun _ => rfl⟩
  · rw [Nat.not_le] at hlevel
    simp only [out, emitted, env.renderAt_of_lt hlevel]
    refine ⟨trivial, fun h => absurd h (by omega)⟩

/-- A block whose chain counts words, adds to their number, and ends with an unknown filter. -/
def countingBlock : WrittenBlock true .filterBlock where
  part :=
    { tag := ⟨" filter wordcount|add:n|nope:'x y' ".toList, by cbv, by decide, by decide⟩
      body := ⟨"a b c".toList, [.literal "a b c"], by cbv, by decide⟩ }
  closing := ⟨" endfilter ".toList, by cbv, by decide, by decide⟩

/-- The key reads as a number, and the filters hand numbers on. -/
theorem renderAt_filterBlock_count :
    let env : Env := ⟨⟨none, true, 1⟩, .none, ⟨⟨0, 0, 0⟩, fun _ => 0⟩⟩
    let chain := "wordcount|add:n|nope:'x y'".toList
    let block : Action := .filterBlock [Token.parse chain false] (.mk "a b c" [.literal "a b c"])
    let emit : Action := .instruction .replace [Token.parse (piped "5" chain) false]
    splitArguments countingBlock.part.tag.arguments = [chain] ∧ IsChain chain ∧
      isBareName "5" = true ∧ '.' ∉ "5".toList ∧
      (∀ name ∈ (Token.parse chain false).argumentNames, ¬Reaches name "5") ∧
      IsWord (piped "5" chain) ∧ ¬HoldsOutside '\x7d' '\x7d' (piped "5" chain) ∧
      compile true ("\x7b% filter wordcount|add:n|nope:'x y' %\x7da b c\x7b% endfilter %\x7d") =
        .ok [block] ∧
      compile true "\x7b\x7b 5|wordcount|add:n|nope:'x y' \x7d\x7d" = .ok [emit] ∧
      Fields.Ordered [("n", .int 4)] ∧
      (env.renderAt 0 "page" [("n", .int 4)] [block]).value = "7" ∧
      (env.renderAt 0 "page" [("n", .int 4)] [block]).events = [.unknownFilter "nope"] := by
  intro env chain block emit
  have hblock : splitArguments countingBlock.part.tag.arguments = [chain] := rfl
  have hchain : IsChain chain := by
    have hhead : chain.head? = some 'w' := rfl
    have hgiven : (Token.arguments (Token.bare chain).2).1 = [] := by
      simp only [chain]
      cbv
    exact ⟨by simp [hhead, isQuoteMark], by simp [hgiven]⟩
  have hfresh : ∀ name ∈ (Token.parse chain false).argumentNames, ¬Reaches name "5" := by
    have hnames : (Token.parse chain false).argumentNames = ["n"] := by
      simp only [chain]
      cbv
    rw [hnames]
    simp [Reaches]
  have hblank : Quote.outside.Avoids Text.isBlank (piped "5" chain) := by decide
  have hcloses : ClosesQuotes (piped "5" chain) := by decide
  have hword : IsWord (piped "5" chain) := isWord_of_avoids (by simp [piped]) hblank hcloses
  have hemit : ¬HoldsOutside '\x7d' '\x7d' (piped "5" chain) := by decide
  have hname : isBareName "5" = true := by decide
  have hpoint : '.' ∉ "5".toList := by decide
  have hdataset : Fields.Ordered [("n", .int 4)] := by decide
  have hbody : env.renderAt (0 + 1) "filter" [("n", .int 4)]
      countingBlock.part.body.actions = ⟨"a b c", []⟩ := by
    simp only [env]
    cbv
  have hemitted : env.renderAt 0 "page" (Fields.insert "5" (.str "a b c") [("n", .int 4)]) [emit] =
      ⟨"7", [.unknownFilter "nope"]⟩ := by
    simp only [env, emit, chain]
    cbv
  obtain ⟨hcompile, hcompile', hrender⟩ :=
    renderAt_filterBlock env countingBlock hblock hchain hname hpoint hfresh hword hemit
  obtain ⟨hvalue, hevents⟩ := hrender 0 "page" hdataset
  rw [hbody, hemitted] at hvalue hevents
  exact ⟨hblock, hchain, hname, hpoint, hfresh, hword, hemit, hcompile, hcompile', hdataset, hvalue,
    hevents (Nat.zero_le _)⟩

end Render.Env

end Stencil
