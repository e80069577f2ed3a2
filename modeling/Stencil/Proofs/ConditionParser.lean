import Stencil.Proofs.ConditionGrammar

/-!
# The reader of conditions accepts their grammar

Whatever the reader (`parseLevel`) takes off the front of the operands is a sentence of its level.
Conversely, it takes a sentence off the front and stops there, unless the operand behind it goes on
with the sentence. So operands are read as an expression if and only if the grammar derives it
(`Reads`), and a printed expression has the value of the expression.
-/

namespace Stencil.Condition

/-! ## The tables of the reader -/

/-- Whether the operators of a level group to the left. -/
def Level.groups : Level → Bool
  | .not | .comparison | .factor | .power | .atom => false
  | _ => true

/-- The levels that do not group to the left. -/
theorem Level.groups_or (l : Level) :
    l.groups = true ∨ l = .not ∨ l = .comparison ∨ l = .factor ∨ l = .power ∨ l = .atom := by
  cases l <;> simp [groups]

/-- Atoms do not group. -/
theorem Level.ne_atom_of_groups {l : Level} (h : l.groups = true) : l ≠ .atom := by
  rintro rfl
  simp [groups] at h

/-- The operators that join two expressions. -/
theorem Level.join?_cases {l : Level} {word : String} {join : Expr → Expr → Expr}
    (h : l.join? word = some join) :
    (l = .or ∧ word = "or" ∧ join = .or) ∨ (l = .and ∧ word = "and" ∧ join = .and) ∨
      ∃ op : BinaryOp, op ≠ .pow ∧ l = op.level ∧ word = op.symbol ∧ join = .binary op := by
  unfold join? at h
  split at h
  case h_1 => exact .inl ⟨rfl, rfl, (Option.some.inj h).symm⟩
  case h_2 => exact .inr (.inl ⟨rfl, rfl, (Option.some.inj h).symm⟩)
  case h_14 => simp at h
  -- In the other rows of the table `h` gives the operator.
  all_goals
    refine .inr (.inr ⟨_, ?_, ?_, ?_, (Option.some.inj h).symm⟩) <;> decide

/-- Every binary operator but `**` joins at its level. -/
theorem BinaryOp.join?_symbol {op : BinaryOp} (h : op ≠ .pow) :
    op.level.join? op.symbol = some (.binary op) := by
  cases op <;> first | rfl | contradiction

/-- Every binary operator but `**` groups to the left. -/
theorem BinaryOp.leftLevel_of_ne {op : BinaryOp} (h : op ≠ .pow) : op.leftLevel = op.level := by
  cases op <;> first | rfl | contradiction

/-- The right operand of such an operator is of the next level. -/
theorem BinaryOp.rightLevel_of_ne {op : BinaryOp} (h : op ≠ .pow) :
    op.rightLevel = op.level.tighter := by
  cases op <;> first | rfl | contradiction

/-- Only levels that group to the left join. -/
theorem Level.groups_of_join? {l : Level} {word : String} {join : Expr → Expr → Expr}
    (h : l.join? word = some join) : l.groups = true := by
  rcases join?_cases h with ⟨rfl, -⟩ | ⟨rfl, -⟩ | ⟨op, hop, rfl, -⟩
  · rfl
  · rfl
  · cases op <;> first | rfl | contradiction

/-- Operators are told apart by their words. -/
theorem BinaryOp.symbol_injective {a b : BinaryOp} (h : a.symbol = b.symbol) : a = b := by
  cases a <;> cases b <;> first | rfl | simp [symbol] at h

/-- A word joins at one level only. -/
theorem Level.join?_unique {l m : Level} {word : String} {join join' : Expr → Expr → Expr}
    (h : l.join? word = some join) (h' : m.join? word = some join') : l = m := by
  have hor : ∀ op : BinaryOp, op.symbol ≠ "or" := by intro op; cases op <;> decide
  have hand : ∀ op : BinaryOp, op.symbol ≠ "and" := by intro op; cases op <;> decide
  rcases join?_cases h with ⟨rfl, rfl, -⟩ | ⟨rfl, rfl, -⟩ | ⟨op, -, rfl, rfl, -⟩ <;>
    rcases join?_cases h' with ⟨rfl, hw, -⟩ | ⟨rfl, hw, -⟩ | ⟨op', -, rfl, hw, -⟩
  · rfl
  · simp at hw
  · exact absurd hw.symm (hor op')
  · simp at hw
  · rfl
  · exact absurd hw.symm (hand op')
  · exact absurd hw (hor op)
  · exact absurd hw (hand op)
  · rw [BinaryOp.symbol_injective hw]

/-- A joining operator between two sentences makes a sentence. -/
theorem Reads.join {l : Level} {word : String} {join : Expr → Expr → Expr}
    (h : l.join? word = some join) {xs ys : List Operand} {a b : Expr} (left : Reads l xs a)
    (right : Reads l.tighter ys b) : Reads l (xs ++ .op word :: ys) (join a b) := by
  rcases Level.join?_cases h with ⟨rfl, rfl, rfl⟩ | ⟨rfl, rfl, rfl⟩ | ⟨op, hop, rfl, rfl, rfl⟩
  · exact .or left right
  · exact .and left right
  · have hleft : op.leftLevel = op.level := by cases op <;> first | rfl | contradiction
    have hright : op.rightLevel = op.level.tighter := by cases op <;> first | rfl | contradiction
    exact .binary op rfl (hleft ▸ left) (hright ▸ right)

/-- The words of unary operators. -/
theorem unaryOp?_eq_some_iff {word : String} {op : UnaryOp} :
    unaryOp? word = some op ↔ word = op.symbol := by
  constructor
  · intro h
    unfold unaryOp? at h
    split at h <;> cases h <;> rfl
  · rintro rfl
    cases op <;> rfl

/-- A constant is a sentence. -/
theorem Reads.constant {word : String} {v : Value} (h : constant? word = some v) :
    Reads .atom [.op word] (.value v) := by
  unfold constant? at h
  split at h
  · cases h
    exact .constTrue
  · cases h
    exact .constFalse
  · cases h
    exact .constNone
  · simp at h

/-- A comparison operator is taken off the front. -/
theorem takeCompareOp?_sound {ops rest : List Operand} {op : CompareOp}
    (h : takeCompareOp? ops = some (op, rest)) : ops = op.operands ++ rest := by
  unfold takeCompareOp? at h
  split at h
  · simp only [Option.some.injEq, Prod.mk.injEq] at h
    obtain ⟨rfl, rfl⟩ := h
    rfl
  · simp only [Option.some.injEq, Prod.mk.injEq] at h
    obtain ⟨rfl, rfl⟩ := h
    rfl
  · rename_i word rest' _ _
    cases hword : compareOp? word with
    | none => simp [hword] at h
    | some found =>
      simp only [hword, Option.map_some, Option.some.injEq, Prod.mk.injEq] at h
      obtain ⟨rfl, rfl⟩ := h
      unfold compareOp? at hword
      split at hword <;> cases hword <;> rfl
  · simp at h

/-! ## What is read is a sentence -/

/-- A level that groups to the left reads a sentence of the next level and goes on. -/
theorem parseLevel_groups {l : Level} (h : l.groups = true) (depth : Nat)
    (operands : List Operand) :
    parseLevel (depth + 1) l operands =
      match parseLevel depth l.tighter operands with
      | .error e => .error e
      | .ok (left, rest) => parseJoins depth l left rest := by
  cases l <;> first | rfl | simp [Level.groups] at h

/-- A chain with its first operand is a sentence. -/
theorem Reads.chain {xs : List Operand} {a : Expr} (first : Reads .bitOr xs a)
    {links : List Link} (h : ∀ link ∈ links, Reads .bitOr link.2.1 link.2.2) :
    Reads .comparison (xs ++ links.flatMap Link.operands) (.chain a (links.map Link.read)) := by
  cases links with
  | nil => simpa [Expr.chain] using Reads.tighter (l := .comparison) (by decide) first
  | cons link links =>
    have hlink := h link (by simp)
    have hrest : ∀ other ∈ links, Reads .bitOr other.2.1 other.2.2 :=
      fun other hother => h other (by simp [hother])
    have hread := Reads.compare link.1 links first hlink hrest
    simpa [Link.operands, Link.read, Expr.chain] using hread

/-- A result that was mapped comes from a result. -/
theorem map_eq_ok {ε α β : Type} {f : α → β} {x : Except ε α} {b : β}
    (h : x.map f = .ok b) : ∃ a, x = .ok a ∧ f a = b := by
  cases x with
  | error e => simp [Except.map] at h
  | ok a => exact ⟨a, rfl, by simpa [Except.map] using h⟩

mutual

/-- What is read at a level is a sentence of the level off the front of the operands. -/
theorem parseLevel_sound : (depth : Nat) → {l : Level} → {ops rest : List Operand} → {e : Expr} →
    parseLevel depth l ops = .ok (e, rest) → ∃ xs, ops = xs ++ rest ∧ Reads l xs e
  | 0, l, ops, rest, e, h => by simp [parseLevel] at h
  | depth + 1, l, ops, rest, e, h => by
    rcases l.groups_or with hg | rfl | rfl | rfl | rfl | rfl
    · -- The left operand is a sentence of the next level, and the joins make it longer.
      rw [parseLevel_groups hg] at h
      split at h
      · simp at h
      · rename_i left rest' hleft
        obtain ⟨xs, rfl, hxs⟩ := parseLevel_sound depth hleft
        obtain ⟨ys, rfl, hys⟩ := parseJoins_sound depth h
        exact ⟨xs ++ ys, by simp, hys (.tighter (Level.ne_atom_of_groups hg) hxs)⟩
    · -- A negation, or a comparison.
      unfold parseLevel at h
      split at h
      · obtain ⟨⟨inner, after⟩, hinner, hresult⟩ := map_eq_ok h
        obtain ⟨xs, rfl, hxs⟩ := parseLevel_sound depth hinner
        cases hresult
        exact ⟨.op "not" :: xs, rfl, .not hxs⟩
      · obtain ⟨xs, rfl, hxs⟩ := parseLevel_sound depth h
        exact ⟨xs, rfl, .tighter (by decide) hxs⟩
    · -- A chain, which has no links if it is a sentence of the next level.
      rw [parseLevel] at h
      split at h
      · simp at h
      · rename_i first rest' hfirst
        obtain ⟨xs, rfl, hxs⟩ := parseLevel_sound depth hfirst
        obtain ⟨links, rfl, rfl, hlinks⟩ := parseLinks_sound depth h
        exact ⟨xs ++ links.flatMap Link.operands, by simp, hxs.chain hlinks⟩
    · -- A unary operator, or a power.
      unfold parseLevel at h
      split at h
      · rename_i word rest'
        split at h
        · rename_i op hop
          obtain ⟨⟨inner, after⟩, hinner, hresult⟩ := map_eq_ok h
          obtain ⟨xs, rfl, hxs⟩ := parseLevel_sound depth hinner
          cases hresult
          rw [unaryOp?_eq_some_iff.1 hop]
          exact ⟨.op op.symbol :: xs, rfl, .unary op hxs⟩
        · obtain ⟨xs, hops, hxs⟩ := parseLevel_sound depth h
          exact ⟨xs, hops, .tighter (by decide) hxs⟩
      · obtain ⟨xs, hops, hxs⟩ := parseLevel_sound depth h
        exact ⟨xs, hops, .tighter (by decide) hxs⟩
    · -- A power, or an atom.
      unfold parseLevel at h
      split at h
      · rename_i base rest' hbase
        obtain ⟨⟨exponent, after⟩, hexponent, hresult⟩ := map_eq_ok h
        obtain ⟨xs, rfl, hxs⟩ := parseLevel_sound depth hbase
        obtain ⟨ys, rfl, hys⟩ := parseLevel_sound depth hexponent
        cases hresult
        exact ⟨xs ++ .op "**" :: ys, by simp, .binary .pow rfl hxs hys⟩
      · obtain ⟨xs, hops, hxs⟩ := parseLevel_sound depth h
        exact ⟨xs, hops, .tighter (by decide) hxs⟩
    · -- An atom: a value, an expression in parentheses, or a constant.
      unfold parseLevel at h
      split at h
      · simp at h
      · cases h
        exact ⟨_, rfl, .value _⟩
      · split at h
        · simp at h
        · rename_i inner after hinner
          obtain ⟨xs, rfl, hxs⟩ := parseLevel_sound depth hinner
          cases h
          exact ⟨_, by simp, .parens hxs⟩
        · simp at h
        · simp at h
      · split at h
        · rename_i v hv
          cases h
          exact ⟨_, rfl, .constant hv⟩
        · simp at h

/-- What the operators of a level go on with makes a longer sentence of the level. -/
theorem parseJoins_sound : (depth : Nat) → {l : Level} → {left : Expr} →
    {ops rest : List Operand} → {e : Expr} → parseJoins depth l left ops = .ok (e, rest) →
    ∃ ys, ops = ys ++ rest ∧ ∀ {xs}, Reads l xs left → Reads l (xs ++ ys) e
  | 0, l, left, ops, rest, e, h => by simp [parseJoins] at h
  | depth + 1, l, left, ops, rest, e, h => by
    unfold parseJoins at h
    split at h
    · rename_i word rest'
      split at h
      · rename_i join hjoin
        split at h
        · simp at h
        · rename_i right after hright
          obtain ⟨ys, rfl, hys⟩ := parseLevel_sound depth hright
          obtain ⟨zs, rfl, hzs⟩ := parseJoins_sound depth h
          refine ⟨.op word :: ys ++ zs, by simp, fun hxs => ?_⟩
          have hjoined := hzs (Reads.join hjoin hxs hys)
          simpa using hjoined
      · cases h
        exact ⟨[], rfl, fun hxs => by simpa using hxs⟩
    · cases h
      exact ⟨[], rfl, fun hxs => by simpa using hxs⟩

/-- The links that a chain goes on with are sentences behind their operators. -/
theorem parseLinks_sound : (depth : Nat) → {first : Expr} → {links : List (CompareOp × Expr)} →
    {ops rest : List Operand} → {e : Expr} → parseLinks depth first links ops = .ok (e, rest) →
    ∃ more : List Link, ops = more.flatMap Link.operands ++ rest ∧
      e = .chain first (links ++ more.map Link.read) ∧
      ∀ link ∈ more, Reads .bitOr link.2.1 link.2.2
  | 0, first, links, ops, rest, e, h => by simp [parseLinks] at h
  | depth + 1, first, links, ops, rest, e, h => by
    rw [parseLinks] at h
    split at h
    · rename_i op rest' htake
      split at h
      · simp at h
      · rename_i right after hright
        obtain ⟨ys, rfl, hys⟩ := parseLevel_sound depth hright
        obtain ⟨more, rfl, rfl, hmore⟩ := parseLinks_sound depth h
        have hops := takeCompareOp?_sound htake
        refine ⟨(op, ys, right) :: more, ?_, ?_, ?_⟩
        · simp [hops, Link.operands]
        · simp [Link.read]
        · intro link hlink
          rcases List.mem_cons.1 hlink with rfl | htail
          · exact hys
          · exact hmore link htail
    · cases h
      exact ⟨[], by simp⟩

end

/-! ## Where a sentence stops -/

/-- The operands do not go on with a sentence of the level: at their front is neither an operator
that joins at this level or a tighter one, nor a comparison, nor a `**`, as far as these belong to
such levels. -/
structure Stops (l : Level) (rest : List Operand) : Prop where
  join : ∀ {m : Level} {word : String} {tail : List Operand}, l.rank ≤ m.rank →
    rest = .op word :: tail → m.join? word = none
  compare : l.rank ≤ Level.comparison.rank → takeCompareOp? rest = none
  power : l.rank ≤ Level.power.rank → ∀ tail, rest ≠ .op "**" :: tail

/-- Where a sentence of a level stops, a sentence of a tighter level stops too. -/
theorem Stops.tighten {l m : Level} {rest : List Operand} (h : Stops l rest)
    (hl : l.rank ≤ m.rank) : Stops m rest where
  join hm := h.join (Nat.le_trans hl hm)
  compare hm := h.compare (Nat.le_trans hl hm)
  power hm := h.power (Nat.le_trans hl hm)

/-- Where a power stops, the unary operand of a power stops too: no operator joins at its level. -/
theorem Stops.factor {rest : List Operand} (h : Stops .power rest) : Stops .factor rest where
  join {m word tail} hm heq := by
    by_cases hfactor : m = .factor
    · rw [hfactor]
      rfl
    · refine h.join ?_ heq
      have hne : Level.factor.rank ≠ m.rank := fun hr => hfactor (Level.rank_injective hr).symm
      simp only [Level.rank] at hm hne ⊢
      omega
  compare hrank := absurd hrank (by decide)
  power _ := h.power (by decide)

/-- Every sentence stops at the end. -/
theorem stops_nil (l : Level) : Stops l [] where
  join _ h := by simp at h
  compare _ := rfl
  power _ tail := by simp

/-- Every sentence stops at a closing parenthesis. -/
theorem stops_close (l : Level) (rest : List Operand) : Stops l (.op ")" :: rest) where
  join {m word tail} _ h := by
    simp only [List.cons.injEq, Operand.op.injEq] at h
    rw [← h.1]
    cases m <;> rfl
  compare _ := by simp [takeCompareOp?, compareOp?]
  power _ tail := by simp

/-- The operands of a joining operator stop there. -/
theorem stops_join {l : Level} {word : String} {join : Expr → Expr → Expr}
    (h : l.join? word = some join) (rest : List Operand) :
    Stops l.tighter (.op word :: rest) where
  join {m word' tail} hm heq := by
    simp only [List.cons.injEq, Operand.op.injEq] at heq
    rw [← heq.1]
    cases hjoin : m.join? word with
    | none => rfl
    | some join' =>
      -- The word joins at one level only, but `m` is tighter.
      have hrank := Level.rank_tighter (Level.ne_atom_of_groups (Level.groups_of_join? h))
      rw [Level.join?_unique h hjoin] at hm hrank
      omega
  compare hrank := by
    rcases Level.join?_cases h with ⟨-, rfl, -⟩ | ⟨-, rfl, -⟩ | ⟨op, hop, rfl, -⟩
    · simp [takeCompareOp?, compareOp?]
    · simp [takeCompareOp?, compareOp?]
    · cases op <;> simp [BinaryOp.level, Level.tighter, Level.rank] at hrank
  power _ tail := by
    rcases Level.join?_cases h with ⟨-, rfl, -⟩ | ⟨-, rfl, -⟩ | ⟨op, hop, -, rfl, -⟩
    · simp
    · simp
    · intro heq
      simp only [List.cons.injEq, Operand.op.injEq] at heq
      exact hop (BinaryOp.symbol_injective (b := .pow) heq.1)

/-- The operands of a comparison stop at its operator. -/
theorem stops_compare (op : CompareOp) (rest : List Operand) :
    Stops .bitOr (op.operands ++ rest) where
  join {m word tail} hm heq := by
    cases op <;> simp only [CompareOp.operands, CompareOp.words, List.map_cons, List.map_nil,
      List.cons_append, List.nil_append, List.cons.injEq, Operand.op.injEq] at heq <;>
      rw [← heq.1] <;> cases m <;> rfl
  compare hrank := absurd hrank (by decide)
  power _ tail := by
    cases op <;> simp [CompareOp.operands, CompareOp.words]

/-- The base of a power stops at its operator. -/
theorem stops_power (rest : List Operand) : Stops .atom (.op "**" :: rest) where
  join {m word tail} hm heq := by
    simp only [List.cons.injEq, Operand.op.injEq] at heq
    rw [← heq.1]
    cases m <;> rfl
  compare hrank := absurd hrank (by decide)
  power hrank := absurd hrank (by decide)

/-- Where a chain stops, so do the operands of its links. -/
theorem stops_links {rest : List Operand} (h : Stops .comparison rest) (links : List Link) :
    Stops .bitOr (links.flatMap Link.operands ++ rest) := by
  cases links with
  | nil => exact h.tighten (by decide)
  | cons link links =>
    simpa [Link.operands] using stops_compare link.1 _

/-! ## How a sentence begins -/

/-- A sentence is not empty. It begins with `not` only at the loosest levels, and with a unary
operator only if it is looser than a power. -/
theorem Reads.head {l : Level} {xs : List Operand} {e : Expr} (h : Reads l xs e) :
    ∃ first tail, xs = first :: tail ∧ (Level.not.rank < l.rank → first ≠ .op "not") ∧
      (Level.factor.rank < l.rank → ∀ op : UnaryOp, first ≠ .op op.symbol) := by
  induction h with
  | tighter hl _ ih =>
    obtain ⟨first, tail, rfl, hnot, hunary⟩ := ih
    have hrank := Level.rank_tighter hl
    exact ⟨first, tail, rfl, fun h => hnot (by omega), fun h => hunary (by omega)⟩
  | or _ _ ih =>
    obtain ⟨first, tail, rfl, hnot, hunary⟩ := ih
    exact ⟨first, _, rfl, hnot, hunary⟩
  | and _ _ ih =>
    obtain ⟨first, tail, rfl, hnot, hunary⟩ := ih
    exact ⟨first, _, rfl, hnot, hunary⟩
  | not => exact ⟨_, _, rfl, fun h => absurd h (by decide), fun h => absurd h (by decide)⟩
  | compare _ _ _ _ _ ih =>
    obtain ⟨first, tail, rfl, hnot, hunary⟩ := ih
    exact ⟨first, _, rfl, fun _ => hnot (by decide), fun h => absurd h (by decide)⟩
  | binary op hl _ _ ih =>
    obtain ⟨first, tail, rfl, hnot, hunary⟩ := ih
    have hrank := op.rank_le_leftLevel
    rw [hl] at hrank
    exact ⟨first, _, rfl, fun h => hnot (by omega), fun h => hunary (by omega)⟩
  | unary op =>
    refine ⟨_, _, rfl, fun _ => ?_, fun h => absurd h (by decide)⟩
    cases op <;> simp [UnaryOp.symbol]
  | value => exact ⟨_, _, rfl, by simp, by simp⟩
  | constTrue | constFalse | constNone | parens =>
    refine ⟨_, _, rfl, by simp, fun _ op => ?_⟩
    cases op <;> simp [UnaryOp.symbol]

/-- A comparison operator is found at the front unless a `not` follows it. -/
theorem takeCompareOp?_operands (op : CompareOp) {rest : List Operand}
    (h : ∀ tail, rest ≠ .op "not" :: tail) :
    takeCompareOp? (op.operands ++ rest) = some (op, rest) := by
  cases op
  case is =>
    rcases rest with _ | ⟨⟨word⟩ | v, tail⟩
    · rfl
    · have hword : word ≠ "not" := fun hword => h tail (by rw [hword])
      simp [CompareOp.operands, CompareOp.words, takeCompareOp?, compareOp?, hword]
    · rfl
  all_goals
    simp [CompareOp.operands, CompareOp.words, takeCompareOp?, compareOp?]

/-! ## Every sentence is read -/

/-- A depth that is enough to read operands at a level. An operand costs at most sixteen calls, of
which at most thirteen go down through the levels. -/
def Deep (depth : Nat) (l : Level) (xs : List Operand) : Prop :=
  16 * xs.length + 13 ≤ depth + l.rank

/-- Such a depth allows a call. -/
theorem Deep.exists_succ {depth : Nat} {l : Level} {xs : List Operand} (h : Deep depth l xs) :
    ∃ n, depth = n + 1 := by
  have hrank : l.rank ≤ 12 := l.rank_le_atom
  unfold Deep at h
  exact Nat.exists_eq_succ_of_ne_zero (by omega)

/-- A call may go down one level. -/
theorem Deep.tighter {n : Nat} {l : Level} {xs : List Operand} (h : Deep (n + 1) l xs)
    (hl : l ≠ .atom) : Deep n l.tighter xs := by
  have hrank := Level.rank_tighter hl
  unfold Deep at h ⊢
  omega

/-- Fewer operands need no more depth. -/
theorem Deep.mono {n : Nat} {l : Level} {xs ys : List Operand} (h : Deep n l xs)
    (hle : ys.length ≤ xs.length) : Deep n l ys := by
  unfold Deep at h ⊢
  omega

/-- A call may go to any level with fewer operands. -/
theorem Deep.shorter {n : Nat} {l : Level} {xs ys : List Operand} (h : Deep (n + 1) l xs)
    (m : Level) (hlt : ys.length < xs.length) : Deep n m ys := by
  have hrank : l.rank ≤ 12 := l.rank_le_atom
  unfold Deep at h ⊢
  omega

/-- The operands are read as the expression, whatever stands behind them. -/
def ReadBack (l : Level) (xs : List Operand) (e : Expr) : Prop :=
  ∀ depth rest, Stops l rest → Deep depth l xs → parseLevel depth l (xs ++ rest) = .ok (e, rest)

/-! ### Levels that group to the left -/

/-- The operands are read as the expression at the left of what may follow at the level. The depth
goes down by no more than one call for each operand. -/
def GroupedBack (l : Level) (xs : List Operand) (e : Expr) : Prop :=
  ∀ depth rest, Stops l.tighter rest → Deep depth l xs →
    ∃ depth', depth ≤ depth' + xs.length ∧
      parseLevel depth l (xs ++ rest) = parseJoins depth' l e rest

/-- Nothing more is read where the sentence stops. -/
theorem parseJoins_stops {l : Level} {rest : List Operand} (h : Stops l rest) (depth : Nat)
    (e : Expr) : parseJoins (depth + 1) l e rest = .ok (e, rest) := by
  rcases rest with _ | ⟨⟨word⟩ | v, tail⟩
  · rfl
  · rw [parseJoins, h.join (Nat.le_refl _) rfl]
  · rfl

/-- What is read at the left is all that is read where the sentence stops. -/
theorem GroupedBack.readBack {l : Level} {xs : List Operand} {e : Expr} (h : GroupedBack l xs e) :
    ReadBack l xs e := by
  intro depth rest hstops hdeep
  obtain ⟨depth', hle, hparse⟩ := h depth rest (hstops.tighten l.rank_le_tighter) hdeep
  have hrank : l.rank ≤ 12 := l.rank_le_atom
  unfold Deep at hdeep
  obtain ⟨n, rfl⟩ : ∃ n, depth' = n + 1 := Nat.exists_eq_succ_of_ne_zero (by omega)
  rw [hparse, parseJoins_stops hstops]

/-- What is read back at the next level is read back at the left of this one. -/
theorem ReadBack.grouped {l : Level} {xs : List Operand} {e : Expr} (hl : l.groups = true)
    (hxs : xs ≠ []) (h : ReadBack l.tighter xs e) : GroupedBack l xs e := by
  intro depth rest hstops hdeep
  obtain ⟨n, rfl⟩ := hdeep.exists_succ
  have hlength := List.length_pos_iff.2 hxs
  have hparse := h n rest hstops (hdeep.tighter (Level.ne_atom_of_groups hl))
  refine ⟨n, by omega, ?_⟩
  rw [parseLevel_groups hl, hparse]

/-- A joining operator between operands that are read back makes operands that are read back. -/
theorem GroupedBack.join {l : Level} {word : String} {join : Expr → Expr → Expr}
    (hjoin : l.join? word = some join) {xs ys : List Operand} {a b : Expr}
    (left : GroupedBack l xs a) (right : ReadBack l.tighter ys b) :
    GroupedBack l (xs ++ .op word :: ys) (join a b) := by
  intro depth rest hstops hdeep
  have hrank : l.rank ≤ 12 := l.rank_le_atom
  simp only [Deep, List.length_append, List.length_cons] at hdeep ⊢
  -- What is left of the depth after the left operand is still enough for the right one, because
  -- each operand has sixteen calls and takes one.
  obtain ⟨depth', hle, hparse⟩ :=
    left depth (.op word :: (ys ++ rest)) (stops_join hjoin _) (by unfold Deep; omega)
  obtain ⟨n, rfl⟩ : ∃ n, depth' = n + 1 := Nat.exists_eq_succ_of_ne_zero (by omega)
  refine ⟨n, by omega, ?_⟩
  have hright := right n rest hstops (by unfold Deep; omega)
  rw [List.append_assoc, List.cons_append, hparse, parseJoins, hjoin]
  simp only [hright]

/-! ### The other levels -/

section Levels

variable {xs ys : List Operand} {a b e : Expr}

/-- The links of a chain are read back. -/
theorem parseLinks_readBack {rest : List Operand} (hstops : Stops .comparison rest)
    (first : Expr) (more : List Link)
    (h : ∀ link ∈ more, Reads .bitOr link.2.1 link.2.2 ∧ ReadBack .bitOr link.2.1 link.2.2)
    (depth : Nat) (links : List (CompareOp × Expr))
    (hdeep : Deep depth .bitOr (more.flatMap Link.operands)) :
    parseLinks depth first links (more.flatMap Link.operands ++ rest) =
      .ok (.chain first (links ++ more.map Link.read), rest) := by
  induction more generalizing depth links with
  | nil =>
    obtain ⟨n, rfl⟩ := hdeep.exists_succ
    rw [parseLinks, List.flatMap_nil, List.nil_append, hstops.compare (by decide)]
    simp
  | cons link more ih =>
    obtain ⟨op, ys, b⟩ := link
    obtain ⟨hreads, hback⟩ := h (op, ys, b) (by simp)
    obtain ⟨n, rfl⟩ := hdeep.exists_succ
    have hop : 1 ≤ op.operands.length := by cases op <;> decide
    -- The operator is not taken for another one, because no `not` begins its right operand.
    have htake : takeCompareOp? (op.operands ++ (ys ++ (more.flatMap Link.operands ++ rest))) =
        some (op, ys ++ (more.flatMap Link.operands ++ rest)) := by
      refine takeCompareOp?_operands op fun tail heq => ?_
      obtain ⟨head, tail', rfl, hnot, -⟩ := hreads.head
      simp only [List.cons_append, List.cons.injEq] at heq
      exact hnot (by decide) heq.1
    have hright := hback n _ (stops_links hstops more) (hdeep.shorter _ (by
      simp only [List.flatMap_cons, Link.operands, List.length_append]
      omega))
    have hmore := ih (fun link hlink => h link (by simp [hlink])) n (links ++ [(op, b)])
      (hdeep.shorter _ (by
        simp only [List.flatMap_cons, Link.operands, List.length_append]
        omega))
    rw [parseLinks, List.flatMap_cons, Link.operands, List.append_assoc, List.append_assoc, htake]
    simp only [hright, hmore]
    simp [Link.read]

/-- A comparison chain is read back. -/
theorem ReadBack.chain (first : ReadBack .bitOr xs a) (links : List Link)
    (h : ∀ link ∈ links, Reads .bitOr link.2.1 link.2.2 ∧ ReadBack .bitOr link.2.1 link.2.2)
    (hxs : xs ≠ []) :
    ReadBack .comparison (xs ++ links.flatMap Link.operands)
      (.chain a (links.map Link.read)) := by
  intro depth rest hstops hdeep
  obtain ⟨n, rfl⟩ := hdeep.exists_succ
  have hlength := List.length_pos_iff.2 hxs
  have hnext : Deep n .bitOr (xs ++ links.flatMap Link.operands) := hdeep.tighter (by decide)
  have hfirst := first n _ (stops_links hstops links) (hnext.mono (by simp))
  have hlinks := parseLinks_readBack hstops a links h n [] (hdeep.shorter _ (by
    rw [List.length_append]
    omega))
  rw [List.append_assoc, parseLevel, hfirst]
  exact hlinks

/-- What is read back as a comparison is read back as a negation, unless it begins with `not`. -/
theorem ReadBack.not_of_comparison (h : ReadBack .comparison xs e)
    (hnot : ∀ tail, xs ≠ .op "not" :: tail) (hxs : xs ≠ []) : ReadBack .not xs e := by
  intro depth rest hstops hdeep
  obtain ⟨n, rfl⟩ := hdeep.exists_succ
  have hinner := h n rest (hstops.tighten (by decide)) (hdeep.tighter (by decide))
  obtain ⟨first, tail, rfl⟩ := List.exists_cons_of_ne_nil hxs
  unfold parseLevel
  split
  · rename_i heq
    simp only [List.cons_append, List.cons.injEq] at heq
    exact absurd (by rw [heq.1]) (hnot tail)
  · exact hinner

/-- A negation is read back. -/
theorem ReadBack.not (h : ReadBack .not xs a) : ReadBack .not (.op "not" :: xs) (.not a) := by
  intro depth rest hstops hdeep
  obtain ⟨n, rfl⟩ := hdeep.exists_succ
  have hinner := h n rest hstops (hdeep.shorter _ (by simp))
  rw [List.cons_append, parseLevel, hinner]
  rfl

/-- What is read back as a power is read back as a unary operand, unless it begins with a unary
operator. -/
theorem ReadBack.factor_of_power (h : ReadBack .power xs e)
    (hunary : ∀ (op : UnaryOp) tail, xs ≠ .op op.symbol :: tail) (hxs : xs ≠ []) :
    ReadBack .factor xs e := by
  intro depth rest hstops hdeep
  obtain ⟨n, rfl⟩ := hdeep.exists_succ
  have hinner := h n rest (hstops.tighten (by decide)) (hdeep.tighter (by decide))
  obtain ⟨first, tail, rfl⟩ := List.exists_cons_of_ne_nil hxs
  unfold parseLevel
  split
  · rename_i word rest' heq
    simp only [List.cons_append, List.cons.injEq] at heq
    cases hop : unaryOp? word with
    | none => exact hinner
    | some op => exact absurd (by rw [heq.1, unaryOp?_eq_some_iff.1 hop]) (hunary op tail)
  · exact hinner

/-- A unary operator is read back. -/
theorem ReadBack.unary (op : UnaryOp) (h : ReadBack .factor xs a) :
    ReadBack .factor (.op op.symbol :: xs) (.unary op a) := by
  intro depth rest hstops hdeep
  obtain ⟨n, rfl⟩ := hdeep.exists_succ
  have hinner := h n rest hstops (hdeep.shorter _ (by simp))
  rw [List.cons_append, parseLevel, unaryOp?_eq_some_iff.2 rfl]
  simp only [hinner]
  rfl

/-- What is read back as an atom is read back as a power. -/
theorem ReadBack.power_of_atom (h : ReadBack .atom xs e) : ReadBack .power xs e := by
  intro depth rest hstops hdeep
  obtain ⟨n, rfl⟩ := hdeep.exists_succ
  have hinner := h n rest (hstops.tighten (by decide)) (hdeep.tighter (by decide))
  rw [parseLevel, hinner]
  split
  · rename_i base rest' heq
    simp only [Except.ok.injEq, Prod.mk.injEq] at heq
    exact absurd heq.2 (hstops.power (by decide) rest')
  · rfl

/-- A power is read back. -/
theorem ReadBack.power (base : ReadBack .atom xs a) (exponent : ReadBack .factor ys b) :
    ReadBack .power (xs ++ .op "**" :: ys) (.binary .pow a b) := by
  intro depth rest hstops hdeep
  obtain ⟨n, rfl⟩ := hdeep.exists_succ
  have hbase := base n (.op "**" :: (ys ++ rest)) (stops_power _) (hdeep.shorter _ (by simp))
  have hexponent := exponent n rest hstops.factor (hdeep.shorter _ (by
    rw [List.length_append, List.length_cons]
    omega))
  rw [List.append_assoc, List.cons_append, parseLevel, hbase]
  simp only [hexponent]
  rfl

/-- An expression in parentheses is read back. -/
theorem ReadBack.parens (h : ReadBack .or xs e) :
    ReadBack .atom (.op "(" :: xs ++ [.op ")"]) e := by
  intro depth rest hstops hdeep
  obtain ⟨n, rfl⟩ := hdeep.exists_succ
  have hinner := h n (.op ")" :: rest) (stops_close _ _) (hdeep.shorter _ (by
    simp only [List.length_append, List.length_cons, List.length_nil]
    omega))
  have hsource : .op "(" :: xs ++ [.op ")"] ++ rest = .op "(" :: (xs ++ .op ")" :: rest) := by
    simp
  rw [hsource, parseLevel, hinner]
  rfl

end Levels

/-- What is read back at the next level is read back at this one. -/
theorem ReadBack.of_tighter {l : Level} {xs : List Operand} {e : Expr} (hl : l ≠ .atom)
    (hreads : Reads l.tighter xs e) (h : ReadBack l.tighter xs e) : ReadBack l xs e := by
  obtain ⟨first, tail, rfl, hnot, hunary⟩ := hreads.head
  rcases l.groups_or with hgroups | rfl | rfl | rfl | rfl | rfl
  · exact (h.grouped hgroups (by simp)).readBack
  · refine h.not_of_comparison (fun tail' heq => ?_) (by simp)
    exact hnot (by decide) (List.cons.inj heq).1
  · simpa [Expr.chain] using ReadBack.chain h [] (by simp) (by simp)
  · refine h.factor_of_power (fun op tail' heq => ?_) (by simp)
    exact hunary (by decide) op (List.cons.inj heq).1
  · exact h.power_of_atom
  · contradiction

/-- A sentence is read back as its expression, at the left of others if its level groups. -/
theorem Reads.readBack {l : Level} {xs : List Operand} {e : Expr} (h : Reads l xs e) :
    ReadBack l xs e ∧ (l.groups = true → GroupedBack l xs e) := by
  induction h with
  | tighter hl inner ih =>
    obtain ⟨first, tail, rfl, -⟩ := inner.head
    exact ⟨ih.1.of_tighter hl inner, fun hgroups => ih.1.grouped hgroups (by simp)⟩
  | or _ _ ihLeft ihRight =>
    have hjoin : Level.or.join? "or" = some .or := rfl
    have hgrouped := (ihLeft.2 rfl).join hjoin ihRight.1
    exact ⟨hgrouped.readBack, fun _ => hgrouped⟩
  | and _ _ ihLeft ihRight =>
    have hjoin : Level.and.join? "and" = some .and := rfl
    have hgrouped := (ihLeft.2 rfl).join hjoin ihRight.1
    exact ⟨hgrouped.readBack, fun _ => hgrouped⟩
  | not _ ih => exact ⟨ih.1.not, fun h => by simp [Level.groups] at h⟩
  | @compare xs ys a b op links first second rest ihFirst ihSecond ihRest =>
    refine ⟨?_, fun h => by simp [Level.groups] at h⟩
    obtain ⟨_, _, hxs, -⟩ := first.head
    have hchain := ihFirst.1.chain ((op, ys, b) :: links) (fun link hlink => by
      rcases List.mem_cons.1 hlink with rfl | htail
      · exact ⟨second, ihSecond.1⟩
      · exact ⟨rest link htail, (ihRest link htail).1⟩) (by simp [hxs])
    simpa [Link.operands, Link.read, Expr.chain] using hchain
  | @binary l xs ys a b op hl left right ihLeft ihRight =>
    subst hl
    -- Only `**` does not group to the left.
    by_cases hpow : op = .pow
    · subst hpow
      exact ⟨ihLeft.1.power ihRight.1, fun h => by simp [BinaryOp.level, Level.groups] at h⟩
    · rw [BinaryOp.leftLevel_of_ne hpow] at ihLeft
      rw [BinaryOp.rightLevel_of_ne hpow] at ihRight
      have hjoin := BinaryOp.join?_symbol hpow
      have hgrouped := (ihLeft.2 (Level.groups_of_join? hjoin)).join hjoin ihRight.1
      exact ⟨hgrouped.readBack, fun _ => hgrouped⟩
  | unary op _ ih => exact ⟨ih.1.unary op, fun h => by simp [Level.groups] at h⟩
  | value | constTrue | constFalse | constNone =>
    refine ⟨fun depth rest hstops hdeep => ?_, fun h => by simp [Level.groups] at h⟩
    obtain ⟨n, rfl⟩ := hdeep.exists_succ
    rfl
  | parens _ ih => exact ⟨ih.1.parens, fun h => by simp [Level.groups] at h⟩

/-! ## Reading and printing -/

/-- Operands are read as an expression exactly if they are a sentence for it. -/
theorem parse_eq_ok_iff {operands : List Operand} {e : Expr} :
    parse operands = .ok e ↔ Reads .or operands e := by
  constructor
  · intro h
    unfold parse at h
    split at h
    · simp at h
    · split at h
      · simp at h
      · rename_i hparse
        cases h
        obtain ⟨xs, rfl, hxs⟩ := parseLevel_sound _ hparse
        rwa [List.append_nil]
      · simp at h
  · intro h
    have hparse := h.readBack.1 (16 * (operands.length + 1)) [] (stops_nil _)
      (by simp only [Deep, Level.rank]; omega)
    rw [List.append_nil] at hparse
    obtain ⟨first, tail, rfl, -⟩ := h.head
    rw [parse, if_neg (by simp), hparse]

/-- Operands that are no sentence fail before anything is evaluated. -/
theorem parse_eq_error {operands : List Operand} (h : ∀ e, ¬Reads .or operands e) :
    ∃ error, parse operands = .error error := by
  cases hparse : parse operands with
  | error error => exact ⟨error, rfl⟩
  | ok e => exact absurd (parse_eq_ok_iff.1 hparse) (h e)

/-- The value of a sentence, of whatever level, is that of its expression. -/
theorem Reads.evaluate {l : Level} {operands : List Operand} {e : Expr} (h : Reads l operands e) :
    evaluate operands = eval e := by
  rw [Condition.evaluate, parse_eq_ok_iff.2 (h.loosen (Nat.zero_le _))]
  rfl

/-- Operands get past the reader if and only if the grammar derives them (`Reads`), and then they
have the value of the derived expression; all others fail as the reader does. An expression that is
printed has its own value, and no operands for the expression are fewer than the printed ones. -/
theorem evaluate_by_precedence :
    (∀ operands e, parse operands = .ok e ↔ Reads .or operands e) ∧
      (∀ operands e, Reads .or operands e → evaluate operands = eval e) ∧
      (∀ operands, (∀ e, ¬Reads .or operands e) →
        ∃ error, parse operands = .error error ∧ evaluate operands = .error error) ∧
      ∀ e : Expr, evaluate (e.print .or) = eval e ∧
        ∀ operands, Reads .or operands e → (e.print .or).length ≤ operands.length := by
  refine ⟨fun _ _ => parse_eq_ok_iff, fun _ _ => Reads.evaluate, fun operands h => ?_, fun e => ?_⟩
  · obtain ⟨error, hparse⟩ := parse_eq_error h
    refine ⟨error, hparse, ?_⟩
    rw [evaluate, hparse]
    rfl
  · exact ⟨(e.reads_print .or).evaluate, fun _ => Reads.length_print_le⟩

end Stencil.Condition
