import Stencil.Proofs.ConditionParser

/-!
# Chains of comparisons

A chain `a < b <= c` stands for the conjunction of its links, `a < b and b <= c`. The chain works
out every operand once and carries it to the next link, the conjunction works out the operands in
the middle twice; the first link that is not true decides both.
-/

namespace Stencil.Condition

/-- Whether the left side of a conjunction decides it: it fails, or its value does not count as
true. -/
def decides : Except Error Value → Bool
  | .ok v => !v.isTruthy
  | .error _ => true

/-! ## Links -/

/-- What a link gives on its own where the value on its left is known. -/
def linkValue (left : Value) (op : CompareOp) (b : Expr) : Except Error Value := do
  let right ← eval b
  let holds ← compare op left right
  .ok (.bool holds)

theorem linkValue_of_ok {b : Expr} {right : Value} (hb : eval b = .ok right) (left : Value)
    (op : CompareOp) : linkValue left op b = (compare op left right).map .bool := by
  rw [linkValue, hb]
  show (compare op left right >>= fun holds => .ok (Value.bool holds)) = _
  cases compare op left right <;> rfl

/-- The first link of a chain decides it, or it is true and the chain goes on from the value on its
right. -/
theorem link_cases (left : Value) (op : CompareOp) (b : Expr) :
    (decides (linkValue left op b) = true ∧
      ∀ links, evalLinks left ((op, b) :: links) = linkValue left op b) ∨
    ∃ right, eval b = .ok right ∧ linkValue left op b = .ok (.bool true) ∧
      ∀ links, evalLinks left ((op, b) :: links) = evalLinks right links := by
  simp only [linkValue, evalLinks]
  cases hright : eval b with
  | error e => exact .inl ⟨rfl, fun _ => rfl⟩
  | ok right =>
    simp only [bind, Except.bind]
    cases hholds : compare op left right with
    | error e => exact .inl ⟨rfl, fun _ => rfl⟩
    | ok holds =>
      cases holds with
      | false => exact .inl ⟨rfl, fun _ => rfl⟩
      | true => exact .inr ⟨right, rfl, rfl, fun _ => rfl⟩

/-- A chain of which the left end is known goes on with its first link. -/
theorem eval_compare {a : Expr} {left : Value} (ha : eval a = .ok left) (op : CompareOp) (b : Expr)
    (links : List (CompareOp × Expr)) :
    eval (.compare a op b links) = evalLinks left ((op, b) :: links) := by
  rw [eval, ha]
  rfl

theorem eval_compare_of_error {a : Expr} {e : Error} (ha : eval a = .error e) (op : CompareOp)
    (b : Expr) (links : List (CompareOp × Expr)) : eval (.compare a op b links) = .error e := by
  rw [eval, ha]
  rfl

/-- One link on its own. -/
theorem eval_link {a : Expr} {left : Value} (ha : eval a = .ok left) (op : CompareOp) (b : Expr) :
    eval (.compare a op b []) = linkValue left op b := by
  rw [eval_compare ha]
  obtain ⟨-, hlinks⟩ | ⟨right, -, hvalue, hlinks⟩ := link_cases left op b
  · exact hlinks []
  · rw [hlinks, hvalue]
    rfl

/-! ## Conjunctions -/

theorem eval_and_of_decides {a : Expr} (ha : decides (eval a) = true) (b : Expr) :
    eval (.and a b) = eval a := by
  rw [eval]
  cases hvalue : eval a with
  | error e => rfl
  | ok v =>
    rw [hvalue, decides, Bool.not_eq_true'] at ha
    show (if v.isTruthy then eval b else .ok v) = _
    rw [ha]
    rfl

/-- A true left side leaves the conjunction to its right side. -/
theorem eval_and_of_true {a : Expr} (ha : eval a = .ok (.bool true)) (b : Expr) :
    eval (.and a b) = eval b := by
  rw [eval, ha]
  rfl

/-- The conjunction of an expression with links, where `a` stands on the left of the first one. -/
def conjoin (e a : Expr) : List Link → Expr
  | [] => e
  | link :: links => conjoin (.and e (.compare a link.1 link.2.2 [])) link.2.2 links

theorem eval_conjoin_of_decides {e a : Expr} (he : decides (eval e) = true) (links : List Link) :
    eval (conjoin e a links) = eval e := by
  induction links generalizing e a with
  | nil => rfl
  | cons link links ih =>
    have hand := eval_and_of_decides he (.compare a link.1 link.2.2 [])
    rw [conjoin, ih (by rwa [hand]), hand]

/-- Behind what is true a conjunction of links is the chain of the links. -/
theorem eval_conjoin_of_true {e a : Expr} {left : Value} (he : eval e = .ok (.bool true))
    (ha : eval a = .ok left) (links : List Link) :
    eval (conjoin e a links) = evalLinks left (links.map Link.read) := by
  induction links generalizing e a left with
  | nil =>
    rw [conjoin, he]
    rfl
  | cons link links ih =>
    have hlink : eval (.and e (.compare a link.1 link.2.2 [])) =
        linkValue left link.1 link.2.2 := by
      rw [eval_and_of_true he, eval_link ha]
    rw [conjoin, List.map_cons, Link.read]
    obtain ⟨hdecides, hlinks⟩ | ⟨right, hright, hvalue, hlinks⟩ :=
      link_cases left link.1 link.2.2
    · rw [hlinks, eval_conjoin_of_decides (by rwa [hlink]), hlink]
    · rw [hlinks, ih (hlink.trans hvalue) hright]

/-- A chain has the value of the conjunction of its links. -/
theorem eval_chain (a : Expr) (op : CompareOp) (b : Expr) (links : List Link) :
    eval (.compare a op b (links.map Link.read)) = eval (conjoin (.compare a op b []) b links) := by
  cases hleft : eval a with
  | error e =>
    have hlink : eval (.compare a op b []) = .error e := eval_compare_of_error hleft op b []
    rw [eval_compare_of_error hleft, eval_conjoin_of_decides (by rw [hlink]; rfl), hlink]
  | ok left =>
    have hlink : eval (.compare a op b []) = linkValue left op b := eval_link hleft op b
    rw [eval_compare hleft]
    obtain ⟨hdecides, hlinks⟩ | ⟨right, hright, hvalue, hlinks⟩ := link_cases left op b
    · rw [hlinks, eval_conjoin_of_decides (by rwa [hlink]), hlink]
    · rw [hlinks, eval_conjoin_of_true (hlink.trans hvalue) hright]

/-! ## Operands -/

/-- The links of a chain as operands of their own: the operands on the right of a link stand again
on the left of the next one. -/
def linkSentences (xs : List Operand) : List Link → List (List Operand)
  | [] => []
  | link :: links => (xs ++ link.operands) :: linkSentences link.2.1 links

/-- Sentences joined by `and`. -/
def joinAnd (sentences : List (List Operand)) : List Operand :=
  [.op "and"].intercalate sentences

theorem joinAnd_append_cons (xs ys : List Operand) (sentences : List (List Operand)) :
    joinAnd ((xs ++ .op "and" :: ys) :: sentences) = joinAnd (xs :: ys :: sentences) := by
  cases sentences <;> simp [joinAnd, List.intercalate]

section Sentences

variable {xs zs : List Operand} {a e : Expr}

/-- One link is a sentence. -/
theorem Reads.link (first : Reads .bitOr xs a) {link : Link}
    (h : Reads .bitOr link.2.1 link.2.2) :
    Reads .comparison (xs ++ link.operands) (.compare a link.1 link.2.2 []) := by
  simpa [Link.operands] using Reads.compare link.1 [] first h (by simp)

/-- Links joined to a sentence make a sentence. -/
theorem Reads.conjoin (sentence : Reads .and zs e) (first : Reads .bitOr xs a) {links : List Link}
    (h : ∀ link ∈ links, Reads .bitOr link.2.1 link.2.2) :
    Reads .and (joinAnd (zs :: linkSentences xs links)) (conjoin e a links) := by
  induction links generalizing zs xs e a with
  | nil => simpa [joinAnd, List.intercalate, linkSentences, Condition.conjoin] using sentence
  | cons link links ih =>
    have hlink := h link (by simp)
    have hjoined := Reads.and sentence ((first.link hlink).loosen (by decide))
    rw [linkSentences, ← joinAnd_append_cons, Condition.conjoin]
    exact ih hjoined hlink fun other hother => h other (by simp [hother])

/-- What a link with its left operand evaluates to. -/
theorem Reads.evaluate_link (first : Reads .bitOr xs a) {left : Value} (ha : eval a = .ok left)
    (link : Link) (h : Reads .bitOr link.2.1 link.2.2) :
    Condition.evaluate (xs ++ link.operands) = Condition.linkValue left link.1 link.2.2 := by
  rw [(first.link h).evaluate, eval_link ha]

/-- Links have the value of the first one that decides. -/
theorem evalLinks_eq_find? {left : Value} (first : Reads .bitOr xs a) (ha : eval a = .ok left)
    {links : List Link} (h : ∀ link ∈ links, Reads .bitOr link.2.1 link.2.2) :
    evalLinks left (links.map Link.read) =
      (((linkSentences xs links).map evaluate).find? decides).getD (.ok (.bool true)) := by
  induction links generalizing xs a left with
  | nil => rfl
  | cons link links ih =>
    have hlink := h link (by simp)
    rw [linkSentences, List.map_cons, List.map_cons, Link.read, first.evaluate_link ha link hlink]
    obtain ⟨hdecides, hlinks⟩ | ⟨right, hright, hvalue, hlinks⟩ :=
      link_cases left link.1 link.2.2
    · rw [hlinks, List.find?_cons_of_pos hdecides]
      rfl
    · rw [hlinks, hvalue, List.find?_cons_of_neg (by decide),
        ih hlink hright fun other hother => h other (by simp [hother])]

end Sentences

/-- A chain of one link or more has the value of its links joined by `and`: that of the first link
which fails or is false, whatever comes behind it, and true if there is none. -/
theorem chain_eq_conjunction {xs : List Operand} {a : Expr} (first : Reads .bitOr xs a)
    {links : List Link} (hne : links ≠ [])
    (hlinks : ∀ link ∈ links, Reads .bitOr link.2.1 link.2.2) :
    evaluate (xs ++ links.flatMap Link.operands) = evaluate (joinAnd (linkSentences xs links)) ∧
      evaluate (xs ++ links.flatMap Link.operands) =
        (((linkSentences xs links).map evaluate).find? decides).getD (.ok (.bool true)) := by
  obtain ⟨link, links, rfl⟩ := List.exists_cons_of_ne_nil hne
  have hlink := hlinks link (by simp)
  have hrest : ∀ other ∈ links, Reads .bitOr other.2.1 other.2.2 :=
    fun other hother => hlinks other (by simp [hother])
  have hconjunction : Reads .and (joinAnd (linkSentences xs (link :: links)))
      (conjoin (.compare a link.1 link.2.2 []) link.2.2 links) :=
    ((first.link hlink).loosen (by decide)).conjoin hlink hrest
  rw [(first.chain hlinks).evaluate, hconjunction.evaluate, List.map_cons, Link.read, Expr.chain]
  refine ⟨eval_chain a link.1 link.2.2 links, ?_⟩
  cases hleft : eval a with
  | error e =>
    have hfirst : evaluate (xs ++ link.operands) = .error e := by
      rw [(first.link hlink).evaluate, eval_compare_of_error hleft]
    rw [eval_compare_of_error hleft, linkSentences, List.map_cons, hfirst]
    rfl
  | ok left =>
    rw [eval_compare hleft]
    exact evalLinks_eq_find? first hleft hlinks

/-- In `3 < 2 < 1 / 0` the false link hides the division, in `1 < 2 < 1 / 0` it is reached, as in
`1 < 2 and 2 < 1 / 0`. -/
theorem chain_eq_conjunction_division :
    evaluate [.value (.int 3), .op "<", .value (.int 2), .op "<", .value (.int 1), .op "/",
        .value (.int 0)] = .ok (.bool false) ∧
      evaluate [.value (.int 1), .op "<", .value (.int 2), .op "<", .value (.int 1), .op "/",
        .value (.int 0)] = .error .divisionByZero ∧
      evaluate [.value (.int 1), .op "<", .value (.int 2), .op "and", .value (.int 2), .op "<",
        .value (.int 1), .op "/", .value (.int 0)] = .error .divisionByZero := by
  have hint : ∀ n : Int, Reads .bitOr [.value (.int n)] (.value (.int n)) :=
    fun n => .ofValue .bitOr (.int n)
  have hquotient : Reads .bitOr [.value (.int 1), .op "/", .value (.int 0)]
      (.binary .div (.value (.int 1)) (.value (.int 0))) :=
    (Reads.binary .div rfl (.ofValue .term (.int 1)) (.ofValue .factor (.int 0))).loosen
      (by decide)
  have hlinks : ∀ link ∈ ([(.lt, [.value (.int 2)], .value (.int 2)),
      (.lt, [.value (.int 1), .op "/", .value (.int 0)],
        .binary .div (.value (.int 1)) (.value (.int 0)))] : List Link),
      Reads .bitOr link.2.1 link.2.2 := by
    simp [hint, hquotient]
  obtain ⟨-, hhidden⟩ := chain_eq_conjunction (hint 3) (List.cons_ne_nil _ _) hlinks
  obtain ⟨hsame, hreached⟩ := chain_eq_conjunction (hint 1) (List.cons_ne_nil _ _) hlinks
  exact ⟨hhidden.trans rfl, hreached.trans rfl, hsame.symm.trans (hreached.trans rfl)⟩

end Stencil.Condition
