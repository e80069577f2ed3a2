import Stencil.Condition.Eval

/-!
# The grammar of conditions

`Reads` derives which operands read as which expression, level by level, without looking at the
tables of the reader. `Expr.print` writes an expression back as operands, with parentheses around
an operand only if its own level is looser than its place asks for. What it writes reads as the
expression, and nothing shorter does.
-/

namespace Stencil.Condition

/-! ## Levels and operators -/

/-- How tight a level is. -/
def Level.rank : Level → Nat
  | .or => 0
  | .and => 1
  | .not => 2
  | .comparison => 3
  | .bitOr => 4
  | .bitXor => 5
  | .bitAnd => 6
  | .shift => 7
  | .sum => 8
  | .term => 9
  | .factor => 10
  | .power => 11
  | .atom => 12

/-- A level is determined by its rank. -/
theorem Level.rank_injective {l m : Level} (h : l.rank = m.rank) : l = m := by
  cases l <;> cases m <;> first | rfl | simp [rank] at h

/-- Nothing is tighter than an atom. -/
theorem Level.rank_le_atom (l : Level) : l.rank ≤ Level.atom.rank := by
  cases l <;> decide

/-- The next level is one rank tighter. -/
theorem Level.rank_tighter {l : Level} (h : l ≠ .atom) : l.tighter.rank = l.rank + 1 := by
  cases l <;> first | rfl | contradiction

/-- The next level is not looser. -/
theorem Level.rank_le_tighter (l : Level) : l.rank ≤ l.tighter.rank := by
  cases l <;> decide

/-- The level of a binary operator. -/
def BinaryOp.level : BinaryOp → Level
  | .bitOr => .bitOr
  | .bitXor => .bitXor
  | .bitAnd => .bitAnd
  | .shiftLeft | .shiftRight => .shift
  | .add | .sub => .sum
  | .mul | .div | .floorDiv | .mod => .term
  | .pow => .power

/-- The level of the left operand: operators group to the left, except `**`, which is tighter than
a unary operator on its left. -/
def BinaryOp.leftLevel : BinaryOp → Level
  | .pow => .atom
  | op => op.level

/-- The level of the right operand, which is unary for `**`. -/
def BinaryOp.rightLevel : BinaryOp → Level
  | .pow => .factor
  | op => op.level.tighter

/-- A left operand is at least as tight as the operator. -/
theorem BinaryOp.rank_le_leftLevel (op : BinaryOp) : op.level.rank ≤ op.leftLevel.rank := by
  cases op <;> decide

/-- The operands that a comparison operator is written as. -/
def CompareOp.operands (op : CompareOp) : List Operand :=
  op.words.map .op

/-! ## Sentences -/

/-- A link of a comparison chain: its operator, the operands on its right, and the expression that
they read as. -/
abbrev Link := CompareOp × List Operand × Expr

/-- The operands of a link. -/
def Link.operands (link : Link) : List Operand :=
  link.1.operands ++ link.2.1

/-- The link of the expression. -/
def Link.read (link : Link) : CompareOp × Expr :=
  (link.1, link.2.2)

/-- `Reads l operands e` says that the operands are a sentence of level `l` and that `e` is the
expression it stands for. -/
inductive Reads : Level → List Operand → Expr → Prop where
  /-- A sentence of the next level. -/
  | tighter {l : Level} {xs : List Operand} {e : Expr} (hl : l ≠ .atom)
      (inner : Reads l.tighter xs e) : Reads l xs e
  /-- A list of `or`, which groups to the left. -/
  | or {xs ys : List Operand} {a b : Expr} (left : Reads .or xs a) (right : Reads .and ys b) :
      Reads .or (xs ++ .op "or" :: ys) (.or a b)
  /-- A list of `and`, which groups to the left. -/
  | and {xs ys : List Operand} {a b : Expr} (left : Reads .and xs a) (right : Reads .not ys b) :
      Reads .and (xs ++ .op "and" :: ys) (.and a b)
  /-- A negation. -/
  | not {xs : List Operand} {a : Expr} (inner : Reads .not xs a) :
      Reads .not (.op "not" :: xs) (.not a)
  /-- A chain of comparisons, which is flat. -/
  | compare {xs ys : List Operand} {a b : Expr} (op : CompareOp) (links : List Link)
      (first : Reads .bitOr xs a) (second : Reads .bitOr ys b)
      (rest : ∀ link ∈ links, Reads .bitOr link.2.1 link.2.2) :
      Reads .comparison (xs ++ op.operands ++ ys ++ links.flatMap Link.operands)
        (.compare a op b (links.map Link.read))
  /-- A binary operator between operands of its own two levels. -/
  | binary {l : Level} {xs ys : List Operand} {a b : Expr} (op : BinaryOp) (hl : op.level = l)
      (left : Reads op.leftLevel xs a) (right : Reads op.rightLevel ys b) :
      Reads l (xs ++ .op op.symbol :: ys) (.binary op a b)
  /-- A unary operator. -/
  | unary {xs : List Operand} {a : Expr} (op : UnaryOp) (inner : Reads .factor xs a) :
      Reads .factor (.op op.symbol :: xs) (.unary op a)
  /-- A value. -/
  | value (v : Value) : Reads .atom [.value v] (.value v)
  /-- The constant `True`. -/
  | constTrue : Reads .atom [.op "True"] (.value (.bool true))
  /-- The constant `False`. -/
  | constFalse : Reads .atom [.op "False"] (.value (.bool false))
  /-- The constant `None`. -/
  | constNone : Reads .atom [.op "None"] (.value .null)
  /-- An expression in parentheses. -/
  | parens {xs : List Operand} {e : Expr} (inner : Reads .or xs e) :
      Reads .atom (.op "(" :: xs ++ [.op ")"]) e

/-- A sentence of a level is one of every looser level. -/
theorem Reads.loosen {l m : Level} {xs : List Operand} {e : Expr} (h : Reads m xs e)
    (hl : l.rank ≤ m.rank) : Reads l xs e := by
  -- The induction is on the number of levels between the two.
  obtain ⟨n, hn⟩ := Nat.exists_eq_add_of_le hl
  induction n generalizing l with
  | zero => rwa [Level.rank_injective hn.symm]
  | succ n ih =>
    have hatom : l ≠ .atom := by
      rintro rfl
      have := m.rank_le_atom
      omega
    have hrank := Level.rank_tighter hatom
    exact .tighter hatom (ih (by omega) (by omega))

/-- A value is a sentence of every level. -/
theorem Reads.ofValue (l : Level) (v : Value) : Reads l [.value v] (.value v) :=
  (Reads.value v).loosen l.rank_le_atom

/-! ## Printing -/

/-- The operands of an expression of the level `own` where one of the level `wanted` is asked
for. -/
def enclose (wanted own : Level) (operands : List Operand) : List Operand :=
  if own.rank < wanted.rank then .op "(" :: operands ++ [.op ")"] else operands

/-- The loosest level at which an expression needs no parentheses is that of its operator. -/
def Expr.level : Expr → Level
  | .value _ => .atom
  | .not _ => .not
  | .and _ _ => .and
  | .or _ _ => .or
  | .unary _ _ => .factor
  | .binary op _ _ => op.level
  | .compare _ _ _ _ => .comparison

mutual

/-- An expression as operands, without parentheses around it. -/
def Expr.operands : Expr → List Operand
  | .value v => [.value v]
  | .not inner => .op "not" :: enclose .not inner.level inner.operands
  | .and left right =>
    enclose .and left.level left.operands ++ .op "and" ::
      enclose .not right.level right.operands
  | .or left right =>
    enclose .or left.level left.operands ++ .op "or" ::
      enclose .and right.level right.operands
  | .unary op inner => .op op.symbol :: enclose .factor inner.level inner.operands
  | .binary op left right =>
    enclose op.leftLevel left.level left.operands ++ .op op.symbol ::
      enclose op.rightLevel right.level right.operands
  | .compare first op second links =>
    enclose .bitOr first.level first.operands ++ op.operands ++
      enclose .bitOr second.level second.operands ++ linkOperands links

/-- The links of a comparison chain as operands. -/
def linkOperands : List (CompareOp × Expr) → List Operand
  | [] => []
  | (op, expr) :: links =>
    op.operands ++ enclose .bitOr expr.level expr.operands ++ linkOperands links

end

/-- An expression as operands where one of the level `wanted` is asked for: in parentheses if its
own level is looser. -/
def Expr.print (wanted : Level) (e : Expr) : List Operand :=
  enclose wanted e.level e.operands

section Printing

variable (a b : Expr) (links : List (CompareOp × Expr))

@[simp]
theorem Expr.operands_not : (Expr.not a).operands = .op "not" :: a.print .not := rfl

@[simp]
theorem Expr.operands_and :
    (Expr.and a b).operands = a.print .and ++ .op "and" :: b.print .not := rfl

@[simp]
theorem Expr.operands_or :
    (Expr.or a b).operands = a.print .or ++ .op "or" :: b.print .and := rfl

@[simp]
theorem Expr.operands_unary (op : UnaryOp) :
    (Expr.unary op a).operands = .op op.symbol :: a.print .factor := rfl

@[simp]
theorem Expr.operands_binary (op : BinaryOp) :
    (Expr.binary op a b).operands =
      a.print op.leftLevel ++ .op op.symbol :: b.print op.rightLevel := rfl

@[simp]
theorem Expr.operands_compare (op : CompareOp) :
    (Expr.compare a op b links).operands =
      a.print .bitOr ++ op.operands ++ b.print .bitOr ++ linkOperands links := rfl

@[simp]
theorem linkOperands_cons (op : CompareOp) :
    linkOperands ((op, a) :: links) = op.operands ++ a.print .bitOr ++ linkOperands links := rfl

end Printing

/-- The printed links of a chain stand one after the other. -/
theorem linkOperands_eq_flatMap (links : List (CompareOp × Expr)) :
    linkOperands links =
      (links.map fun link => (link.1, link.2.print .bitOr, link.2)).flatMap Link.operands := by
  induction links with
  | nil => rfl
  | cons link links ih =>
    rw [linkOperands_cons, ih]
    rfl

/-! ## Printing reads back -/

/-- Operands that read at the level of an expression read, in parentheses if need be, at every
level. -/
theorem Reads.enclose {l m : Level} {xs : List Operand} {e : Expr} (h : Reads m xs e) :
    Reads l (enclose l m xs) e := by
  unfold Condition.enclose
  split
  · exact (Reads.parens (h.loosen (Nat.zero_le _))).loosen l.rank_le_atom
  · exact h.loosen (by omega)

mutual

/-- What an expression is printed as reads as the expression. -/
theorem Expr.reads_operands : (e : Expr) → Reads e.level e.operands e
  | .value v => .value v
  | .not inner => .not inner.reads_operands.enclose
  | .and left right => .and left.reads_operands.enclose right.reads_operands.enclose
  | .or left right => .or left.reads_operands.enclose right.reads_operands.enclose
  | .unary op inner => .unary op inner.reads_operands.enclose
  | .binary op left right =>
    .binary op rfl left.reads_operands.enclose right.reads_operands.enclose
  | .compare first op second links => by
    have hread := Reads.compare op (links.map fun link => (link.1, link.2.print .bitOr, link.2))
      first.reads_operands.enclose second.reads_operands.enclose (by
        intro link hlink
        obtain ⟨source, hsource, rfl⟩ := List.mem_map.1 hlink
        exact reads_links links source hsource)
    rw [← linkOperands_eq_flatMap, List.map_map] at hread
    have hmap :
        links.map (Link.read ∘ fun link => (link.1, link.2.print .bitOr, link.2)) = links :=
      List.map_id _
    rwa [hmap] at hread

/-- So do the links of a comparison chain. -/
theorem reads_links : (links : List (CompareOp × Expr)) →
    ∀ link ∈ links, Reads .bitOr (link.2.print .bitOr) link.2
  | [] => by simp
  | (_, expr) :: links => by
    intro link hlink
    rcases List.mem_cons.1 hlink with rfl | htail
    · exact expr.reads_operands.enclose
    · exact reads_links links link htail

end

/-- What an expression is printed as for a level reads as the expression at that level. -/
theorem Expr.reads_print (l : Level) (e : Expr) : Reads l (e.print l) e :=
  e.reads_operands.enclose

example (v : Value) :
    (Expr.binary .pow (.unary .neg (.value v)) (.unary .neg (.value v))).print .or =
      [.op "(", .op "-", .value v, .op ")", .op "**", .op "-", .value v] := rfl

/-! ## No shorter operands -/

/-- A tighter level asks for at least as many operands. -/
theorem Expr.length_print_mono {l m : Level} (h : l.rank ≤ m.rank) (e : Expr) :
    (e.print l).length ≤ (e.print m).length := by
  unfold print enclose
  split <;> split <;> simp <;> omega

/-- At its own level and at looser ones an expression is printed without parentheses. -/
theorem Expr.print_of_rank_le {l : Level} {e : Expr} (h : l.rank ≤ e.level.rank) :
    e.print l = e.operands :=
  if_neg (Nat.not_lt.2 h)

/-- Parentheses are two operands. -/
theorem Expr.length_print_le (l : Level) (e : Expr) :
    (e.print l).length ≤ (e.print .or).length + 2 := by
  have hor : e.print .or = e.operands := Expr.print_of_rank_le (Nat.zero_le e.level.rank)
  rw [hor, print, enclose]
  split <;> simp

/-- The printed links of a chain are no longer than any operands that read as them. -/
theorem length_linkOperands_le {links : List Link}
    (h : ∀ link ∈ links, (link.2.2.print .bitOr).length ≤ link.2.1.length) :
    (linkOperands (links.map Link.read)).length ≤ (links.flatMap Link.operands).length := by
  induction links with
  | nil => simp [linkOperands]
  | cons link links ih =>
    have hlink := h link (by simp)
    have hlinks := ih fun other hother => h other (by simp [hother])
    rw [List.map_cons, Link.read, linkOperands_cons, List.flatMap_cons]
    simp only [Link.operands, List.length_append] at hlinks ⊢
    omega

/-- No operands that read as an expression are fewer than those it is printed as. -/
theorem Reads.length_print_le {l : Level} {xs : List Operand} {e : Expr} (h : Reads l xs e) :
    (e.print l).length ≤ xs.length := by
  induction h with
  | @tighter l xs e _ _ ih =>
    exact Nat.le_trans (Expr.length_print_mono l.rank_le_tighter e) ih
  | @or xs ys a b _ _ ihLeft ihRight =>
    rw [Expr.print_of_rank_le (l := .or) (e := .or a b) (Nat.le_refl _), Expr.operands_or]
    simp only [List.length_append, List.length_cons]
    omega
  | @and xs ys a b _ _ ihLeft ihRight =>
    rw [Expr.print_of_rank_le (l := .and) (e := .and a b) (Nat.le_refl _), Expr.operands_and]
    simp only [List.length_append, List.length_cons]
    omega
  | @not xs a _ ih =>
    rw [Expr.print_of_rank_le (l := .not) (e := .not a) (Nat.le_refl _), Expr.operands_not]
    simp only [List.length_cons]
    omega
  | @compare xs ys a b op links _ _ _ ihFirst ihSecond ihRest =>
    have hlinks := length_linkOperands_le ihRest
    rw [Expr.print_of_rank_le (l := .comparison) (e := .compare a op b _) (Nat.le_refl _),
      Expr.operands_compare]
    simp only [List.length_append]
    omega
  | @binary l xs ys a b op hl _ _ ihLeft ihRight =>
    have hrank : l.rank ≤ op.level.rank := Nat.le_of_eq (congrArg Level.rank hl.symm)
    rw [Expr.print_of_rank_le (e := .binary op a b) hrank, Expr.operands_binary]
    simp only [List.length_append, List.length_cons]
    omega
  | @unary xs a op _ ih =>
    rw [Expr.print_of_rank_le (l := .factor) (e := .unary op a) (Nat.le_refl _),
      Expr.operands_unary]
    simp only [List.length_cons]
    omega
  | value | constTrue | constFalse | constNone =>
    exact Nat.le_refl 1
  | @parens xs e _ ih =>
    have hle := e.length_print_le .atom
    simp only [List.length_append, List.length_cons, List.length_nil]
    omega

end Stencil.Condition
