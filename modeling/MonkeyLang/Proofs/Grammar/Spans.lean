import MonkeyLang.Proofs.Grammar.Joining
import MonkeyLang.Proofs.Session.Lines

namespace MonkeyLang

structure Lexeme.Bound (lexemes : List Lexeme) (place : Span) : Prop where
  start : ∃ l ∈ lexemes, l.span.start = place.start
  stop : ∃ l ∈ lexemes, l.span.stop = place.stop

section Bound

variable {lexemes : List Lexeme} {a b place : Span}

theorem Lexeme.Bound.join (first : Bound lexemes a) (last : Bound lexemes b) :
    Bound lexemes ⟨a.start, b.stop⟩ :=
  ⟨first.start, last.stop⟩

theorem Lexeme.Bound.merge (left : Bound lexemes a) (right : Bound lexemes b) :
    Bound lexemes (a.merge b) := by
  constructor
  · change ∃ l ∈ lexemes, l.span.start = min a.start b.start
    rcases Nat.le_total a.start b.start with before | before
    · rw [Nat.min_eq_left before]
      exact left.start
    · rw [Nat.min_eq_right before]
      exact right.start
  · change ∃ l ∈ lexemes, l.span.stop = max a.stop b.stop
    rcases Nat.le_total a.stop b.stop with before | before
    · rw [Nat.max_eq_right before]
      exact right.stop
    · rw [Nat.max_eq_left before]
      exact left.stop

theorem Lexeme.bound_of_extent {here : List Lexeme} (found : extent? here = some place)
    (inside : here ⊆ lexemes) : Bound lexemes place := by
  induction here generalizing place with
  | nil => cases found
  | cons l rest ih =>
    obtain ⟨member, others⟩ := List.cons_subset.mp inside
    have first : Bound lexemes l.span := ⟨⟨l, member, rfl⟩, ⟨l, member, rfl⟩⟩
    rw [extent?_cons] at found
    cases later : extent? rest with
    | none =>
      rw [later] at found
      cases found
      exact first
    | some last =>
      rw [later] at found
      cases found
      exact first.join (ih later others)

variable (lexemes)

inductive Expr.Bound : Expr → Prop
  | mk {e : Expr} (span : Lexeme.Bound lexemes e.span) (fault : Lexeme.Bound lexemes e.faultPlace)
      (parts : ∀ part ∈ e.parts, Expr.Bound part) : Expr.Bound e

def Stmt.Bound (stmt : Stmt) : Prop := ∀ e ∈ stmt.parts, e.Bound lexemes

def Listed.Bound : (of : Listed) → of.Item → Prop
  | expr => Expr.Bound lexemes
  | ident => fun _ => True

def Nonterminal.Bound : (name : Nonterminal) → name.Value → Prop
  | program => fun program => ∀ stmt ∈ program.body, stmt.Bound lexemes
  | body | statements => fun body => ∀ stmt ∈ body, stmt.Bound lexemes
  | statement | plainStatement => Stmt.Bound lexemes
  | operator _ | ident => fun _ => True
  | placedIdent => fun name => Lexeme.Bound lexemes name.2
  | list of | closedList of => fun items => ∀ item ∈ items, of.Bound lexemes item
  | expr | conditional | alternative | block | level _ | chain _ | unary | postfixed | primary
  | placedLiteral | literal => Expr.Bound lexemes

def Symbol.Bound : (s : Symbol) → s.Value → Prop
  | terminal _ => fun _ => True
  | nonterminal name => name.Bound lexemes

def Values.Bound : (symbols : List Symbol) → Values symbols → Prop
  | [] => fun _ => True
  | s :: rest => fun values => s.Bound lexemes values.1 ∧ Values.Bound rest values.2

end Bound

variable {lexemes : List Lexeme}

theorem Expr.Bound.span {e : Expr} (bound : e.Bound lexemes) : Lexeme.Bound lexemes e.span := by
  cases bound with
  | mk span _ _ => exact span

theorem Expr.bound_leaf {e : Expr} (span : Lexeme.Bound lexemes e.span)
    (own : e.faultPlace = e.span) (alone : e.parts = []) : e.Bound lexemes :=
  .mk span (own ▸ span) (by simp [alone])

theorem Tier.operandExpr_bound (tier : Tier) {operand : tier.operand.Value}
    (bound : tier.operand.Bound lexemes operand) : (tier.operandExpr operand).Bound lexemes := by
  cases tier <;> exact bound

theorem Listed.item_bound (of : Listed) {element : of.element.Value}
    (bound : of.element.Bound lexemes element) : of.Bound lexemes (of.item element) := by
  cases of <;> exact bound

theorem tailStatement_bound {e : Expr} (bound : e.Bound lexemes) :
    (tailStatement e).Bound lexemes :=
  fun _ member => List.mem_singleton.mp member ▸ bound

theorem Production.value_bound {lhs : Nonterminal} {rhs : List Symbol} (p : Production lhs rhs)
    {place : Span} {values : Values rhs} (placed : lhs.filled = true → Lexeme.Bound lexemes place)
    (bound : Values.Bound lexemes rhs values) : lhs.Bound lexemes (p.value place values) := by
  have one {e : Expr} (bound : e.Bound lexemes) : ∀ part ∈ [e], part.Bound lexemes :=
    List.forall_mem_singleton.mpr bound
  cases p with
  | program => exact bound.1
  | emptyBody | emptyList => exact List.forall_mem_nil _
  | tailBody => exact List.forall_mem_singleton.mpr (tailStatement_bound bound.1)
  | statementsBody => exact fun stmt member => bound.1 stmt (List.mem_reverse.mp member)
  | fullBody =>
    intro stmt member
    rcases List.mem_cons.mp (List.mem_reverse.mp member) with rfl | member
    · exact tailStatement_bound bound.2.1
    · exact bound.1 stmt member
  | firstStatement => exact List.forall_mem_singleton.mpr bound.1
  | nextStatement => exact List.forall_mem_cons.mpr ⟨bound.2.1, bound.1⟩
  | binding => exact one bound.2.2.2.1
  | resultOf => exact one bound.2.1
  | result => exact List.forall_mem_nil _
  | exprStatement | conditionalStatement => exact one bound.1
  | ifThen =>
    obtain ⟨-, test, consequence, -⟩ := bound
    exact .mk (placed rfl) (placed rfl) (List.forall_mem_cons.mpr ⟨test, one consequence⟩)
  | ifThenElse =>
    obtain ⟨-, test, consequence, -, alternative, -⟩ := bound
    exact .mk (placed rfl) (placed rfl) (List.forall_mem_cons.mpr
      ⟨test, List.forall_mem_cons.mpr ⟨consequence, one alternative⟩⟩)
  | block =>
    refine .mk (placed rfl) (placed rfl) fun part member => ?_
    obtain ⟨stmt, inside, member⟩ := List.mem_flatMap.mp member
    exact bound.2.1 stmt inside part member
  | link tier =>
    obtain ⟨left, -, right, -⟩ := bound
    have right := tier.operandExpr_bound right
    have span := left.span.merge right.span
    exact .mk span span (List.forall_mem_cons.mpr ⟨left, one right⟩)
  | chain tier => exact tier.operandExpr_bound bound.1
  | negation | complement => exact .mk (placed rfl) (placed rfl) (one bound.2.1)
  | call =>
    obtain ⟨callee, -, args, -, -⟩ := bound
    have span := callee.span.join (placed rfl)
    exact .mk span span (List.forall_mem_cons.mpr ⟨callee, args⟩)
  | method =>
    obtain ⟨receiver, -, name, -, args, -, -⟩ := bound
    exact .mk (receiver.span.join (placed rfl)) name (List.forall_mem_cons.mpr ⟨receiver, args⟩)
  | index =>
    obtain ⟨target, -, position, -, -⟩ := bound
    have span := target.span.join (placed rfl)
    exact .mk span span (List.forall_mem_cons.mpr ⟨target, one position⟩)
  | identPrimary => exact Expr.bound_leaf bound.1 rfl rfl
  | array => exact .mk (placed rfl) (placed rfl) bound.2.1
  | function => exact .mk (placed rfl) (placed rfl) (one bound.2.2.2.2.1)
  | intLiteral | uintLiteral | floatLiteral | stringLiteral | trueLiteral | falseLiteral
  | nilLiteral => exact Expr.bound_leaf (placed rfl) rfl rfl
  | placedIdent => exact placed rfl
  | grouping => exact bound.2.1
  | oneList of => exact List.forall_mem_singleton.mpr (of.item_bound bound.1)
  | commaList of => exact fun item member => bound.1 item (List.mem_reverse.mp member)
  | openList of =>
    intro item member
    rcases List.mem_cons.mp (List.mem_reverse.mp member) with rfl | member
    · exact of.item_bound bound.2.1
    · exact bound.1 item member
  | firstClosed of => exact List.forall_mem_singleton.mpr (of.item_bound bound.1)
  | nextClosed of => exact List.forall_mem_cons.mpr ⟨of.item_bound bound.2.1, bound.1⟩
  | statement | conditionalExpr | levelExpr | blockAlternative | conditionalAlternative | level
  | postfixedUnary | primaryPostfixed | literalPrimary | placedLiteral => exact bound.1
  | _ => trivial

mutual

theorem Tree.reading_bound {s : Symbol} (tree : Tree s) (inside : tree.lexemes ⊆ lexemes) :
    s.Bound lexemes tree.reading.1 := by
  match tree with
  | .leaf kind payload span => trivial
  | .node p kids =>
    rw [Tree.lexemes] at inside
    rw [Tree.reading]
    refine p.value_bound (fun filled => ?_) (kids.readings_bound inside)
    rw [kids.readings_snd]
    cases found : Lexeme.extent? kids.lexemes with
    | none => exact absurd (Lexeme.extent?_eq_none found) (kids.lexemes_ne_nil (p.filled filled))
    | some place => exact Lexeme.bound_of_extent found inside

theorem Forest.readings_bound {symbols : List Symbol} (trees : Forest symbols)
    (inside : trees.lexemes ⊆ lexemes) : Values.Bound lexemes symbols trees.readings.1 := by
  match trees with
  | .nil => trivial
  | .cons tree trees =>
    rw [Forest.lexemes, List.append_subset] at inside
    rw [Forest.readings]
    exact ⟨tree.reading_bound inside.1, trees.readings_bound inside.2⟩

end

theorem Program.Has.bound {program : Program} {e : Expr}
    (parsed : Program.ofLexemes lexemes = .ok program) (here : program.Has e) :
    e.Bound lexemes := by
  induction here with
  | stmt member inside =>
    obtain ⟨tree, rfl, rfl⟩ := Program.exists_tree parsed
    exact tree.reading_bound (List.Subset.refl _) _ member _ inside
  | part _ inside ih =>
    cases ih with
    | mk _ _ parts => exact parts _ inside

end MonkeyLang
