import MonkeyLang.Grammar
import MonkeyLang.Token.Lexeme

/-!
Derivation trees and their values. A tree is typed by the symbol at its root, so every tree is a
derivation of the grammar. Its value is the syntax tree that the productions build; the place of
a node runs from its first token to its last one.
-/

namespace MonkeyLang

mutual

inductive Tree : Symbol → Type
  | leaf (kind : TokenKind) (payload : kind.Payload) (span : Span) : Tree (.terminal kind)
  | node {lhs : Nonterminal} {rhs : List Symbol} (production : Production lhs rhs)
      (kids : Forest rhs) : Tree (.nonterminal lhs)

inductive Forest : List Symbol → Type
  | nil : Forest []
  | cons {s : Symbol} {rest : List Symbol} (tree : Tree s) (trees : Forest rest) :
      Forest (s :: rest)

end

def Tree.ofLexeme (l : Lexeme) : Tree (.terminal l.token.kind) :=
  .leaf l.token.kind l.token.payload l.span

mutual

def Tree.lexemes : {s : Symbol} → Tree s → List Lexeme
  | _, .leaf kind payload span => [⟨⟨kind, payload⟩, span⟩]
  | _, .node _ kids => kids.lexemes

def Forest.lexemes : {symbols : List Symbol} → Forest symbols → List Lexeme
  | _, .nil => []
  | _, .cons tree trees => tree.lexemes ++ trees.lexemes

end

def Span.join? : Option Span → Option Span → Option Span
  | some first, some last => some ⟨first.start, last.stop⟩
  | some only, none => some only
  | none, other => other

def Lexeme.extent? : List Lexeme → Option Span
  | [] => none
  | [l] => some l.span
  | l :: next :: rest => Span.join? (some l.span) (extent? (next :: rest))

theorem Lexeme.extent?_cons (l : Lexeme) (rest : List Lexeme) :
    extent? (l :: rest) = Span.join? (some l.span) (extent? rest) := by
  cases rest <;> rfl

theorem Span.join?_assoc (a b c : Option Span) : join? (join? a b) c = join? a (join? b c) := by
  cases a <;> cases b <;> cases c <;> rfl

theorem Lexeme.extent?_append (a b : List Lexeme) :
    extent? (a ++ b) = Span.join? (extent? a) (extent? b) := by
  induction a with
  | nil => rfl
  | cons l rest ih => rw [List.cons_append, extent?_cons, extent?_cons, ih, Span.join?_assoc]

abbrev Listed.Item : Listed → Type
  | expr => Expr
  | ident => String

/-- What a derivation from a nonterminal stands for. Statements and closed lists grow at their ends;
    theirs are in reverse order. -/
abbrev Nonterminal.Value : Nonterminal → Type
  | program => Program
  | body | statements => List Stmt
  | statement | plainStatement => Stmt
  | operator _ => BinOp
  | placedIdent => String × Span
  | ident => String
  | list of | closedList of => List of.Item
  | expr | conditional | alternative | block | level _ | chain _ | unary | postfixed | primary
  | placedLiteral | literal => Expr

abbrev Symbol.Value : Symbol → Type
  | terminal kind => kind.Payload
  | nonterminal name => name.Value

abbrev Values : List Symbol → Type
  | [] => Unit
  | s :: rest => s.Value × Values rest

def Listed.item : (of : Listed) → of.element.Value → of.Item
  | expr, e => e
  | ident, name => name

def Tier.operandExpr : (tier : Tier) → tier.operand.Value → Expr
  | or, e | and, e | equality, e | comparison, e | sum, e | product, e => e

def tailStatement (e : Expr) : Stmt := .expr e.span e

def Production.value {lhs : Nonterminal} {rhs : List Symbol} (p : Production lhs rhs)
    (place : Span) (values : Values rhs) : lhs.Value :=
  match p, values with
  | .program, (body, ()) => ⟨body⟩
  | .emptyBody, () => []
  | .tailBody, (e, ()) => [tailStatement e]
  | .statementsBody, (stmts, ()) => stmts.reverse
  | .fullBody, (stmts, e, ()) => (tailStatement e :: stmts).reverse
  | .firstStatement, (stmt, ()) => [stmt]
  | .nextStatement, (stmts, stmt, ()) => stmt :: stmts
  | .statement, (stmt, ()) => stmt
  | .binding, (_, name, _, e, _, ()) => .bind place name e
  | .resultOf, (_, e, _, ()) => .result place (some e)
  | .result, _ => .result place none
  | .exprStatement, (e, _, ()) => .expr place e
  | .conditionalStatement, (e, ()) => .expr place e
  | .conditionalExpr, (e, ()) => e
  | .levelExpr, (e, ()) => e
  | .ifThen, (_, test, consequence, ()) => .cond place test consequence none
  | .ifThenElse, (_, test, consequence, _, alternative, ()) =>
    .cond place test consequence (some alternative)
  | .blockAlternative, (e, ()) => e
  | .conditionalAlternative, (e, ()) => e
  | .block, (_, stmts, _, ()) => .block place stmts
  | .level _, (e, ()) => e
  | .link tier, (left, op, operand, ()) =>
    let right := tier.operandExpr operand
    .binary (left.span.merge right.span) op left right
  | .chain tier, (operand, ()) => tier.operandExpr operand
  | .orOperator, _ => .logic .or
  | .andOperator, _ => .logic .and
  | .eqOperator, _ => .strict .eq
  | .neOperator, _ => .strict .ne
  | .ltOperator, _ => .strict .lt
  | .gtOperator, _ => .strict .gt
  | .leOperator, _ => .strict .le
  | .geOperator, _ => .strict .ge
  | .addOperator, _ => .strict .add
  | .subOperator, _ => .strict .sub
  | .mulOperator, _ => .strict .mul
  | .divOperator, _ => .strict .div
  | .modOperator, _ => .strict .mod
  | .negation, (_, e, ()) => .unary place .neg e
  | .complement, (_, e, ()) => .unary place .not e
  | .postfixedUnary, (e, ()) => e
  | .call, (callee, _, args, _, ()) => .call ⟨callee.span.start, place.stop⟩ callee args
  | .method, (receiver, _, (name, nameSpan), _, args, _, ()) =>
    .method ⟨receiver.span.start, place.stop⟩ receiver name nameSpan args
  | .index, (target, _, position, _, ()) =>
    .index ⟨target.span.start, place.stop⟩ target position
  | .primaryPostfixed, (e, ()) => e
  | .literalPrimary, (e, ()) => e
  | .identPrimary, ((name, nameSpan), ()) => .var nameSpan name
  | .grouping, (_, e, _, ()) => e
  | .array, (_, members, _, ()) => .array place members
  | .function, (_, _, params, _, body, ()) => .function place params body
  | .placedLiteral, (e, ()) => e
  | .intLiteral, (n, ()) => .int place n
  | .uintLiteral, (n, ()) => .uint place n
  | .floatLiteral, (x, ()) => .float place x
  | .stringLiteral, (s, ()) => .str place s
  | .trueLiteral, _ => .bool place true
  | .falseLiteral, _ => .bool place false
  | .nilLiteral, _ => .nil place
  | .placedIdent, (name, ()) => (name, place)
  | .ident, (name, ()) => name
  | .emptyList _, () => []
  | .oneList of, (e, ()) => [of.item e]
  | .commaList _, (items, ()) => items.reverse
  | .openList of, (items, e, ()) => (of.item e :: items).reverse
  | .firstClosed of, (e, _, ()) => [of.item e]
  | .nextClosed of, (items, e, _, ()) => of.item e :: items

mutual

def Tree.reading : {s : Symbol} → Tree s → s.Value × Option Span
  | _, .leaf _ payload span => (payload, some span)
  | _, .node p kids =>
    let (values, place) := kids.readings
    (p.value (place.getD default) values, place)

def Forest.readings : {symbols : List Symbol} → Forest symbols → Values symbols × Option Span
  | _, .nil => ((), none)
  | _, .cons tree trees =>
    let (value, first) := tree.reading
    let (values, last) := trees.readings
    ((value, values), Span.join? first last)

end

def Tree.value {s : Symbol} (tree : Tree s) : s.Value := tree.reading.1

mutual

theorem Tree.reading_snd : {s : Symbol} → (tree : Tree s) →
    tree.reading.2 = Lexeme.extent? tree.lexemes
  | _, .leaf _ _ _ => by simp [Tree.reading, Tree.lexemes, Lexeme.extent?]
  | _, .node _ kids => by simpa [Tree.reading, Tree.lexemes] using kids.readings_snd

theorem Forest.readings_snd : {symbols : List Symbol} → (trees : Forest symbols) →
    trees.readings.2 = Lexeme.extent? trees.lexemes
  | _, .nil => by simp [Forest.readings, Forest.lexemes, Lexeme.extent?]
  | _, .cons tree trees => by
    simp [Forest.readings, Forest.lexemes, Lexeme.extent?_append, tree.reading_snd,
      trees.readings_snd]

end

end MonkeyLang
