import MonkeyLang.Grammar.Tree
import MonkeyLang.Proofs.Ast.Places

namespace MonkeyLang

section Placing

variable (f : Span → Span)

/-- Mapping the places that a span was made of maps the span. -/
structure Span.Steady : Prop where
  merge (a b : Span) : (f a).merge (f b) = f (a.merge b)
  join (a b : Span) : (⟨(f a).start, (f b).stop⟩ : Span) = f ⟨a.start, b.stop⟩

def Listed.mapSpans : (of : Listed) → of.Item → of.Item
  | expr => Expr.mapSpans f
  | ident => id

def Nonterminal.mapSpans : (name : Nonterminal) → name.Value → name.Value
  | program => Program.mapSpans f
  | body | statements => mapSpansBody f
  | statement | plainStatement => Stmt.mapSpans f
  | operator _ | ident => id
  | placedIdent => fun name => (name.1, f name.2)
  | list of | closedList of => List.map (of.mapSpans f)
  | expr | conditional | alternative | block | level _ | chain _ | unary | postfixed | primary
  | placedLiteral | literal => Expr.mapSpans f

def Symbol.mapSpans : (s : Symbol) → s.Value → s.Value
  | terminal _ => id
  | nonterminal name => name.mapSpans f

def Values.mapSpans : (symbols : List Symbol) → Values symbols → Values symbols
  | [] => id
  | s :: rest => fun values => (s.mapSpans f values.1, Values.mapSpans rest values.2)

theorem tailStatement_mapSpans (e : Expr) :
    tailStatement (e.mapSpans f) = (tailStatement e).mapSpans f := by
  rw [tailStatement, Expr.span_mapSpans]
  rfl

theorem Tier.operandExpr_mapSpans (tier : Tier) (operand : tier.operand.Value) :
    tier.operandExpr (tier.operand.mapSpans f operand) = (tier.operandExpr operand).mapSpans f := by
  cases tier <;> rfl

theorem Listed.item_mapSpans (of : Listed) (element : of.element.Value) :
    of.item (of.element.mapSpans f element) = of.mapSpans f (of.item element) := by
  cases of <;> rfl

variable {f}

theorem Production.value_mapSpans (steady : Span.Steady f) {lhs : Nonterminal} {rhs : List Symbol}
    (p : Production lhs rhs) (place : Span) (values : Values rhs) :
    p.value (f place) (Values.mapSpans f rhs values) = lhs.mapSpans f (p.value place values) := by
  cases p with
  | tailBody => exact congrArg (fun tail => [tail]) (tailStatement_mapSpans f values.1)
  | statementsBody =>
    change (mapSpansBody _ values.1).reverse = mapSpansBody _ values.1.reverse
    rw [mapSpansBody_eq_map, mapSpansBody_eq_map, List.map_reverse]
  | fullBody =>
    change (tailStatement _ :: mapSpansBody _ values.1).reverse =
      mapSpansBody _ (tailStatement values.2.1 :: values.1).reverse
    rw [mapSpansBody_eq_map, mapSpansBody_eq_map, List.map_reverse, List.map_cons,
      ← tailStatement_mapSpans]
    rfl
  | link tier =>
    obtain ⟨left, op, operand, ⟨⟩⟩ := values
    change Expr.binary ((left.mapSpans f).span.merge
      (tier.operandExpr (tier.operand.mapSpans f operand)).span) op (left.mapSpans f)
      (tier.operandExpr (tier.operand.mapSpans f operand)) = _
    rw [Tier.operandExpr_mapSpans, Expr.span_mapSpans, Expr.span_mapSpans, steady.merge]
    rfl
  | chain tier => exact tier.operandExpr_mapSpans f values.1
  | call =>
    obtain ⟨callee, _, args, _, ⟨⟩⟩ := values
    change Expr.call ⟨(callee.mapSpans f).span.start, (f place).stop⟩
      (callee.mapSpans f) (List.map (Expr.mapSpans f) args) = _
    rw [Expr.span_mapSpans, steady.join, ← mapSpansAll_eq_map]
    rfl
  | method =>
    obtain ⟨receiver, _, ⟨name, nameSpan⟩, _, args, _, ⟨⟩⟩ := values
    change Expr.method ⟨(receiver.mapSpans f).span.start, (f place).stop⟩
      (receiver.mapSpans f) name (f nameSpan) (List.map (Expr.mapSpans f) args) = _
    rw [Expr.span_mapSpans, steady.join, ← mapSpansAll_eq_map]
    rfl
  | index =>
    obtain ⟨target, _, position, _, ⟨⟩⟩ := values
    change Expr.index ⟨(target.mapSpans f).span.start, (f place).stop⟩ _ _ = _
    rw [Expr.span_mapSpans, steady.join]
    rfl
  | array =>
    obtain ⟨_, members, _, ⟨⟩⟩ := values
    change Expr.array (f place) (List.map (Expr.mapSpans f) members) = _
    rw [← mapSpansAll_eq_map]
    rfl
  | function =>
    obtain ⟨_, _, params, _, body, ⟨⟩⟩ := values
    change Expr.function _ (params.map id) _ = _
    rw [List.map_id]
    rfl
  | oneList of => exact congrArg (fun item => [item]) (of.item_mapSpans f values.1)
  | commaList of => exact List.map_reverse.symm
  | openList of =>
    obtain ⟨items, element, ⟨⟩⟩ := values
    change (of.item (of.element.mapSpans f element) :: List.map (of.mapSpans f) items).reverse = _
    rw [of.item_mapSpans, ← List.map_cons, ← List.map_reverse]
    rfl
  | firstClosed of => exact congrArg (fun item => [item]) (of.item_mapSpans f values.1)
  | nextClosed of => exact congrArg (· :: _) (of.item_mapSpans f values.2.1)
  | _ => rfl

end Placing

section Unplaced

theorem Span.steady_nowhere : Span.Steady nowhere := ⟨fun _ _ => rfl, fun _ _ => rfl⟩

def Symbol.unplaced (s : Symbol) : s.Value → s.Value := s.mapSpans nowhere

def Values.unplaced (symbols : List Symbol) : Values symbols → Values symbols :=
  Values.mapSpans nowhere symbols

theorem Production.value_unplaced {lhs : Nonterminal} {rhs : List Symbol} (p : Production lhs rhs)
    (place : Span) (values : Values rhs) :
    (Symbol.nonterminal lhs).unplaced (p.value place values) =
      p.value default (Values.unplaced rhs values) :=
  (p.value_mapSpans Span.steady_nowhere place values).symm

end Unplaced

end MonkeyLang
