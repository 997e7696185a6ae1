import MonkeyLang.Grammar.Tree

namespace MonkeyLang

section Values

variable {s : Symbol} {symbols : List Symbol} {lhs : Nonterminal}

@[simp] theorem Tree.value_node (p : Production lhs symbols) (kids : Forest symbols) :
    (Tree.node p kids).value = p.value (kids.readings.2.getD default) kids.readings.1 := by
  rw [Tree.value, Tree.reading]

@[simp] theorem Tree.lexemes_node (p : Production lhs symbols) (kids : Forest symbols) :
    (Tree.node p kids).lexemes = kids.lexemes := by
  rw [Tree.lexemes]

@[simp] theorem Forest.values_cons (tree : Tree s) (trees : Forest symbols) :
    (Forest.cons tree trees).readings.1 = (tree.value, trees.readings.1) := by
  rw [Forest.readings, Tree.value]

@[simp] theorem Forest.values_nil : Forest.nil.readings.1 = () := by
  rw [Forest.readings]

@[simp] theorem Forest.lexemes_cons (tree : Tree s) (trees : Forest symbols) :
    (Forest.cons tree trees).lexemes = tree.lexemes ++ trees.lexemes := by
  rw [Forest.lexemes]

@[simp] theorem Forest.lexemes_nil : Forest.nil.lexemes = [] := by
  rw [Forest.lexemes]

end Values

section Bodies

abbrev StatementTree := Tree (.nonterminal .statement)

/-- What a body consists of: statements, and perhaps an expression after them. -/
structure BodyParts where
  statements : List StatementTree
  tail : Option (Tree (.nonterminal (.level .or)))

namespace BodyParts

def lexemes (parts : BodyParts) : List Lexeme :=
  parts.statements.flatMap Tree.lexemes ++ parts.tail.toList.flatMap Tree.lexemes

def value (parts : BodyParts) : List Stmt :=
  parts.statements.map Tree.value ++ parts.tail.toList.map fun e => tailStatement e.value

end BodyParts

theorem Tree.statements_parts (tree : Tree (.nonterminal .statements)) :
    ∃ parts : List StatementTree, parts.flatMap Tree.lexemes = tree.lexemes ∧
      (parts.map Tree.value).reverse = tree.value := by
  match tree with
  | .node production kids =>
    match production, kids with
    | .firstStatement, .cons first .nil =>
      refine ⟨[first], ?_, ?_⟩
      · simp
      · simp [Production.value]
    | .nextStatement, .cons before (.cons last .nil) =>
      obtain ⟨parts, lexemes, value⟩ := before.statements_parts
      refine ⟨parts ++ [last], ?_, ?_⟩
      · simp [← lexemes]
      · simp [Production.value, ← value]

theorem Tree.exists_statements (before : Tree (.nonterminal .statements))
    (parts : List StatementTree) :
    ∃ tree : Tree (.nonterminal .statements),
      tree.lexemes = before.lexemes ++ parts.flatMap Tree.lexemes ∧
      tree.value = (parts.map Tree.value).reverse ++ before.value := by
  induction parts generalizing before with
  | nil => exact ⟨before, by simp, by simp⟩
  | cons part rest ih =>
    obtain ⟨tree, lexemes, value⟩ := ih (.node .nextStatement (.cons before (.cons part .nil)))
    exact ⟨tree, by simp [lexemes], by simp [value, Production.value]⟩

theorem Tree.body_iff {lexemes : List Lexeme} {stmts : List Stmt} :
    (∃ tree : Tree (.nonterminal .body), tree.lexemes = lexemes ∧ tree.value = stmts) ↔
      ∃ parts : BodyParts, parts.lexemes = lexemes ∧ parts.value = stmts := by
  constructor
  · rintro ⟨tree, rfl, rfl⟩
    cases tree with
    | node production kids =>
      match production, kids with
      | .emptyBody, .nil =>
        refine ⟨⟨[], none⟩, ?_, ?_⟩
        · simp [BodyParts.lexemes]
        · simp [BodyParts.value, Production.value]
      | .tailBody, .cons tail .nil =>
        refine ⟨⟨[], some tail⟩, ?_, ?_⟩
        · simp [BodyParts.lexemes]
        · simp [BodyParts.value, Production.value]
      | .statementsBody, .cons before .nil =>
        obtain ⟨parts, lexemes, value⟩ := before.statements_parts
        refine ⟨⟨parts, none⟩, ?_, ?_⟩
        · simp [BodyParts.lexemes, lexemes]
        · simp [BodyParts.value, Production.value, ← value]
      | .fullBody, .cons before (.cons tail .nil) =>
        obtain ⟨parts, lexemes, value⟩ := before.statements_parts
        refine ⟨⟨parts, some tail⟩, ?_, ?_⟩
        · simp [BodyParts.lexemes, lexemes]
        · simp [BodyParts.value, Production.value, ← value]
  · rintro ⟨⟨statements, tail⟩, rfl, rfl⟩
    cases statements with
    | nil =>
      cases tail with
      | none =>
        refine ⟨.node .emptyBody .nil, ?_, ?_⟩
        · simp [BodyParts.lexemes]
        · simp [BodyParts.value, Production.value]
      | some tail =>
        refine ⟨.node .tailBody (.cons tail .nil), ?_, ?_⟩
        · simp [BodyParts.lexemes]
        · simp [BodyParts.value, Production.value]
    | cons first rest =>
      obtain ⟨before, lexemes, value⟩ :=
        Tree.exists_statements (.node .firstStatement (.cons first .nil)) rest
      cases tail with
      | none =>
        refine ⟨.node .statementsBody (.cons before .nil), ?_, ?_⟩
        · simp [BodyParts.lexemes, lexemes]
        · simp [BodyParts.value, Production.value, value]
      | some tail =>
        refine ⟨.node .fullBody (.cons before (.cons tail .nil)), ?_, ?_⟩
        · simp [BodyParts.lexemes, lexemes]
        · simp [BodyParts.value, Production.value, value]

end Bodies

section Lists

variable {of : Listed}

abbrev Listed.Element (of : Listed) := Tree (.nonterminal of.element)

/-- What a list consists of: things with commas behind them, each beside the place of its comma,
    and perhaps one without. -/
structure ListParts (of : Listed) where
  closed : List (of.Element × Span)
  last : Option of.Element

namespace ListParts

def closedLexemes (part : of.Element × Span) : List Lexeme :=
  part.1.lexemes ++ [⟨.fixed .comma, part.2⟩]

def lexemes (parts : ListParts of) : List Lexeme :=
  parts.closed.flatMap closedLexemes ++ parts.last.toList.flatMap Tree.lexemes

def value (parts : ListParts of) : List of.Item :=
  (parts.closed.map (·.1) ++ parts.last.toList).map fun part => of.item part.value

end ListParts

open ListParts (closedLexemes)

def Tree.comma (place : Span) : Tree (.word .comma) := .leaf _ () place

@[simp] theorem Tree.lexemes_comma (place : Span) :
    (Tree.comma place).lexemes = [⟨.fixed .comma, place⟩] := by
  rw [comma, Tree.lexemes]
  rfl

theorem Tree.eq_comma (tree : Tree (.word .comma)) : ∃ place, tree = .comma place := by
  cases tree with
  | leaf _ payload place => exact ⟨place, rfl⟩

theorem Tree.closedList_parts (tree : Tree (.nonterminal (.closedList of))) :
    ∃ parts : List (of.Element × Span), parts.flatMap closedLexemes = tree.lexemes ∧
      (parts.map fun part => of.item part.1.value).reverse = tree.value := by
  match tree with
  | .node production kids =>
    match production, kids with
    | .firstClosed _, .cons first (.cons comma .nil) =>
      obtain ⟨place, rfl⟩ := comma.eq_comma
      refine ⟨[(first, place)], ?_, ?_⟩
      · simp [closedLexemes]
      · simp [Production.value]
    | .nextClosed _, .cons before (.cons last (.cons comma .nil)) =>
      obtain ⟨place, rfl⟩ := comma.eq_comma
      obtain ⟨parts, lexemes, value⟩ := before.closedList_parts
      refine ⟨parts ++ [(last, place)], ?_, ?_⟩
      · simp [closedLexemes, ← lexemes]
      · simp [Production.value, ← value]

theorem Tree.exists_closedList (before : Tree (.nonterminal (.closedList of)))
    (parts : List (of.Element × Span)) :
    ∃ tree : Tree (.nonterminal (.closedList of)),
      tree.lexemes = before.lexemes ++ parts.flatMap closedLexemes ∧
      tree.value = (parts.map fun part => of.item part.1.value).reverse ++ before.value := by
  induction parts generalizing before with
  | nil => exact ⟨before, by simp, by simp⟩
  | cons part rest ih =>
    obtain ⟨tree, lexemes, value⟩ :=
      ih (.node (.nextClosed of) (.cons before (.cons part.1 (.cons (.comma part.2) .nil))))
    exact ⟨tree, by simp [lexemes, closedLexemes], by simp [value, Production.value]⟩

theorem Tree.list_iff {lexemes : List Lexeme} {items : List of.Item} :
    (∃ tree : Tree (.nonterminal (.list of)), tree.lexemes = lexemes ∧ tree.value = items) ↔
      ∃ parts : ListParts of, parts.lexemes = lexemes ∧ parts.value = items := by
  constructor
  · rintro ⟨tree, rfl, rfl⟩
    cases tree with
    | node production kids =>
      match production, kids with
      | .emptyList _, .nil =>
        refine ⟨⟨[], none⟩, ?_, ?_⟩
        · simp [ListParts.lexemes]
        · simp [ListParts.value, Production.value]
      | .oneList _, .cons last .nil =>
        refine ⟨⟨[], some last⟩, ?_, ?_⟩
        · simp [ListParts.lexemes]
        · simp [ListParts.value, Production.value]
      | .commaList _, .cons closed .nil =>
        obtain ⟨parts, lexemes, value⟩ := closed.closedList_parts
        refine ⟨⟨parts, none⟩, ?_, ?_⟩
        · simp [ListParts.lexemes, lexemes]
        · simp [ListParts.value, Production.value, ← value]
      | .openList _, .cons closed (.cons last .nil) =>
        obtain ⟨parts, lexemes, value⟩ := closed.closedList_parts
        refine ⟨⟨parts, some last⟩, ?_, ?_⟩
        · simp [ListParts.lexemes, lexemes]
        · simp [ListParts.value, Production.value, ← value]
  · rintro ⟨⟨closed, last⟩, rfl, rfl⟩
    cases closed with
    | nil =>
      cases last with
      | none =>
        refine ⟨.node (.emptyList of) .nil, ?_, ?_⟩
        · simp [ListParts.lexemes]
        · simp [ListParts.value, Production.value]
      | some last =>
        refine ⟨.node (.oneList of) (.cons last .nil), ?_, ?_⟩
        · simp [ListParts.lexemes]
        · simp [ListParts.value, Production.value]
    | cons first rest =>
      obtain ⟨before, lexemes, value⟩ := Tree.exists_closedList
        (.node (.firstClosed of) (.cons first.1 (.cons (.comma first.2) .nil))) rest
      cases last with
      | none =>
        refine ⟨.node (.commaList of) (.cons before .nil), ?_, ?_⟩
        · simp [ListParts.lexemes, closedLexemes, lexemes]
        · simp [ListParts.value, Production.value, value]
      | some last =>
        refine ⟨.node (.openList of) (.cons before (.cons last .nil)), ?_, ?_⟩
        · simp [ListParts.lexemes, closedLexemes, lexemes]
        · simp [ListParts.value, Production.value, value]

end Lists

end MonkeyLang
