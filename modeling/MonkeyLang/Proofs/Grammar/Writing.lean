import Mathlib
import MonkeyLang.Proofs.Grammar.Joining
import MonkeyLang.Proofs.Store.Corpus

/-!
Programs as tokens. Main statement: a program whose bodies are blocks, written with a semicolon
behind every statement and with parentheses only around what binds looser than its place allows, is
read back as the same program. So operators of a tier join from the left, the tiers bind one tighter
than the other, and every such program can be written.
-/

namespace MonkeyLang

def Tier.rank : Tier → Nat
  | or => 1
  | and => 2
  | equality => 3
  | comparison => 4
  | sum => 5
  | product => 6

def StrictOp.tier : StrictOp → Tier
  | eq | ne => .equality
  | lt | gt | le | ge => .comparison
  | add | sub => .sum
  | mul | div | mod => .product

def BinOp.tier : BinOp → Tier
  | strict op => op.tier
  | logic .or => .or
  | logic .and => .and

def StrictOp.word : StrictOp → Fixed
  | add => .plus
  | sub => .minus
  | mul => .star
  | div => .slash
  | mod => .percent
  | eq => .equal
  | ne => .notEqual
  | lt => .less
  | gt => .greater
  | le => .lessEqual
  | ge => .greaterEqual

def BinOp.word : BinOp → Fixed
  | strict op => op.word
  | logic .or => .orOr
  | logic .and => .andAnd

def UnOp.word : UnOp → Fixed
  | neg => .minus
  | not => .bang

section Writing

/-- How tightly an expression binds: conditionals the loosest, then binary operators by their tiers,
    then unary operators, and all else the tightest. -/
def Expr.binding : Expr → Nat
  | .cond .. => 0
  | .binary _ op _ _ => op.tier.rank
  | .unary .. => 7
  | _ => 8

namespace Token

def grouped (needed : Nat) (e : Expr) (tokens : List Token) : List Token :=
  if e.binding < needed then fixed .leftParen :: (tokens ++ [fixed .rightParen]) else tokens

def listed : List (List Token) → List Token
  | [] => []
  | [tokens] => tokens
  | tokens :: rest => tokens ++ fixed .comma :: listed rest

end Token

open Token (fixed grouped listed)

mutual

/-- The expression as tokens: an operand must bind as tightly as the operator, and the right one
    tighter, what is called or indexed must be the tightest, and a test no conditional. -/
def Expr.tokens : Expr → List Token
  | .int _ n => [.int n]
  | .uint _ n => [.uint n]
  | .float _ x => [.float x]
  | .str _ s => [.string s]
  | .bool _ true => [fixed .trueKey]
  | .bool _ false => [fixed .falseKey]
  | .nil _ => [fixed .nilKey]
  | .var _ name => [.ident name]
  | .array _ members => fixed .leftBracket :: (listed (tokensAll members) ++ [fixed .rightBracket])
  | .binary _ op left right =>
    grouped op.tier.rank left left.tokens ++
      fixed op.word :: grouped (op.tier.rank + 1) right right.tokens
  | .unary _ op operand => fixed op.word :: grouped 7 operand operand.tokens
  | .cond _ test consequence none =>
    fixed .ifKey :: (grouped 1 test test.tokens ++ consequence.tokens)
  | .cond _ test consequence (some alternative) =>
    fixed .ifKey :: (grouped 1 test test.tokens ++
      (consequence.tokens ++ fixed .elseKey :: alternative.tokens))
  | .block _ body => fixed .leftBrace :: (tokensBody body ++ [fixed .rightBrace])
  | .function _ params body =>
    fixed .fnKey :: fixed .leftParen ::
      (listed (params.map fun name => [.ident name]) ++ fixed .rightParen :: body.tokens)
  | .call _ callee args =>
    grouped 8 callee callee.tokens ++
      fixed .leftParen :: (listed (tokensAll args) ++ [fixed .rightParen])
  | .method _ receiver name _ args =>
    grouped 8 receiver receiver.tokens ++ fixed .dot :: .ident name ::
      fixed .leftParen :: (listed (tokensAll args) ++ [fixed .rightParen])
  | .index _ target position =>
    grouped 8 target target.tokens ++
      fixed .leftBracket :: (position.tokens ++ [fixed .rightBracket])

def tokensAll : List Expr → List (List Token)
  | [] => []
  | e :: rest => e.tokens :: tokensAll rest

def Stmt.tokens : Stmt → List Token
  | .bind _ name e =>
    fixed .letKey :: .ident name :: fixed .assign :: (e.tokens ++ [fixed .semicolon])
  | .result _ none => [fixed .returnKey, fixed .semicolon]
  | .result _ (some e) => fixed .returnKey :: (e.tokens ++ [fixed .semicolon])
  | .expr _ e => e.tokens ++ [fixed .semicolon]

def tokensBody : List Stmt → List Token
  | [] => []
  | stmt :: rest => stmt.tokens ++ tokensBody rest

end

def Program.tokens (program : Program) : List Token := tokensBody program.body

end Writing

section Shapes

namespace Expr

def isBlock : Expr → Bool
  | block .. => true
  | _ => false

def isCond : Expr → Bool
  | cond .. => true
  | _ => false

/-- What stands in an expression where a value is due. -/
def values : Expr → List Expr
  | cond _ test _ _ => [test]
  | function .. => []
  | e => e.parts

/-- What stands in an expression where a body is due. -/
def bodies : Expr → List Expr
  | cond _ _ consequence _ => [consequence]
  | function _ _ body => [body]
  | _ => []

def alternatives : Expr → List Expr
  | cond _ _ _ alternative => alternative.toList
  | _ => []

/-- In the expression and in all that stands in it, blocks are where bodies are due, and nowhere
    else but as alternatives, which are blocks or conditionals. -/
inductive Shaped : Expr → Prop
  | mk {e : Expr} (values : ∀ part ∈ e.values, part.isBlock = false)
      (bodies : ∀ part ∈ e.bodies, part.isBlock = true)
      (alternatives : ∀ part ∈ e.alternatives, (part.isBlock || part.isCond) = true)
      (parts : ∀ part ∈ e.parts, Shaped part) : Shaped e

end Expr

def Program.Shaped (program : Program) : Prop :=
  ∀ stmt ∈ program.body, ∀ e ∈ stmt.parts, e.isBlock = false ∧ e.Shaped

end Shapes

section Deriving

def Symbol.Derives (s : Symbol) (tokens : List Token) (value : s.Value) : Prop :=
  ∀ lexemes : List Lexeme, lexemes.map (·.token) = tokens →
    ∃ tree : Tree s, tree.lexemes = lexemes ∧ s.unplaced tree.value = value

def DerivesAll (symbols : List Symbol) (tokens : List Token) (values : Values symbols) : Prop :=
  ∀ lexemes : List Lexeme, lexemes.map (·.token) = tokens →
    ∃ trees : Forest symbols,
      trees.lexemes = lexemes ∧ Values.unplaced symbols trees.readings.1 = values

open MonkeyLang.Symbol (nonterminal)

variable {s : Symbol} {symbols rhs : List Symbol} {lhs : Nonterminal} {tokens more : List Token}

theorem derives_token (t : Token) : (Symbol.terminal t.kind).Derives [t] t.payload := by
  intro lexemes written
  obtain ⟨l, rfl, rfl⟩ := List.map_eq_singleton_iff.mp written
  refine ⟨.ofLexeme l, ?_, ?_⟩
  · rw [Tree.ofLexeme, Tree.lexemes]
  · rw [Tree.ofLexeme, Tree.value, Tree.reading]
    rfl

theorem DerivesAll.nil : DerivesAll [] [] () := by
  intro lexemes written
  cases List.map_eq_nil_iff.mp written
  exact ⟨.nil, by simp, rfl⟩

theorem DerivesAll.cons {value : s.Value} {values : Values symbols} (first : s.Derives tokens value)
    (later : DerivesAll symbols more values) :
    DerivesAll (s :: symbols) (tokens ++ more) (value, values) := by
  intro lexemes written
  obtain ⟨here, there, rfl, written, written'⟩ := List.map_eq_append_iff.mp written
  obtain ⟨tree, rfl, rfl⟩ := first here written
  obtain ⟨trees, rfl, rfl⟩ := later there written'
  refine ⟨.cons tree trees, by simp, ?_⟩
  rw [Forest.values_cons]
  rfl

theorem DerivesAll.single {value : s.Value} (only : s.Derives tokens value) :
    DerivesAll [s] tokens (value, ()) := by
  have derived := DerivesAll.cons only .nil
  rwa [List.append_nil] at derived

theorem DerivesAll.word {w : Fixed} {values : Values symbols}
    (later : DerivesAll symbols more values) :
    DerivesAll (.word w :: symbols) (.fixed w :: more) ((), values) :=
  .cons (derives_token (.fixed w)) later

theorem derives_node (p : Production lhs rhs) {values : Values rhs} {value : lhs.Value}
    (kids : DerivesAll rhs tokens values) (same : p.value default values = value) :
    (nonterminal lhs).Derives tokens value := by
  intro lexemes written
  obtain ⟨trees, rfl, rfl⟩ := kids lexemes written
  refine ⟨.node p trees, by simp, ?_⟩
  rw [Tree.value_node, p.value_unplaced, same]

section Lists

variable {α : Type} {of : Listed} {written : α → List Token} {value : α → of.element.Value}
  {xs : List α}

theorem exists_listParts
    (each : ∀ x ∈ xs, (nonterminal of.element).Derives (written x) (value x))
    {lexemes : List Lexeme} (same : lexemes.map (·.token) = Token.listed (xs.map written)) :
    ∃ parts : ListParts of, parts.lexemes = lexemes ∧
      parts.value.map (of.mapSpans nowhere) = xs.map fun x => of.item (value x) := by
  induction xs generalizing lexemes with
  | nil =>
    cases List.map_eq_nil_iff.mp same
    exact ⟨⟨[], none⟩, rfl, rfl⟩
  | cons x rest ih =>
    obtain ⟨first, others⟩ := List.forall_mem_cons.mp each
    have item {tree : of.Element} (read : (nonterminal of.element).unplaced tree.value = value x) :
        of.mapSpans nowhere (of.item tree.value) = of.item (value x) := by
      rw [← of.item_mapSpans, ← read]
      rfl
    cases rest with
    | nil =>
      obtain ⟨tree, rfl, read⟩ := first lexemes same
      refine ⟨⟨[], some tree⟩, by simp [ListParts.lexemes], ?_⟩
      simp [ListParts.value, item read]
    | cons y rest =>
      obtain ⟨here, _, rfl, begins, later⟩ := List.map_eq_append_iff.mp same
      obtain ⟨⟨_, place⟩, there, rfl, ⟨⟩, goesOn⟩ := List.map_eq_cons_iff.mp later
      obtain ⟨tree, rfl, read⟩ := first here begins
      obtain ⟨⟨closed, last⟩, rfl, reads⟩ := ih others goesOn
      refine ⟨⟨(tree, place) :: closed, last⟩, ?_, ?_⟩
      · simp [ListParts.lexemes, ListParts.closedLexemes, Token.fixed]
      · rw [List.map_cons, ← reads, ← item read]
        rfl

theorem derives_list (each : ∀ x ∈ xs, (nonterminal of.element).Derives (written x) (value x)) :
    (nonterminal (.list of)).Derives (Token.listed (xs.map written))
      (xs.map fun x => of.item (value x)) := by
  intro lexemes same
  obtain ⟨parts, rfl, read⟩ := exists_listParts each same
  obtain ⟨tree, whole, value'⟩ := Tree.list_iff.mpr ⟨parts, rfl, rfl⟩
  refine ⟨tree, whole, ?_⟩
  rw [value', ← read]
  rfl

end Lists

section Bodies

variable {body : List Stmt}

theorem exists_statementTrees
    (each : ∀ stmt ∈ body, (nonterminal .statement).Derives stmt.tokens stmt.unplaced)
    {lexemes : List Lexeme} (same : lexemes.map (·.token) = tokensBody body) :
    ∃ trees : List StatementTree, trees.flatMap Tree.lexemes = lexemes ∧
      unplacedBody (trees.map Tree.value) = unplacedBody body := by
  induction body generalizing lexemes with
  | nil =>
    cases List.map_eq_nil_iff.mp same
    exact ⟨[], rfl, rfl⟩
  | cons stmt rest ih =>
    obtain ⟨first, others⟩ := List.forall_mem_cons.mp each
    obtain ⟨here, there, rfl, begins, goesOn⟩ := List.map_eq_append_iff.mp same
    obtain ⟨tree, rfl, read⟩ := first here begins
    obtain ⟨trees, rfl, reads⟩ := ih others goesOn
    exact ⟨tree :: trees, rfl, congrArg₂ List.cons read reads⟩

theorem derives_body
    (each : ∀ stmt ∈ body, (nonterminal .statement).Derives stmt.tokens stmt.unplaced) :
    (nonterminal .body).Derives (tokensBody body) (unplacedBody body) := by
  intro lexemes same
  obtain ⟨trees, rfl, reads⟩ := exists_statementTrees each same
  obtain ⟨tree, whole, value⟩ := Tree.body_iff.mpr ⟨⟨trees, none⟩, rfl, rfl⟩
  refine ⟨tree, ?_, ?_⟩
  · rw [whole]
    simp [BodyParts.lexemes]
  · rw [value, ← reads]
    exact congrArg unplacedBody (List.append_nil _)

end Bodies

section Standing

variable {needed : Nat} {e left right : Expr}

/-- The tokens stand for the expression where it has to bind as tightly as needed. For a tier this
    is its chain and not its level, since that is what the left operand has to be. -/
def Stands (needed : Nat) (tokens : List Token) (e : Expr) : Prop :=
  match needed with
  | 0 => (nonterminal .expr).Derives tokens e.unplaced
  | 1 => (nonterminal (.chain .or)).Derives tokens e.unplaced
  | 2 => (nonterminal (.chain .and)).Derives tokens e.unplaced
  | 3 => (nonterminal (.chain .equality)).Derives tokens e.unplaced
  | 4 => (nonterminal (.chain .comparison)).Derives tokens e.unplaced
  | 5 => (nonterminal (.chain .sum)).Derives tokens e.unplaced
  | 6 => (nonterminal (.chain .product)).Derives tokens e.unplaced
  | 7 => (nonterminal .unary).Derives tokens e.unplaced
  | _ => (nonterminal .postfixed).Derives tokens e.unplaced

theorem stands_rank (tier : Tier) : Stands tier.rank tokens e ↔
    (nonterminal (.chain tier)).Derives tokens e.unplaced := by
  cases tier <;> rfl

theorem derives_level {tier : Tier} {e : Expr} (chain : (nonterminal (.chain tier)).Derives tokens e) :
    (nonterminal (.level tier)).Derives tokens e :=
  derives_node (.level tier) (.single chain) rfl

theorem Stands.looser (stands : Stands (needed + 1) tokens e) : Stands needed tokens e := by
  match needed, stands with
  | 0, stands => exact derives_node .levelExpr (.single (derives_level stands)) rfl
  | 1, stands => exact derives_node (.chain .or) (.single (derives_level stands)) rfl
  | 2, stands => exact derives_node (.chain .and) (.single (derives_level stands)) rfl
  | 3, stands => exact derives_node (.chain .equality) (.single (derives_level stands)) rfl
  | 4, stands => exact derives_node (.chain .comparison) (.single (derives_level stands)) rfl
  | 5, stands => exact derives_node (.chain .sum) (.single (derives_level stands)) rfl
  | 6, stands => exact derives_node (.chain .product) (.single stands) rfl
  | 7, stands => exact derives_node .postfixedUnary (.single stands) rfl
  | _ + 8, stands => exact stands

theorem Stands.loosen {tight : Nat} (stands : Stands tight tokens e) (le : needed ≤ tight) :
    Stands needed tokens e := by
  induction le with
  | refl => exact stands
  | step _ ih => exact ih stands.looser

theorem Stands.grouped (stands : Stands e.binding tokens e) (needed : Nat) :
    Stands needed (Token.grouped needed e tokens) e := by
  rw [Token.grouped]
  split
  · have whole : (nonterminal .expr).Derives tokens e.unplaced := stands.loosen (Nat.zero_le _)
    have primary : (nonterminal .primary).Derives _ e.unplaced :=
      derives_node .grouping (.word (.cons whole (.word .nil))) rfl
    have closed : Stands (needed + 8) _ e := derives_node .primaryPostfixed (.single primary) rfl
    exact closed.loosen (Nat.le_add_right _ _)
  · exact stands.loosen (Nat.le_of_not_lt ‹_›)

theorem Stands.operand {tier : Tier} (stands : Stands (tier.rank + 1) tokens e) :
    ∃ operand, tier.operandExpr operand = e.unplaced ∧
      (nonterminal tier.operand).Derives tokens operand := by
  cases tier with
  | product => exact ⟨e.unplaced, rfl, stands⟩
  | _ => exact ⟨e.unplaced, rfl, derives_level stands⟩

theorem derives_operator (op : BinOp) :
    (nonterminal (.operator op.tier)).Derives [.fixed op.word] op := by
  match op with
  | .logic .or => exact derives_node .orOperator (.word .nil) rfl
  | .logic .and => exact derives_node .andOperator (.word .nil) rfl
  | .strict .eq => exact derives_node .eqOperator (.word .nil) rfl
  | .strict .ne => exact derives_node .neOperator (.word .nil) rfl
  | .strict .lt => exact derives_node .ltOperator (.word .nil) rfl
  | .strict .gt => exact derives_node .gtOperator (.word .nil) rfl
  | .strict .le => exact derives_node .leOperator (.word .nil) rfl
  | .strict .ge => exact derives_node .geOperator (.word .nil) rfl
  | .strict .add => exact derives_node .addOperator (.word .nil) rfl
  | .strict .sub => exact derives_node .subOperator (.word .nil) rfl
  | .strict .mul => exact derives_node .mulOperator (.word .nil) rfl
  | .strict .div => exact derives_node .divOperator (.word .nil) rfl
  | .strict .mod => exact derives_node .modOperator (.word .nil) rfl

theorem Stands.binary {span : Span} {op : BinOp} (first : Stands op.tier.rank tokens left)
    (second : Stands (op.tier.rank + 1) more right) :
    Stands op.tier.rank (tokens ++ .fixed op.word :: more) (.binary span op left right) := by
  rw [stands_rank] at first ⊢
  obtain ⟨operand, same, second⟩ := second.operand
  have kids := DerivesAll.cons first (.cons (derives_operator op) (.single second))
  refine derives_node (.link op.tier) kids ?_
  change Expr.binary (left.unplaced.span.merge (op.tier.operandExpr operand).span) op _
    (op.tier.operandExpr operand) = _
  rw [same, Expr.unplaced, Expr.span_mapSpans, Expr.span_mapSpans]
  rfl

end Standing

section Programs

variable {span : Span} {e : Expr}

theorem stands_primary (primary : (nonterminal .primary).Derives tokens e.unplaced) :
    Stands 8 tokens e :=
  derives_node .primaryPostfixed (.single primary) rfl

theorem stands_literal (literal : (nonterminal .literal).Derives tokens e.unplaced) :
    Stands 8 tokens e :=
  stands_primary (derives_node .literalPrimary
    (.single (derives_node .placedLiteral (.single literal) rfl)) rfl)

theorem derives_ident (name : String) : (nonterminal .ident).Derives [.ident name] name :=
  derives_node .ident (.single (derives_token (.ident name))) rfl

theorem derives_placedIdent (name : String) :
    (nonterminal .placedIdent).Derives [.ident name] (name, default) :=
  derives_node .placedIdent (.single (derives_ident name)) rfl

theorem tokensAll_eq_map (es : List Expr) : tokensAll es = es.map Expr.tokens := by
  induction es with
  | nil => rfl
  | cons e rest ih => rw [tokensAll, ih, List.map_cons]

theorem derives_exprs {es : List Expr} (each : ∀ e ∈ es, Stands e.binding e.tokens e) :
    (nonterminal (.list .expr)).Derives (Token.listed (tokensAll es)) (unplacedAll es) := by
  have whole : ∀ e ∈ es, (nonterminal Listed.expr.element).Derives e.tokens e.unplaced :=
    fun e member => (each e member).loosen (Nat.zero_le _)
  rw [tokensAll_eq_map, unplacedAll, mapSpansAll_eq_map]
  exact derives_list whole

theorem derives_params (params : List String) :
    (nonterminal (.list .ident)).Derives (Token.listed (params.map fun name => [.ident name]))
      params := by
  have each : ∀ name ∈ params, (nonterminal Listed.ident.element).Derives [.ident name] name :=
    fun name _ => derives_ident name
  have derived : (nonterminal (.list .ident)).Derives _ (params.map id) := derives_list each
  rwa [List.map_id] at derived

theorem derives_statement {stmt : Stmt} (each : ∀ e ∈ stmt.parts, Stands e.binding e.tokens e) :
    (nonterminal .statement).Derives stmt.tokens stmt.unplaced := by
  have plain : (nonterminal .plainStatement).Derives stmt.tokens stmt.unplaced := by
    have whole {e : Expr} (member : e ∈ stmt.parts) :
        (nonterminal .expr).Derives e.tokens e.unplaced := (each e member).loosen (Nat.zero_le _)
    match stmt with
    | .bind span name e =>
      have value := whole (e := e) List.mem_cons_self
      exact derives_node .binding (.word (.cons (derives_ident name)
        (.word (.cons value (.word .nil))))) rfl
    | .result span none => exact derives_node .result (.word (.word .nil)) rfl
    | .result span (some e) =>
      have value := whole (e := e) List.mem_cons_self
      exact derives_node .resultOf (.word (.cons value (.word .nil))) rfl
    | .expr span e =>
      have value := whole (e := e) List.mem_cons_self
      exact derives_node .exprStatement (.cons value (.word .nil)) rfl
  exact derives_node .statement (.single plain) rfl

structure Expr.Written (e : Expr) : Prop where
  value : e.isBlock = false → Stands e.binding e.tokens e
  block : e.isBlock = true → (nonterminal .block).Derives e.tokens e.unplaced
  cond : e.isCond = true → (nonterminal .conditional).Derives e.tokens e.unplaced

theorem Expr.span_unplaced (e : Expr) : e.unplaced.span = default :=
  e.span_mapSpans nowhere

theorem Expr.written_of_stands (plain : (e.isBlock || e.isCond) = false)
    (stands : Stands e.binding e.tokens e) : e.Written := by
  obtain ⟨open', plain⟩ := Bool.or_eq_false_iff.mp plain
  exact ⟨fun _ => stands, fun block => by simp [block] at open', fun cond => by simp [cond] at plain⟩

theorem Expr.written_of_parts (value : ∀ part ∈ e.values, Stands part.binding part.tokens part)
    (bodies : ∀ part ∈ e.bodies, (nonterminal .block).Derives part.tokens part.unplaced)
    (alternatives : ∀ part ∈ e.alternatives,
      (nonterminal .alternative).Derives part.tokens part.unplaced) : e.Written := by
  match e with
  | .int span n =>
    exact written_of_stands rfl (stands_literal
      (derives_node .intLiteral (.single (derives_token (.int n))) rfl))
  | .uint span n =>
    exact written_of_stands rfl (stands_literal
      (derives_node .uintLiteral (.single (derives_token (.uint n))) rfl))
  | .float span x =>
    exact written_of_stands rfl (stands_literal
      (derives_node .floatLiteral (.single (derives_token (.float x))) rfl))
  | .str span s =>
    exact written_of_stands rfl (stands_literal
      (derives_node .stringLiteral (.single (derives_token (.string s))) rfl))
  | .bool span true =>
    exact written_of_stands rfl (stands_literal (derives_node .trueLiteral (.word .nil) rfl))
  | .bool span false =>
    exact written_of_stands rfl (stands_literal (derives_node .falseLiteral (.word .nil) rfl))
  | .nil span =>
    exact written_of_stands rfl (stands_literal (derives_node .nilLiteral (.word .nil) rfl))
  | .var span name =>
    exact written_of_stands rfl (stands_primary
      (derives_node .identPrimary (.single (derives_placedIdent name)) rfl))
  | .array span members =>
    exact written_of_stands rfl (stands_primary
      (derives_node .array (.word (.cons (derives_exprs value) (.word .nil))) rfl))
  | .binary span op left right =>
    have first := value left List.mem_cons_self
    have second := value right (List.mem_cons_of_mem _ List.mem_cons_self)
    exact written_of_stands rfl ((first.grouped _).binary (second.grouped _))
  | .unary span op operand =>
    have operand := (value operand List.mem_cons_self).grouped 7
    cases op with
    | neg => exact written_of_stands rfl (derives_node .negation (.word (.single operand)) rfl)
    | not => exact written_of_stands rfl (derives_node .complement (.word (.single operand)) rfl)
  | .cond span test consequence none =>
    have test := derives_level ((value test List.mem_cons_self).grouped 1)
    have consequence := bodies consequence List.mem_cons_self
    have whole : (nonterminal .conditional).Derives _ (Expr.cond span _ _ none).unplaced :=
      derives_node .ifThen (.word (.cons test (.single consequence))) rfl
    exact ⟨fun _ => derives_node .conditionalExpr (.single whole) rfl, fun h => (by cases h),
      fun _ => whole⟩
  | .cond span test consequence (some alternative) =>
    have test := derives_level ((value test List.mem_cons_self).grouped 1)
    have consequence := bodies consequence List.mem_cons_self
    have alternative := alternatives alternative List.mem_cons_self
    have whole : (nonterminal .conditional).Derives _ (Expr.cond span _ _ (some _)).unplaced :=
      derives_node .ifThenElse
        (.word (.cons test (.cons consequence (.word (.single alternative))))) rfl
    exact ⟨fun _ => derives_node .conditionalExpr (.single whole) rfl, fun h => (by cases h),
      fun _ => whole⟩
  | .block span stmts =>
    have body := derives_body fun stmt inside => derives_statement fun e member =>
      value e (List.mem_flatMap.mpr ⟨stmt, inside, member⟩)
    exact ⟨fun h => (by cases h), fun _ => derives_node .block (.word (.cons body (.word .nil))) rfl,
      fun h => (by cases h)⟩
  | .function span params body =>
    have body := bodies body List.mem_cons_self
    exact written_of_stands rfl (stands_primary (derives_node .function
      (.word (.word (.cons (derives_params params) (.word (.single body))))) rfl))
  | .call span callee args =>
    have first := (value callee List.mem_cons_self).grouped 8
    have others := derives_exprs fun arg member => value arg (List.mem_cons_of_mem _ member)
    refine written_of_stands rfl
      (derives_node .call (.cons first (.word (.cons others (.word .nil)))) ?_)
    change Expr.call ⟨callee.unplaced.span.start, _⟩ _ _ = _
    rw [callee.span_unplaced]
    rfl
  | .method span receiver name nameSpan args =>
    have first := (value receiver List.mem_cons_self).grouped 8
    have others := derives_exprs fun arg member => value arg (List.mem_cons_of_mem _ member)
    refine written_of_stands rfl (derives_node .method (.cons first (.word
      (.cons (derives_placedIdent name) (.word (.cons others (.word .nil)))))) ?_)
    change Expr.method ⟨receiver.unplaced.span.start, _⟩ _ _ _ _ = _
    rw [receiver.span_unplaced]
    rfl
  | .index span target position =>
    have first := (value target List.mem_cons_self).grouped 8
    have inside : (nonterminal .expr).Derives position.tokens position.unplaced :=
      (value position (List.mem_cons_of_mem _ List.mem_cons_self)).loosen (Nat.zero_le _)
    refine written_of_stands rfl
      (derives_node .index (.cons first (.word (.cons inside (.word .nil)))) ?_)
    change Expr.index ⟨target.unplaced.span.start, _⟩ _ _ = _
    rw [target.span_unplaced]
    rfl

theorem Expr.Written.alternative (written : e.Written)
    (due : (e.isBlock || e.isCond) = true) :
    (nonterminal .alternative).Derives e.tokens e.unplaced := by
  rcases Bool.or_eq_true_iff.mp due with block | cond
  · exact derives_node .blockAlternative (.single (written.block block)) rfl
  · exact derives_node .conditionalAlternative (.single (written.cond cond)) rfl

theorem Expr.values_subset (e : Expr) : e.values ⊆ e.parts := by
  cases e <;> simp [values, parts]

theorem Expr.bodies_subset (e : Expr) : e.bodies ⊆ e.parts := by
  cases e <;> simp [bodies, parts]

theorem Expr.alternatives_subset (e : Expr) : e.alternatives ⊆ e.parts := by
  cases e <;> simp [alternatives, parts]

theorem Expr.Shaped.written (shaped : e.Shaped) : e.Written := by
  induction shaped with
  | @mk e values bodies alternatives _ ih =>
    refine written_of_parts (fun part member => ?_) (fun part member => ?_) fun part member => ?_
    · exact (ih part (e.values_subset member)).value (values part member)
    · exact (ih part (e.bodies_subset member)).block (bodies part member)
    · exact (ih part (e.alternatives_subset member)).alternative (alternatives part member)

end Programs

end Deriving

/-- However the tokens of a program are placed, they are read back as that program with other
    places. -/
theorem Program.ofLexemes_tokens (program : Program) (shaped : program.Shaped)
    (lexemes : List Lexeme) (written : lexemes.map (·.token) = program.tokens) :
    ∃ read, Program.ofLexemes lexemes = .ok read ∧ read.unplaced = program.unplaced := by
  have each : ∀ stmt ∈ program.body,
      (Symbol.nonterminal .statement).Derives stmt.tokens stmt.unplaced := fun stmt inside =>
    derives_statement fun e member =>
      (shaped stmt inside e member).2.written.value (shaped stmt inside e member).1
  obtain ⟨tree, whole, same⟩ := derives_body each lexemes written
  obtain ⟨parts, rfl, value⟩ := Tree.body_iff.mp ⟨tree, whole, rfl⟩
  exact ⟨⟨tree.value⟩, ofLexemes_eq_ok_iff.mpr ⟨parts, rfl, value⟩, congrArg Program.mk same⟩

/-- A right operand of the same tier needs its parentheses. -/
theorem Program.ofLexemes_tokens_nested :
    ∃ lexemes read, Lexeme.ofText "1 - (2 - 3);".toList = .ok lexemes ∧
      Program.ofLexemes lexemes = .ok read ∧
      read.unplaced = ⟨[.expr default (.binary default (.strict .sub) (.int default 1)
        (.binary default (.strict .sub) (.int default 2) (.int default 3)))]⟩ := by
  obtain ⟨program, shaped, bare, lexemes, text, written⟩ : ∃ program : Program, program.Shaped ∧
      program.unplaced = ⟨[.expr default (.binary default (.strict .sub) (.int default 1)
        (.binary default (.strict .sub) (.int default 2) (.int default 3)))]⟩ ∧
      ∃ lexemes, Lexeme.ofText "1 - (2 - 3);".toList = .ok lexemes ∧
        lexemes.map (·.token) = program.tokens := by
    have leaf (n : Int64) : (Expr.int default n).Shaped := by
      constructor <;> simp [Expr.values, Expr.bodies, Expr.alternatives, Expr.parts]
    have difference {left right : Expr} (first : left.isBlock = false ∧ left.Shaped)
        (second : right.isBlock = false ∧ right.Shaped) :
        (Expr.binary default (.strict .sub) left right).Shaped := by
      constructor <;>
        simp [Expr.values, Expr.bodies, Expr.alternatives, Expr.parts, first, second]
    have nested := difference ⟨rfl, leaf 1⟩ ⟨rfl, difference ⟨rfl, leaf 2⟩ ⟨rfl, leaf 3⟩⟩
    refine ⟨⟨[.expr default (.binary default (.strict .sub) (.int default 1)
      (.binary default (.strict .sub) (.int default 2) (.int default 3)))]⟩, ?_, rfl,
      [⟨.int 1, 0, 1⟩, ⟨.fixed .minus, 2, 3⟩, ⟨.fixed .leftParen, 4, 5⟩, ⟨.int 2, 5, 6⟩,
        ⟨.fixed .minus, 7, 8⟩, ⟨.int 3, 9, 10⟩, ⟨.fixed .rightParen, 10, 11⟩,
        ⟨.fixed .semicolon, 11, 12⟩], by cbv, rfl⟩
    simpa [Program.Shaped, Stmt.parts, Expr.isBlock] using nested
  obtain ⟨read, parsed, same⟩ := Program.ofLexemes_tokens program shaped lexemes written
  exact ⟨lexemes, read, text, parsed, same.trans bare⟩

end MonkeyLang
