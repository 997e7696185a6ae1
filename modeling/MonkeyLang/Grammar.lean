import MonkeyLang.Ast
import MonkeyLang.Token

/-!
The grammar. A production is typed by its two sides, so that its constructor reads as the rule
itself; `Production.all` numbers the productions. Statements end in a semicolon, except a
conditional in statement position and the last expression of a body.
-/

namespace MonkeyLang

/-- The levels of binary operators, from the loosest to the tightest. -/
inductive Tier
  | or | and | equality | comparison | sum | product
deriving DecidableEq, Inhabited

inductive Listed
  | expr | ident
deriving DecidableEq, Inhabited

inductive Nonterminal
  | program | body | statements | statement | plainStatement
  | expr | conditional | alternative | block
  /-- An expression whose loosest operator belongs to the tier, or to a tighter one. -/
  | level (tier : Tier)
  /-- The operands of the tier, joined by its operators from the left. -/
  | chain (tier : Tier)
  | operator (tier : Tier)
  | unary | postfixed | primary
  | placedLiteral | literal | placedIdent | ident
  /-- A list that may be empty and may end in a comma. -/
  | list (of : Listed)
  /-- A list that is not empty and ends in a comma. -/
  | closedList (of : Listed)
deriving DecidableEq, Inhabited

inductive Symbol
  | terminal (kind : TokenKind)
  | nonterminal (name : Nonterminal)
deriving DecidableEq, Inhabited

namespace Symbol

abbrev word (w : Fixed) : Symbol := terminal (.fixed w)

end Symbol

abbrev Listed.element : Listed → Nonterminal
  | expr => .expr
  | ident => .ident

abbrev Tier.operand : Tier → Nonterminal
  | or => .level .and
  | and => .level .equality
  | equality => .level .comparison
  | comparison => .level .sum
  | sum => .level .product
  | product => .unary

open MonkeyLang.Nonterminal MonkeyLang.Symbol MonkeyLang.Fixed in
/-- `Production lhs rhs`: the nonterminal on the left may be written as the symbols on the
    right. -/
inductive Production : Nonterminal → List Symbol → Type
  | program : Production program [nonterminal body]
  | emptyBody : Production body []
  | tailBody : Production body [nonterminal (level .or)]
  | statementsBody : Production body [nonterminal statements]
  | fullBody : Production body [nonterminal statements, nonterminal (level .or)]
  | firstStatement : Production statements [nonterminal statement]
  | nextStatement : Production statements [nonterminal statements, nonterminal statement]
  | statement : Production statement [nonterminal plainStatement]
  | binding : Production plainStatement
      [word letKey, nonterminal ident, word assign, nonterminal expr, word semicolon]
  | resultOf : Production plainStatement [word returnKey, nonterminal expr, word semicolon]
  | result : Production plainStatement [word returnKey, word semicolon]
  | exprStatement : Production plainStatement [nonterminal expr, word semicolon]
  | conditionalStatement : Production plainStatement [nonterminal conditional]
  | conditionalExpr : Production expr [nonterminal conditional]
  | levelExpr : Production expr [nonterminal (level .or)]
  | ifThen : Production conditional
      [word ifKey, nonterminal (level .or), nonterminal block]
  | ifThenElse : Production conditional
      [word ifKey, nonterminal (level .or), nonterminal block, word elseKey,
        nonterminal alternative]
  | blockAlternative : Production alternative [nonterminal block]
  | conditionalAlternative : Production alternative [nonterminal conditional]
  | block : Production block [word leftBrace, nonterminal body, word rightBrace]
  | level (tier : Tier) : Production (level tier) [nonterminal (chain tier)]
  | link (tier : Tier) : Production (chain tier)
      [nonterminal (chain tier), nonterminal (operator tier), nonterminal tier.operand]
  | chain (tier : Tier) : Production (chain tier) [nonterminal tier.operand]
  | orOperator : Production (operator .or) [word orOr]
  | andOperator : Production (operator .and) [word andAnd]
  | eqOperator : Production (operator .equality) [word equal]
  | neOperator : Production (operator .equality) [word notEqual]
  | ltOperator : Production (operator .comparison) [word less]
  | gtOperator : Production (operator .comparison) [word greater]
  | leOperator : Production (operator .comparison) [word lessEqual]
  | geOperator : Production (operator .comparison) [word greaterEqual]
  | addOperator : Production (operator .sum) [word plus]
  | subOperator : Production (operator .sum) [word minus]
  | mulOperator : Production (operator .product) [word star]
  | divOperator : Production (operator .product) [word slash]
  | modOperator : Production (operator .product) [word percent]
  | negation : Production unary [word minus, nonterminal unary]
  | complement : Production unary [word bang, nonterminal unary]
  | postfixedUnary : Production unary [nonterminal postfixed]
  | call : Production postfixed
      [nonterminal postfixed, word leftParen, nonterminal (list .expr), word rightParen]
  | method : Production postfixed
      [nonterminal postfixed, word dot, nonterminal placedIdent, word leftParen,
        nonterminal (list .expr), word rightParen]
  | index : Production postfixed
      [nonterminal postfixed, word leftBracket, nonterminal expr, word rightBracket]
  | primaryPostfixed : Production postfixed [nonterminal primary]
  | literalPrimary : Production primary [nonterminal placedLiteral]
  | identPrimary : Production primary [nonterminal placedIdent]
  | grouping : Production primary [word leftParen, nonterminal expr, word rightParen]
  | array : Production primary
      [word leftBracket, nonterminal (list .expr), word rightBracket]
  | function : Production primary
      [word fnKey, word leftParen, nonterminal (list .ident), word rightParen,
        nonterminal block]
  | placedLiteral : Production placedLiteral [nonterminal literal]
  | intLiteral : Production literal [terminal .int]
  | uintLiteral : Production literal [terminal .uint]
  | floatLiteral : Production literal [terminal .float]
  | stringLiteral : Production literal [terminal .string]
  | trueLiteral : Production literal [word trueKey]
  | falseLiteral : Production literal [word falseKey]
  | nilLiteral : Production literal [word nilKey]
  | placedIdent : Production placedIdent [nonterminal ident]
  | ident : Production ident [terminal .ident]
  | emptyList (of : Listed) : Production (list of) []
  | oneList (of : Listed) : Production (list of) [nonterminal of.element]
  | commaList (of : Listed) : Production (list of) [nonterminal (closedList of)]
  | openList (of : Listed) : Production (list of)
      [nonterminal (closedList of), nonterminal of.element]
  | firstClosed (of : Listed) : Production (closedList of) [nonterminal of.element, word comma]
  | nextClosed (of : Listed) : Production (closedList of)
      [nonterminal (closedList of), nonterminal of.element, word comma]

structure GrammarRule where
  {lhs : Nonterminal}
  {rhs : List Symbol}
  production : Production lhs rhs

namespace Tier

def all : List Tier := [or, and, equality, comparison, sum, product]

end Tier

namespace Listed

def all : List Listed := [expr, ident]

end Listed

namespace Production

/-- All productions. The number of a production is its place in this list. -/
def all : List GrammarRule :=
  [⟨program⟩, ⟨emptyBody⟩, ⟨tailBody⟩, ⟨statementsBody⟩, ⟨fullBody⟩, ⟨firstStatement⟩,
   ⟨nextStatement⟩, ⟨statement⟩, ⟨binding⟩, ⟨resultOf⟩, ⟨result⟩, ⟨exprStatement⟩,
   ⟨conditionalStatement⟩, ⟨conditionalExpr⟩, ⟨levelExpr⟩, ⟨ifThen⟩, ⟨ifThenElse⟩,
   ⟨blockAlternative⟩, ⟨conditionalAlternative⟩, ⟨block⟩] ++
  Tier.all.flatMap (fun tier => [⟨level tier⟩, ⟨link tier⟩, ⟨chain tier⟩]) ++
  [⟨orOperator⟩, ⟨andOperator⟩, ⟨eqOperator⟩, ⟨neOperator⟩, ⟨ltOperator⟩, ⟨gtOperator⟩,
   ⟨leOperator⟩, ⟨geOperator⟩, ⟨addOperator⟩, ⟨subOperator⟩, ⟨mulOperator⟩, ⟨divOperator⟩,
   ⟨modOperator⟩, ⟨negation⟩, ⟨complement⟩, ⟨postfixedUnary⟩, ⟨call⟩, ⟨method⟩, ⟨index⟩,
   ⟨primaryPostfixed⟩, ⟨literalPrimary⟩, ⟨identPrimary⟩, ⟨grouping⟩, ⟨array⟩, ⟨function⟩,
   ⟨placedLiteral⟩, ⟨intLiteral⟩, ⟨uintLiteral⟩, ⟨floatLiteral⟩, ⟨stringLiteral⟩, ⟨trueLiteral⟩,
   ⟨falseLiteral⟩, ⟨nilLiteral⟩, ⟨placedIdent⟩, ⟨ident⟩] ++
  Listed.all.flatMap (fun of => [⟨emptyList of⟩, ⟨oneList of⟩, ⟨commaList of⟩, ⟨openList of⟩,
    ⟨firstClosed of⟩, ⟨nextClosed of⟩])

end Production

namespace Nonterminal

def all : List Nonterminal :=
  [program, body, statements, statement, plainStatement, expr, conditional, alternative, block] ++
  Tier.all.flatMap (fun tier => [level tier, chain tier, operator tier]) ++
  [unary, postfixed, primary, placedLiteral, literal, placedIdent, ident] ++
  Listed.all.flatMap (fun of => [list of, closedList of])

end Nonterminal

end MonkeyLang
