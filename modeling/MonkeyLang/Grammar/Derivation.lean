import MonkeyLang.Grammar.Automaton
import MonkeyLang.Grammar.Tree

/-!
The derivation of a list of lexemes. The automaton runs over the lexemes with a stack of trees;
where it has no action the lexemes up to there are not the beginning of any program, and the
token kinds that could have stood there are found by trying each of them.
-/

namespace MonkeyLang

structure StackEntry where
  {symbol : Symbol}
  tree : Tree symbol
  state : Nat

abbrev Stack := List StackEntry

namespace Stack

def state : Stack → Nat
  | [] => 0
  | entry :: _ => entry.state

def take? : (symbols : List Symbol) → Stack → Option (Forest symbols × Stack)
  | [], stack => some (.nil, stack)
  | s :: rest, stack =>
    match take? rest stack with
    | some (trees, entry :: below) =>
      if h : entry.symbol = s then some (.cons (h ▸ entry.tree) trees, below) else none
    | _ => none

def reduce? (rule : GrammarRule) (stack : Stack) : Option Stack :=
  match take? rule.rhs stack with
  | none => none
  | some (kids, below) =>
    (Automaton.goto (state below) rule.lhs).map fun next =>
      ⟨.node rule.production kids, next⟩ :: below

def finish? (stack : Stack) : Option (Tree (.nonterminal .program)) :=
  match take? [.nonterminal .body] stack with
  | some (kids, []) => some (.node .program kids)
  | _ => none

end Stack

inductive Settled
  | shift (target : Nat) (stack : Stack)
  | finish (tree : Tree (.nonterminal .program))
  | stuck (stack : Stack)

namespace Stack

def settleIn (lookahead : Lookahead) : Nat → Stack → Settled
  | 0, stack => .stuck stack
  | fuel + 1, stack =>
    match Automaton.action stack.state lookahead with
    | none => .stuck stack
    | some (.shift target) => .shift target stack
    | some (.reduce 0) =>
      match stack.finish? with
      | some tree => .finish tree
      | none => .stuck stack
    | some (.reduce number) =>
      match Production.all[number]? with
      | none => .stuck stack
      | some rule =>
        match stack.reduce? rule with
        | some next => settleIn lookahead fuel next
        | none => .stuck stack

/-- More reductions than a stack of some height admits: each of those that take two or more trees
    makes it lower, and between them every nonterminal appears at most once. -/
def reductionLimit (height : Nat) : Nat :=
  (height + 2) * (Automaton.nonterminalCount + 1)

def settle (lookahead : Lookahead) (stack : Stack) : Settled :=
  settleIn lookahead (reductionLimit stack.length) stack

def admits (stack : Stack) (kind : TokenKind) : Bool :=
  match stack.settle (some kind) with
  | .shift _ _ => true
  | _ => false

def expected (stack : Stack) : List TokenKind :=
  TokenKind.all.filter stack.admits

end Stack

inductive ParseError
  | unexpected (found : Lexeme) (expected : List TokenKind)
  /-- The lexemes end too soon; `offset` is the end of the last one. -/
  | unexpectedEnd (offset : Nat) (expected : List TokenKind)

namespace ParseError

def expected : ParseError → List TokenKind
  | unexpected _ kinds | unexpectedEnd _ kinds => kinds

def span : ParseError → Span
  | unexpected found _ => found.span
  | unexpectedEnd offset _ => ⟨offset - 1, offset⟩

def summary : ParseError → String
  | unexpected found _ =>
    "Unrecognized token `" ++ String.ofList found.token.text ++
      s!"` found at {found.span.start}:{found.span.stop}"
  | unexpectedEnd offset _ => s!"Unrecognized EOF found at {offset}"

def listing : List TokenKind → String
  | [] => ""
  | [kind] => s!"\"{kind.name}\""
  | [kind, last] => s!"\"{kind.name}\" or \"{last.name}\""
  | kind :: rest => s!"\"{kind.name}\", " ++ listing rest

def message (e : ParseError) : String :=
  match e.expected with
  | [] => e.summary
  | kinds => e.summary ++ "\nExpected one of " ++ listing kinds

end ParseError

/-- Runs the automaton over the lexemes; `offset` is where the last lexeme ended. -/
def Stack.derive (stack : Stack) (offset : Nat) :
    List Lexeme → Except ParseError (Tree (.nonterminal .program))
  | [] =>
    match stack.settle none with
    | .finish tree => .ok tree
    | .shift _ stack | .stuck stack => .error (.unexpectedEnd offset stack.expected)
  | found :: rest =>
    match stack.settle (some found.token.kind) with
    | .shift target stack =>
      Stack.derive (⟨.ofLexeme found, target⟩ :: stack) found.span.stop rest
    | .stuck stack => .error (.unexpected found stack.expected)
    | .finish _ => .error (.unexpected found stack.expected)

def Tree.ofLexemes (lexemes : List Lexeme) :
    Except ParseError (Tree (.nonterminal .program)) :=
  Stack.derive [] 0 lexemes

def Program.ofLexemes (lexemes : List Lexeme) : Except ParseError Program :=
  (Tree.ofLexemes lexemes).map Tree.value

inductive SourceError
  | lexical (error : LexicalError)
  | parse (error : ParseError)

namespace SourceError

def span : SourceError → Span
  | lexical e => e.span
  | parse e => e.span

def message : SourceError → String
  | lexical e => e.message
  | parse e => e.message

def stage : SourceError → String
  | lexical _ => "Lexer"
  | parse _ => "Parser"

def describe (e : SourceError) : String :=
  s!"{e.stage} error at {e.span.describe}: {e.message}"

end SourceError

def Program.ofText (text : List Char) : Except SourceError Program :=
  match Lexeme.ofText text with
  | .error e => .error (.lexical e)
  | .ok lexemes =>
    match Program.ofLexemes lexemes with
    | .error e => .error (.parse e)
    | .ok program => .ok program

end MonkeyLang
