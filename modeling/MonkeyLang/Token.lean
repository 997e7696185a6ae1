import MonkeyLang.Number.Layout
import MonkeyLang.Text.Quoted

/-!
Tokens. A token has a kind, which is all that the grammar looks at, and a payload that depends on
the kind: the value of a literal, the name of an identifier, nothing for the other kinds.
-/

namespace MonkeyLang

inductive Fixed
  | letKey | returnKey | ifKey | elseKey | fnKey | trueKey | falseKey | nilKey
  | dot | assign | semicolon | comma
  | leftParen | rightParen | leftBrace | rightBrace | leftBracket | rightBracket
  | plus | minus | star | slash | percent | bang
  | equal | notEqual | less | greater | lessEqual | greaterEqual | andAnd | orOr
deriving DecidableEq, Inhabited

namespace Fixed

def spelling : Fixed → String
  | letKey => "let"
  | returnKey => "return"
  | ifKey => "if"
  | elseKey => "else"
  | fnKey => "fn"
  | trueKey => "true"
  | falseKey => "false"
  | nilKey => "nil"
  | dot => "."
  | assign => "="
  | semicolon => ";"
  | comma => ","
  | leftParen => "("
  | rightParen => ")"
  | leftBrace => "\x7b"
  | rightBrace => "\x7d"
  | leftBracket => "["
  | rightBracket => "]"
  | plus => "+"
  | minus => "-"
  | star => "*"
  | slash => "/"
  | percent => "%"
  | bang => "!"
  | equal => "=="
  | notEqual => "!="
  | less => "<"
  | greater => ">"
  | lessEqual => "<="
  | greaterEqual => ">="
  | andAnd => "&&"
  | orOr => "||"

def label : Fixed → String
  | letKey => "Let"
  | returnKey => "Return"
  | ifKey => "If"
  | elseKey => "Else"
  | fnKey => "Fn"
  | trueKey => "True"
  | falseKey => "False"
  | nilKey => "Nil"
  | dot => "Dot"
  | assign => "Eq"
  | semicolon => "Semi"
  | comma => "Comma"
  | leftParen => "LParen"
  | rightParen => "RParen"
  | leftBrace => "LBrace"
  | rightBrace => "RBrace"
  | leftBracket => "LBracket"
  | rightBracket => "RBracket"
  | plus => "Plus"
  | minus => "Minus"
  | star => "Star"
  | slash => "Slash"
  | percent => "Percent"
  | bang => "Bang"
  | equal => "EqEq"
  | notEqual => "NotEq"
  | less => "Lt"
  | greater => "Gt"
  | lessEqual => "LtEq"
  | greaterEqual => "GtEq"
  | andAnd => "AndAnd"
  | orOr => "OrOr"

def keywords : List Fixed :=
  [letKey, returnKey, ifKey, elseKey, fnKey, trueKey, falseKey, nilKey]

def symbols : List Fixed :=
  [dot, assign, semicolon, comma, leftParen, rightParen, leftBrace, rightBrace, leftBracket,
   rightBracket]

def operators : List Fixed :=
  [plus, minus, star, slash, percent, bang, equal, notEqual, less, greater, lessEqual,
   greaterEqual, andAnd, orOr]

end Fixed

inductive TokenKind
  | fixed (word : Fixed)
  | int | uint | float | string | ident
deriving DecidableEq, Inhabited

namespace TokenKind

/-- All kinds, in the order in which expected ones are listed. -/
def all : List TokenKind :=
  Fixed.keywords.map fixed ++ [int, uint, float, string, ident] ++
    Fixed.symbols.map fixed ++ Fixed.operators.map fixed

abbrev Payload : TokenKind → Type
  | fixed _ => Unit
  | int => Int64
  | uint => UInt64
  | float => Float
  | string => String
  | ident => String

def name : TokenKind → String
  | fixed word => word.spelling
  | int => "int"
  | uint => "uint"
  | float => "float"
  | string => "string"
  | ident => "ident"

end TokenKind

structure Token where
  kind : TokenKind
  payload : kind.Payload

namespace Token

def fixed (word : Fixed) : Token := ⟨.fixed word, ()⟩
def int (n : Int64) : Token := ⟨.int, n⟩
def uint (n : UInt64) : Token := ⟨.uint, n⟩
def float (x : Float) : Token := ⟨.float, x⟩
def string (s : String) : Token := ⟨.string, s⟩
def ident (name : String) : Token := ⟨.ident, name⟩

def text : Token → List Char
  | ⟨.fixed word, _⟩ => word.spelling.toList
  | ⟨.int, n⟩ => (toString n.toInt).toList
  | ⟨.uint, n⟩ => (toString n.toNat).toList ++ ['u']
  | ⟨.float, x⟩ => Layout.display.text x
  | ⟨.string, s⟩ => Text.quoted s.toList
  | ⟨.ident, name⟩ => name.toList

def labelled (label : String) (payload : List Char) : List Char :=
  label.toList ++ '(' :: payload ++ [')']

def listing : Token → List Char
  | ⟨.fixed word, _⟩ => word.label.toList
  | ⟨.int, n⟩ => labelled "IntLit" (toString n.toInt).toList
  | ⟨.uint, n⟩ => labelled "UIntLit" (toString n.toNat).toList
  | ⟨.float, x⟩ => labelled "FloatLit" (Layout.listing.text x)
  | ⟨.string, s⟩ => labelled "StringLit" (Text.quoted s.toList)
  | ⟨.ident, name⟩ => labelled "Ident" (Text.quoted name.toList)

end Token

end MonkeyLang
