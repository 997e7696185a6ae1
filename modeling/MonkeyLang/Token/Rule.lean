import MonkeyLang.Token
import MonkeyLang.Token.Pattern

namespace MonkeyLang

structure LexicalRule where
  pattern : Pattern
  kind : Option TokenKind

namespace LexicalRule

open Pattern

def ofFixed (word : Fixed) : LexicalRule :=
  ⟨exactly word.spelling.toList, some (.fixed word)⟩

def digits : Pattern := plus (char .digit)

def exponent : Pattern :=
  seq (char (.ofChars ['e', 'E'])) (seq (optional (char (.ofChars ['+', '-']))) digits)

def float : LexicalRule :=
  ⟨seq digits (seq (char (.ofChar '.')) (seq digits (optional exponent))), some .float⟩

def uint : LexicalRule := ⟨seq digits (char (.ofChar 'u')), some .uint⟩

def int : LexicalRule := ⟨digits, some .int⟩

/-- A string literal up to its closing quote: the opening one, then characters and escapes. A
    backslash and the character after it are an escape, unless that is a newline. -/
def openString : Pattern :=
  seq (char (.ofChar '"')) (star (alt (char (.except ['"', '\\']))
    (seq (char (.ofChar '\\')) (char (.except ['\n'])))))

def string : LexicalRule := ⟨seq openString (char (.ofChar '"')), some .string⟩

def ident : LexicalRule := ⟨seq (char .nameStart) (star (char .namePart)), some .ident⟩

def blanks : LexicalRule := ⟨plus (char (.ofChars [' ', '\t', '\n', '\r'])), none⟩

def comment : LexicalRule :=
  ⟨seq (exactly ['/', '/']) (star (char (.except ['\n']))), none⟩

/-- All rules. Of two that match the same text, the earlier one counts. -/
def all : List LexicalRule :=
  (Fixed.keywords ++ Fixed.symbols ++ Fixed.operators).map ofFixed ++
    [float, uint, int, string, ident, blanks, comment]

end LexicalRule

namespace Decimal

def isDigit (c : Char) : Bool := (digit? c).isSome

/-- From here on no further digit of an exponent is read: the number is out of range, unless
    about as many digits stand against it. -/
def exponentLimit : Nat := 0x10000

def exponentOf (cs : List Char) : Nat :=
  cs.foldl (fun n c => match digit? c with
    | some d => if n < exponentLimit then n * 10 + d else n
    | none => n) 0

def ofLiteral (text : List Char) : Decimal :=
  let whole := text.takeWhile isDigit
  let rest := (text.dropWhile isDigit).drop 1
  let fraction := rest.takeWhile isDigit
  let exponent := (rest.dropWhile isDigit).drop 1
  let size : Int := exponentOf exponent
  ofParts whole fraction (if exponent.head? = some '-' then -size else size)

end Decimal

namespace Text

/-- The characters that an escape stands for: an unknown one stands for itself. -/
def escaped : Char → List Char
  | 'n' => ['\n']
  | 't' => ['\t']
  | 'r' => ['\r']
  | '\\' => ['\\']
  | '"' => ['"']
  | c => ['\\', c]

def unescape : List Char → List Char
  | [] => []
  | '\\' :: c :: rest => escaped c ++ unescape rest
  | c :: rest => c :: unescape rest

def inner (cs : List Char) : List Char := (cs.drop 1).dropLast

end Text

namespace TokenKind

/-- What a token with this text carries; `none` if a number does not fit its kind: signed ones are
    below 2 ^ 63, unsigned ones below 2 ^ 64. -/
def read? (text : List Char) : (kind : TokenKind) → Option kind.Payload
  | .fixed _ => some ()
  | .int =>
    let n := Decimal.natOf text
    if n < 0x8000000000000000 then some (Int64.ofNat n) else none
  | .uint =>
    let n := Decimal.natOf text
    if n < 0x10000000000000000 then some (UInt64.ofNat n) else none
  | .float => some (Decimal.ofLiteral text).toFloat
  | .string => some (String.ofList (Text.unescape (Text.inner text)))
  | .ident => some (String.ofList text)

end TokenKind

end MonkeyLang
