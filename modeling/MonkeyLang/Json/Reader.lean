import MonkeyLang.Json
import MonkeyLang.Lines
import MonkeyLang.Text.Bytes

/-!
Reading JSON. The reader takes one character after another; its state is what it expects next
and the lists and objects that are still open. So it is a fold over the characters, and reading
one text after another is reading them joined.
-/

namespace MonkeyLang

namespace Json

inductive Fault
  | endInValue | endInString | endInList | endInObject
  | expectedValue | expectedWord | expectedColon | expectedCommaOrBracket | expectedCommaOrBrace
  | invalidNumber | numberOutOfRange
  | invalidEscape | loneSurrogate | unfinishedPair | controlCharacter
  | keyNotString | trailingComma | trailingCharacters | tooDeep
deriving DecidableEq

namespace Fault

def message : Fault → String
  | endInValue => "EOF while parsing a value"
  | endInString => "EOF while parsing a string"
  | endInList => "EOF while parsing a list"
  | endInObject => "EOF while parsing an object"
  | expectedValue => "expected value"
  | expectedWord => "expected ident"
  | expectedColon => "expected `:`"
  | expectedCommaOrBracket => "expected `,` or `]`"
  | expectedCommaOrBrace => "expected `,` or `\x7d`"
  | invalidNumber => "invalid number"
  | numberOutOfRange => "number out of range"
  | invalidEscape => "invalid escape"
  | loneSurrogate => "lone leading surrogate in hex escape"
  | unfinishedPair => "unexpected end of hex escape"
  | controlCharacter => "control character (\\u0000-\\u001F) found while parsing a string"
  | keyNotString => "key must be a string"
  | trailingComma => "trailing comma"
  | trailingCharacters => "trailing characters"
  | tooDeep => "recursion limit exceeded"

end Fault

structure ReadError where
  fault : Fault
  offset : Nat

def depthLimit : Nat := 128

inductive Open
  | list (items : List Json)
  | object (members : List (String × Json)) (key : String)

/-- Where a value is expected: first of all or behind a colon, just behind the bracket of a list,
    or behind a comma in a list. -/
inductive Place
  | plain | first | next
deriving DecidableEq

inductive NumberPart
  | sign | zero | whole | point | fraction | exponentMark | exponentSign | exponent
deriving DecidableEq

/-- A number that is being read: its digits as one number, how many there are from the first one
    that is not zero, how many are behind the point, how many zeros these end in, and its
    exponent. -/
structure PartialNumber where
  part : NumberPart
  negative : Bool
  digits : Nat
  length : Nat
  scale : Nat
  zeros : Nat
  exponentNegative : Bool
  exponent : Nat

/-- Where in a string the reader is: between characters, behind a backslash, in an escape by code
    unit, with the number of its digits and their value, and for the second half of a pair the
    first one; or behind a first half, or behind that and a backslash. -/
inductive StringPart
  | plain
  | escape
  | hex (count value : Nat) (leading : Option Nat)
  | pair (leading : Nat)
  | pairEscape (leading : Nat)

inductive Mode
  | value (place : Place)
  | word (rest : List Char) (value : Json)
  | number (n : PartialNumber)
  | string (part : StringPart) (chars : List Char) (isKey : Bool)
  /-- The key of a member, or just behind the brace the end of the object. -/
  | key (first : Bool)
  | colon (key : String)
  | after (value : Json)

structure State where
  mode : Mode
  enclosing : List Open

def State.start : State := ⟨.value .plain, []⟩

def isSpace (c : Char) : Bool := c = ' ' || c = '\n' || c = '\t' || c = '\r'

def hexDigit? (c : Char) : Option Nat :=
  if '0' ≤ c && c ≤ '9' then some (c.toNat - '0'.toNat)
  else if 'a' ≤ c && c ≤ 'f' then some (c.toNat - 'a'.toNat + 10)
  else if 'A' ≤ c && c ≤ 'F' then some (c.toNat - 'A'.toNat + 10)
  else none

/-- Exponents from 2 ^ 31 on are not read to their end. -/
def exponentLimit : Nat := 0x80000000

namespace PartialNumber

def start (part : NumberPart) (negative : Bool) (digit : Nat) : PartialNumber :=
  ⟨part, negative, digit, if digit = 0 then 0 else 1, 0, 0, false, 0⟩

def addWhole (n : PartialNumber) (d : Nat) : PartialNumber :=
  { n with digits := n.digits * 10 + d, length := n.length + 1 }

def addFraction (n : PartialNumber) (d : Nat) : PartialNumber :=
  let digits := n.digits * 10 + d
  { n with
    part := .fraction
    digits := digits
    length := if digits = 0 then 0 else n.length + 1
    scale := n.scale + 1
    zeros := if d = 0 then n.zeros + 1 else 0 }

/-- No more digits than these are told apart: a double, and a number half way between two, has
    fewer. -/
def digitLimit : Nat := 768

/-- The size of the number as it is rounded. Zeros at the end of a fraction do not count as
    digits. The digits behind the limit are taken for a single one, whatever they are; so a long
    whole number half way between two doubles is rounded up, even if they are all zeros. -/
def decimal (n : PartialNumber) : Decimal :=
  let power : Int := if n.exponentNegative then -n.exponent else n.exponent
  let exponent := power - n.scale
  if n.length - n.zeros ≤ digitLimit then ⟨n.digits, exponent⟩
  else
    let dropped := n.length - digitLimit
    ⟨n.digits / Nat.pow 10 dropped * 10 + 1, exponent + dropped - 1⟩

def toFloat (n : PartialNumber) : Float :=
  let size := n.decimal.toFloat
  if n.negative then -size else size

/-- The value of a complete number; `none` if it is too large. A number without point and
    exponent is whole if it fits into 64 bits; minus zero is a double. -/
def value? (n : PartialNumber) : Option Json :=
  let whole := n.part = .zero || n.part = .whole
  if whole && !n.negative && n.digits < 0x10000000000000000 then some (.int n.digits)
  else if whole && n.negative && 0 < n.digits && n.digits ≤ 0x8000000000000000 then
    some (.int (-n.digits))
  else
    let size := n.toFloat
    if size.isInf then none else some (.float size)

end PartialNumber

def State.complete (value : Json) (enclosing : List Open) : State := ⟨.after value, enclosing⟩

def takeValue (place : Place) (enclosing : List Open) (c : Char) : Except Fault State :=
  let opened (mode : Mode) (inner : Open) : Except Fault State :=
    if enclosing.length + 1 = depthLimit then .error .tooDeep
    else .ok ⟨mode, inner :: enclosing⟩
  if isSpace c then .ok ⟨.value place, enclosing⟩
  else match c, place with
    | ']', .first =>
      match enclosing with
      | .list items :: outer => .ok (.complete (.list items.reverse) outer)
      | _ => .error .expectedValue
    | ']', .next => .error .trailingComma
    | 'n', _ => .ok ⟨.word ['u', 'l', 'l'] .null, enclosing⟩
    | 't', _ => .ok ⟨.word ['r', 'u', 'e'] (.bool true), enclosing⟩
    | 'f', _ => .ok ⟨.word ['a', 'l', 's', 'e'] (.bool false), enclosing⟩
    | '-', _ => .ok ⟨.number (.start .sign true 0), enclosing⟩
    | '0', _ => .ok ⟨.number (.start .zero false 0), enclosing⟩
    | '"', _ => .ok ⟨.string .plain [] false, enclosing⟩
    | '[', _ => opened (.value .first) (.list [])
    | c, _ =>
      if c.toNat = 0x7b then opened (.key true) (.object [] "")
      else match Decimal.digit? c with
        | some d => .ok ⟨.number (.start .whole false d), enclosing⟩
        | none => .error .expectedValue

def takeAfter (value : Json) (enclosing : List Open) (c : Char) : Except Fault State :=
  if isSpace c then .ok (.complete value enclosing)
  else match enclosing with
    | [] => .error .trailingCharacters
    | .list items :: outer =>
      if c = ',' then .ok ⟨.value .next, .list (value :: items) :: outer⟩
      else if c = ']' then .ok (.complete (.list (value :: items).reverse) outer)
      else .error .expectedCommaOrBracket
    | .object members key :: outer =>
      if c = ',' then .ok ⟨.key false, .object ((key, value) :: members) "" :: outer⟩
      else if c.toNat = 0x7d then
        .ok (.complete (.object ((key, value) :: members).reverse) outer)
      else .error .expectedCommaOrBrace

def takeKey (first : Bool) (enclosing : List Open) (c : Char) : Except Fault State :=
  if isSpace c then .ok ⟨.key first, enclosing⟩
  else if c = '"' then .ok ⟨.string .plain [] true, enclosing⟩
  else if c.toNat = 0x7d then
    match first, enclosing with
    | true, .object members _ :: outer => .ok (.complete (.object members.reverse) outer)
    | _, _ => .error .trailingComma
  else .error .keyNotString

def closeString (chars : List Char) (isKey : Bool) (enclosing : List Open) : State :=
  let s := String.ofList chars.reverse
  if isKey then ⟨.colon s, enclosing⟩ else .complete (.str s) enclosing

def simpleEscape? : Char → Option Char
  | '"' => some '"'
  | '\\' => some '\\'
  | '/' => some '/'
  | 'b' => some (Char.ofNat 8)
  | 'f' => some (Char.ofNat 12)
  | 'n' => some '\n'
  | 'r' => some '\r'
  | 't' => some '\t'
  | _ => none

def isLeading (n : Nat) : Bool := 0xd800 ≤ n && n ≤ 0xdbff

def isTrailing (n : Nat) : Bool := 0xdc00 ≤ n && n ≤ 0xdfff

def pairChar (leading trailing : Nat) : Char :=
  Char.ofNat ((leading - 0xd800) * 0x400 + (trailing - 0xdc00) + 0x10000)

def takeUnit (n : Nat) (leading : Option Nat) (chars : List Char) :
    Except Fault (StringPart × List Char) :=
  match leading with
  | some first =>
    if isTrailing n then .ok (.plain, pairChar first n :: chars) else .error .loneSurrogate
  | none =>
    if isTrailing n then .error .loneSurrogate
    else if isLeading n then .ok (.pair n, chars)
    else .ok (.plain, Char.ofNat n :: chars)

def takeInString (part : StringPart) (chars : List Char) (isKey : Bool)
    (enclosing : List Open) (c : Char) : Except Fault State :=
  let inside (part : StringPart) (chars : List Char) : Except Fault State :=
    .ok ⟨.string part chars isKey, enclosing⟩
  match part with
  | .plain =>
    if c = '"' then .ok (closeString chars isKey enclosing)
    else if c = '\\' then inside .escape chars
    else if c < ' ' then .error .controlCharacter
    else inside .plain (c :: chars)
  | .escape =>
    if c = 'u' then inside (.hex 0 0 none) chars
    else match simpleEscape? c with
      | some e => inside .plain (e :: chars)
      | none => .error .invalidEscape
  | .hex count value leading =>
    match hexDigit? c with
    | none => .error .invalidEscape
    | some d =>
      if count < 3 then inside (.hex (count + 1) (value * 16 + d) leading) chars
      else match takeUnit (value * 16 + d) leading chars with
        | .ok (part, chars) => inside part chars
        | .error fault => .error fault
  | .pair leading =>
    if c = '\\' then inside (.pairEscape leading) chars else .error .unfinishedPair
  | .pairEscape leading =>
    if c = 'u' then inside (.hex 0 0 (some leading)) chars else .error .unfinishedPair

def closeNumber (n : PartialNumber) (enclosing : List Open) (c : Char) : Except Fault State :=
  match n.value? with
  | some value => takeAfter value enclosing c
  | none => .error .numberOutOfRange

def takeBehindDigits (n : PartialNumber) (enclosing : List Open) (c : Char) :
    Except Fault State :=
  if c = 'e' || c = 'E' then .ok ⟨.number { n with part := .exponentMark }, enclosing⟩
  else closeNumber n enclosing c

def takeBehindWhole (n : PartialNumber) (enclosing : List Open) (c : Char) :
    Except Fault State :=
  if c = '.' then .ok ⟨.number { n with part := .point }, enclosing⟩
  else takeBehindDigits n enclosing c

def takeExponentDigit (n : PartialNumber) (enclosing : List Open) (d : Nat) :
    Except Fault State :=
  let next := n.exponent * 10 + d
  if next < exponentLimit then
    .ok ⟨.number { n with part := .exponent, exponent := next }, enclosing⟩
  else if n.digits ≠ 0 && !n.exponentNegative then .error .numberOutOfRange
  else .ok ⟨.number { n with part := .exponent }, enclosing⟩

def takeInNumber (n : PartialNumber) (enclosing : List Open) (c : Char) : Except Fault State :=
  let inside (n : PartialNumber) : Except Fault State := .ok ⟨.number n, enclosing⟩
  match n.part, Decimal.digit? c with
  | .sign, some 0 => inside { n with part := .zero }
  | .sign, some d => inside (.start .whole n.negative d)
  | .zero, some _ => .error .invalidNumber
  | .whole, some d => inside (n.addWhole d)
  | .point, some d | .fraction, some d => inside (n.addFraction d)
  | .exponentMark, some d | .exponentSign, some d | .exponent, some d =>
    takeExponentDigit n enclosing d
  | .zero, none | .whole, none => takeBehindWhole n enclosing c
  | .fraction, none => takeBehindDigits n enclosing c
  | .exponent, none => closeNumber n enclosing c
  | .exponentMark, none =>
    if c = '+' then inside { n with part := .exponentSign }
    else if c = '-' then inside { n with part := .exponentSign, exponentNegative := true }
    else .error .invalidNumber
  | .sign, none | .point, none | .exponentSign, none => .error .invalidNumber

def State.take (state : State) (c : Char) : Except Fault State :=
  match state.mode with
  | .value place => takeValue place state.enclosing c
  | .word [] value => takeAfter value state.enclosing c
  | .word [last] value =>
    if c = last then .ok (.complete value state.enclosing) else .error .expectedWord
  | .word (expected :: rest) value =>
    if c = expected then .ok ⟨.word rest value, state.enclosing⟩ else .error .expectedWord
  | .number n => takeInNumber n state.enclosing c
  | .string part chars isKey => takeInString part chars isKey state.enclosing c
  | .key first => takeKey first state.enclosing c
  | .colon key =>
    if isSpace c then .ok state
    else if c = ':' then
      match state.enclosing with
      | .object members _ :: outer => .ok ⟨.value .plain, .object members key :: outer⟩
      | _ => .error .expectedColon
    else .error .expectedColon
  | .after value => takeAfter value state.enclosing c

def endAfter (value : Json) : List Open → Except Fault Json
  | [] => .ok value
  | .list _ :: _ => .error .endInList
  | .object _ _ :: _ => .error .endInObject

def State.finish (state : State) : Except Fault Json :=
  match state.mode with
  | .value .first => .error .endInList
  | .value _ => .error .endInValue
  | .word [] value => endAfter value state.enclosing
  | .word _ _ => .error .endInValue
  | .number n =>
    match n.part with
    | .zero | .whole | .fraction | .exponent =>
      match n.value? with
      | some value => endAfter value state.enclosing
      | none => .error .numberOutOfRange
    | _ => .error .endInValue
  | .string _ _ _ => .error .endInString
  | .key true => .error .endInObject
  | .key false => .error .endInValue
  | .colon _ => .error .endInObject
  | .after value => endAfter value state.enclosing

/-- Where a character at `offset` is at fault, in a text of `length` bytes. A number is at fault
    before the character behind it, and an escape by code unit at its fourth byte, even if that
    is not there. -/
def State.fault (state : State) (length offset : Nat) (c : Char) (fault : Fault) : ReadError :=
  match state.mode, fault with
  | .number _, .numberOutOfRange =>
    if (Decimal.digit? c).isSome then ⟨fault, offset + 1⟩ else ⟨fault, offset⟩
  | .string (.hex count _ _) _ _, .invalidEscape =>
    let last := offset - count + 4
    if last ≤ length then ⟨fault, last⟩ else ⟨.endInString, length⟩
  | _, _ => ⟨fault, offset + 1⟩

def State.read (length offset : Nat) (state : State) : List Char → Except ReadError Json
  | [] =>
    match state.finish with
    | .ok value => .ok value
    | .error fault => .error ⟨fault, offset⟩
  | c :: rest =>
    match state.take c with
    | .ok next => State.read length (offset + c.utf8Size) next rest
    | .error fault => .error (state.fault length offset c fault)

def ofText (text : List Char) : Except ReadError Json :=
  State.start.read (Text.byteLength text) 0 text

end Json

end MonkeyLang
