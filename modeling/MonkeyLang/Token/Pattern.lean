import MonkeyLang.Text.CodeRange

/-!
Regular patterns over characters. `Pattern.Matches` says which texts a pattern describes;
`Pattern.derive` is the pattern of what may follow a first character.
-/

namespace MonkeyLang

/-- A set of characters: those in one of the ranges, or those in none of them. -/
structure CharClass where
  negated : Bool
  ranges : List Text.CodeRange

namespace CharClass

def contains (cls : CharClass) (c : Char) : Bool :=
  cls.negated != Text.inRanges cls.ranges c

def ofChar (c : Char) : CharClass := ⟨false, [.single c]⟩

def ofChars (cs : List Char) : CharClass := ⟨false, cs.map .single⟩

def except (cs : List Char) : CharClass := ⟨true, cs.map .single⟩

def digit : CharClass := ⟨false, [.between '0' '9']⟩

def nameStart : CharClass := ⟨false, [.between 'a' 'z', .between 'A' 'Z', .single '_']⟩

def namePart : CharClass :=
  ⟨false, [.between 'a' 'z', .between 'A' 'Z', .between '0' '9', .single '_']⟩

end CharClass

inductive Pattern
  | nothing
  | empty
  | char (cls : CharClass)
  | seq (first second : Pattern)
  | alt (left right : Pattern)
  | star (body : Pattern)

namespace Pattern

inductive Matches : Pattern → List Char → Prop
  | empty : Matches empty []
  | char {cls : CharClass} {c : Char} (member : cls.contains c = true) : Matches (char cls) [c]
  | seq {p q : Pattern} {a b : List Char} (first : Matches p a) (second : Matches q b) :
      Matches (seq p q) (a ++ b)
  | left {p q : Pattern} {a : List Char} (first : Matches p a) : Matches (alt p q) a
  | right {p q : Pattern} {a : List Char} (second : Matches q a) : Matches (alt p q) a
  | done {p : Pattern} : Matches (star p) []
  | more {p : Pattern} {a b : List Char} (first : Matches p a) (rest : Matches (star p) b) :
      Matches (star p) (a ++ b)

def plus (p : Pattern) : Pattern := seq p (star p)

def optional (p : Pattern) : Pattern := alt p empty

def exactly : List Char → Pattern
  | [] => empty
  | [c] => char (.ofChar c)
  | c :: rest => seq (char (.ofChar c)) (exactly rest)

def nullable : Pattern → Bool
  | nothing => false
  | empty => true
  | char _ => false
  | seq p q => p.nullable && q.nullable
  | alt p q => p.nullable || q.nullable
  | star _ => true

def join : Pattern → Pattern → Pattern
  | nothing, _ => nothing
  | _, nothing => nothing
  | empty, q => q
  | p, q => seq p q

def either : Pattern → Pattern → Pattern
  | nothing, q => q
  | p, nothing => p
  | p, q => alt p q

def derive (c : Char) : Pattern → Pattern
  | nothing => nothing
  | empty => nothing
  | char cls => if cls.contains c then empty else nothing
  | seq p q =>
    let first := join (p.derive c) q
    if p.nullable then either first (q.derive c) else first
  | alt p q => either (p.derive c) (q.derive c)
  | star p => join (p.derive c) (star p)

/-- Whether no text can match, as far as `join` and `either` tell. -/
def isNothing : Pattern → Bool
  | nothing => true
  | _ => false

end Pattern

end MonkeyLang
