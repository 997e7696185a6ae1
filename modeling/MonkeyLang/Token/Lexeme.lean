import MonkeyLang.Span
import MonkeyLang.Text.Bytes
import MonkeyLang.Token.Rule

/-!
The lexemes of a text: its tokens with their places. From each place the longest text that some
rule matches is taken; among rules that match it the first one counts.
-/

namespace MonkeyLang

structure Lexeme where
  token : Token
  span : Span

structure LexicalError where
  slice : List Char
  span : Span

def LexicalError.message (e : LexicalError) : String :=
  "unexpected character: " ++ String.ofList (Text.quoted e.slice)

def Pattern.advance {α : Type} (c : Char) (live : List (α × Pattern)) : List (α × Pattern) :=
  live.filterMap fun (rule, p) =>
    let rest := p.derive c
    if rest.isNothing then none else some (rule, rest)

/-- The length of the longest prefix that one of the patterns matches, and the first of the
    patterns that match it. -/
def Pattern.longest {α : Type} (live : List (α × Pattern)) (text : List Char) :
    Option (α × Nat) :=
  let here := (live.find? (·.2.nullable)).map fun rule => (rule.1, 0)
  match text with
  | [] => here
  | c :: rest =>
    match Pattern.advance c live with
    | [] => here
    | next =>
      match longest next rest with
      | some (rule, n) => some (rule, n + 1)
      | none => here

namespace LexicalRule

def starts : List (LexicalRule × Pattern) :=
  all.map fun rule => (rule, rule.pattern)

def longest (text : List Char) : Option (LexicalRule × Nat) :=
  Pattern.longest starts text

end LexicalRule

/-- The error of a text at whose head no rule matches: a string literal that does not end is
    reported as far as it goes, any other text by its first character. -/
def LexicalError.atHead (offset : Nat) (text : List Char) : LexicalError :=
  let size := match Pattern.longest [((), LexicalRule.openString)] text with
    | some (_, n) => n
    | none => 1
  let slice := text.take size
  ⟨slice, offset, offset + Text.byteLength slice⟩

def Lexeme.scanFrom (offset : Nat) (text : List Char) : Except LexicalError (List Lexeme) :=
  match text with
  | [] => .ok []
  | c :: rest =>
    match LexicalRule.longest (c :: rest) with
    | none | some (_, 0) => .error (.atHead offset (c :: rest))
    | some (rule, n + 1) =>
      let slice := c :: rest.take n
      let span : Span := ⟨offset, offset + Text.byteLength slice⟩
      match rule.kind with
      | none => scanFrom span.stop (rest.drop n)
      | some kind =>
        match kind.read? slice with
        | none => .error ⟨slice, span⟩
        | some payload => do
          let later ← scanFrom span.stop (rest.drop n)
          return ⟨⟨kind, payload⟩, span⟩ :: later
termination_by text.length
decreasing_by all_goals simp only [List.length_cons, List.length_drop]; omega

def Lexeme.ofText (text : List Char) : Except LexicalError (List Lexeme) :=
  scanFrom 0 text

end MonkeyLang
