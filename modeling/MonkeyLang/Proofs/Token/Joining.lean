import MonkeyLang.Proofs.Token.Literals

namespace MonkeyLang

namespace LexicalRule

open Pattern

section Newlines

variable {rule : LexicalRule} {slice after : List Char}

theorem newline_users (declared : rule ∈ all) (whole : rule.pattern.Matches slice)
    (newline : '\n' ∈ slice) : rule = string ∨ rule = blanks := by
  have unused : ∀ rule ∈ Fixed.words.map ofFixed ++ (numbers ++ [ident, comment]),
      rule.pattern.uses '\n' = false := by decide
  have used := whole.uses newline
  by_contra neither
  have among : rule ∈ Fixed.words.map ofFixed ++ (numbers ++ [ident, comment]) := by
    rw [all_eq] at declared
    simp only [others, List.mem_append, List.mem_cons, List.not_mem_nil, or_false]
      at declared neither ⊢
    tauto
  rw [unused rule among] at used
  cases used

theorem Takes.lines (takes : rule.Takes slice after) (named : rule ≠ blanks) (more : List Char) :
    rule.Takes slice (after ++ '\n' :: more) where
  declared := takes.declared
  matched := takes.matched
  first := takes.first
  longest other member piece head whole := by
    obtain ⟨left, same⟩ := head
    rw [← List.append_assoc] at same
    rcases List.append_eq_append_iff.mp same with ⟨short, within, -⟩ | ⟨long, rfl, rest⟩
    · exact takes.longest other member piece ⟨short, within.symm⟩ whole
    cases long with
    | nil => exact takes.longest other member _ (by simp) whole
    | cons d long =>
      obtain ⟨rfl, -⟩ := List.cons.inj rest
      exfalso
      rw [List.append_assoc] at whole
      rcases newline_users member whole (by simp) with rfl | rfl
      -- A string literal that goes on behind the slice begins with it, so that the slice is one.
      · obtain ⟨c, cs, rfl⟩ := List.exists_cons_of_ne_nil takes.ne_nil
        have head : string.pattern.head? = some (.ofChar '"') := rfl
        obtain ⟨_, _, begins, quote⟩ := whole.head? head
        obtain ⟨rfl, -⟩ := List.cons.inj begins
        rw [CharClass.contains_ofChar.mp quote] at takes whole
        rw [eq_string_of_quote takes.declared takes.matched] at takes
        exact absurd (eq_nil_of_matches_string takes.matched whole) (by simp)
      · have slice_blank : blanks.pattern.Matches slice := matches_blanks_iff.mpr
          ⟨takes.ne_nil, fun c inside =>
            matches_blanks whole c (List.mem_append_left _ inside)⟩
        rcases takes.first blanks member slice_blank with same | ⟨same, -⟩
        · exact named same.symm
        · exact absurd (congrArg kind same) (by decide)

end Newlines

end LexicalRule

open Text (byteLength)

def Lexeme.shift (n : Nat) (lexeme : Lexeme) : Lexeme :=
  { lexeme with span := lexeme.span.shift n }

def LexicalError.shift (n : Nat) (e : LexicalError) : LexicalError :=
  { e with span := e.span.shift n }

namespace Lexeme

open LexicalRule (blanks)

section Scanning

variable {offset : Nat} {text rest : List Char} {lexemes : List Lexeme}

theorem exists_blanks (text : List Char) : ∃ slice after, text = slice ++ after ∧
    (∀ c ∈ slice, c ∈ [' ', '\t', '\n', '\r']) ∧
    ∀ d rest, after = d :: rest → d ∉ [' ', '\t', '\n', '\r'] := by
  induction text with
  | nil => exact ⟨[], [], rfl, by simp, by simp⟩
  | cons c text ih =>
    by_cases blank : c ∈ [' ', '\t', '\n', '\r']
    · obtain ⟨slice, after, rfl, members, ends⟩ := ih
      exact ⟨c :: slice, after, rfl, List.forall_mem_cons.mpr ⟨blank, members⟩, ends⟩
    · refine ⟨[], c :: text, rfl, by simp, fun d rest same => ?_⟩
      rwa [← (List.cons.inj same).1]

theorem scanFrom_blank {c : Char} (blank : c ∈ [' ', '\t', '\n', '\r']) (text : List Char) :
    scanFrom offset (c :: text) = scanFrom (offset + c.utf8Size) text := by
  have run (slice after : List Char) (some : slice ≠ [])
      (members : ∀ c ∈ slice, c ∈ [' ', '\t', '\n', '\r'])
      (ends : ∀ d rest, after = d :: rest → d ∉ [' ', '\t', '\n', '\r']) (place : Nat) :
      scanFrom place (slice ++ after) = scanFrom (place + byteLength slice) after :=
    scanFrom_takes (LexicalRule.takes_blanks some members ends)
  obtain ⟨slice, after, rfl, members, ends⟩ := exists_blanks text
  rw [← List.cons_append, run (c :: slice) after (List.cons_ne_nil c slice)
    (List.forall_mem_cons.mpr ⟨blank, members⟩) ends, Text.byteLength_cons, ← Nat.add_assoc]
  by_cases some : slice = []
  · rw [some]
    rfl
  · exact (run slice after some members ends _).symm

theorem scanFrom_blanks {slice : List Char} (members : ∀ c ∈ slice, c ∈ [' ', '\t', '\n', '\r'])
    (text : List Char) :
    scanFrom offset (slice ++ text) = scanFrom (offset + byteLength slice) text := by
  induction slice generalizing offset with
  | nil => rfl
  | cons c rest ih =>
    obtain ⟨first, others⟩ := List.forall_mem_cons.mp members
    rw [List.cons_append, scanFrom_blank first, ih others, Text.byteLength_cons, Nat.add_assoc]

theorem Munch.scanFrom_lines (munch : Munch offset text lexemes []) (more : List Char) :
    scanFrom offset (text ++ '\n' :: more) =
      (scanFrom (offset + (byteLength text + 1)) more).map (lexemes ++ ·) := by
  generalize nothing : [] = rest at munch
  induction munch with
  | @done offset rest =>
    subst nothing
    rw [List.nil_append, scanFrom_blank (by simp), Text.byteLength_nil, Nat.zero_add]
    change scanFrom (offset + 1) more = _
    cases scanFrom (offset + 1) more <;> rfl
  | @skip offset slice after rest rule lexemes takes skips _ ih =>
    rw [List.append_assoc, Text.byteLength_append, Nat.add_assoc, ← Nat.add_assoc,
      ← ih nothing]
    by_cases named : rule = blanks
    · subst named
      exact scanFrom_blanks (LexicalRule.matches_blanks takes.matched) _
    · rw [scanFrom_takes (takes.lines named more), skips]
  | @token offset slice after rest rule lexemes kind payload takes gives value _ ih =>
    have named : rule ≠ blanks := by
      rintro rfl
      cases gives
    rw [List.append_assoc, Text.byteLength_append, Nat.add_assoc, ← Nat.add_assoc,
      scanFrom_takes (takes.lines named more), gives]
    dsimp only
    rw [value]
    dsimp only
    rw [ih nothing]
    cases scanFrom (offset + byteLength slice + (byteLength after + 1)) more <;> rfl

theorem scanFrom_shift (n offset : Nat) (text : List Char) :
    scanFrom (offset + n) text =
      ((scanFrom offset text).map (·.map (shift n))).mapError (LexicalError.shift n) := by
  have moved (offset size : Nat) : Span.mk (offset + n) (offset + n + size) =
      (Span.mk offset (offset + size)).shift n := by
    rw [Nat.add_right_comm, Span.shift]
  fun_induction scanFrom offset text with
  | case1 offset =>
    rw [scanFrom]
    rfl
  | case2 offset c rest none =>
    rw [scanFrom, none]
    dsimp only [LexicalError.atHead]
    rw [moved]
    rfl
  | case3 offset c rest rule found =>
    rw [scanFrom, found]
    dsimp only [LexicalError.atHead]
    rw [moved]
    rfl
  | case4 offset c rest rule size found slice span skips ih =>
    rw [scanFrom, found]
    dsimp only
    rw [skips, ← ih, Nat.add_right_comm]
  | case5 offset c rest rule size found slice span kind gives none =>
    rw [scanFrom, found]
    dsimp only
    rw [gives]
    dsimp only
    rw [none, moved]
    rfl
  | case6 offset c rest rule size found slice span kind gives payload value ih =>
    rw [scanFrom, found]
    dsimp only
    rw [gives]
    dsimp only
    rw [value, Nat.add_right_comm, ih]
    cases scanFrom span.stop (rest.drop size) with
    | error => rfl
    | ok later => rfl

theorem ofText_behind {first : List Char} (read : ofText first = .ok lexemes)
    (second : List Char) :
    ofText (first ++ '\n' :: second) =
      ((ofText second).map fun later =>
        lexemes ++ later.map (shift (byteLength first + 1))).mapError
          (LexicalError.shift (byteLength first + 1)) := by
  rw [ofText, (munch_of_ofText read).scanFrom_lines, scanFrom_shift, ofText]
  cases scanFrom 0 second <;> rfl

theorem ofText_lines {first second : List Char} {later : List Lexeme}
    (read : ofText first = .ok lexemes) (read' : ofText second = .ok later) :
    ofText (first ++ '\n' :: second) =
      .ok (lexemes ++ later.map (shift (byteLength first + 1))) := by
  rw [ofText_behind read, read']
  rfl

end Scanning

end Lexeme

end MonkeyLang
