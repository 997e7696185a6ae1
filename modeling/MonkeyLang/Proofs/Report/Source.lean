import Mathlib
import MonkeyLang.Grammar.Derivation
import MonkeyLang.Proofs.Token.Literals
import MonkeyLang.Proofs.Token.Tails

namespace MonkeyLang

open Text (byteLength)

structure Span.Covers (place : Span) (text before slice after : List Char) : Prop where
  split : text = before ++ slice ++ after
  some : slice ≠ []
  start : place.start = byteLength before
  stop : place.stop = byteLength before + byteLength slice

namespace Pattern

variable {p : Pattern} {text : List Char}

theorem first?_alone (p : Pattern) (a : List Char) :
    first? [((), p)] a = if p.accepts a then some () else none := by
  rw [first?, List.find?_cons]
  dsimp only
  cases p.accepts a <;> rfl

theorem longest_alone (p : Pattern) (text : List Char) :
    (∃ slice after, text = slice ++ after ∧ longest [((), p)] text = some ((), slice.length) ∧
      p.Matches slice ∧ ∀ more rest, after = more ++ rest → p.Matches (slice ++ more) → more = []) ∨
    longest [((), p)] text = none ∧ ∀ slice after, text = slice ++ after → ¬p.Matches slice := by
  have spec := longest_spec [((), p)] text
  rcases found : longest [((), p)] text with _ | ⟨_, n⟩
  · refine .inr ⟨rfl, fun slice after split whole => ?_⟩
    rw [found] at spec
    have none := spec slice.length (by simp [split])
    rw [split, List.take_left, first?_alone, accepts_iff.mpr whole] at none
    cases none
  · rw [found] at spec
    obtain ⟨most, here, longer⟩ := spec
    have size : (text.take n).length = n := List.length_take_of_le most
    refine .inl ⟨text.take n, text.drop n, (List.take_append_drop n text).symm, ?_, ?_, ?_⟩
    · rw [size]
    · rw [first?_alone] at here
      by_contra none
      rw [if_neg (mt accepts_iff.mp none)] at here
      cases here
    · intro more rest split whole
      have head : text.take n ++ more <+: text :=
        ⟨rest, by rw [List.append_assoc, ← split, List.take_append_drop]⟩
      by_contra some
      have less : n < (text.take n ++ more).length := by
        have full := List.length_pos_of_ne_nil some
        rw [List.length_append, size]
        omega
      have none := longer _ head.length_le less
      rw [← List.prefix_iff_eq_take.mp head, first?_alone, accepts_iff.mpr whole] at none
      cases none

end Pattern

/-- What the scanner stops at, and what stands behind it. An integer does not fit. A string literal is
    taken as far as its characters and escapes go: it ends with the text or at an escape that is not
    finished in the line. Nothing begins with any other character. -/
inductive LexicalError.Cause (slice after : List Char) : Prop
  | int (takes : LexicalRule.int.Takes slice after) (large : 2 ^ 63 ≤ Decimal.natOf slice)
  | uint (takes : LexicalRule.uint.Takes slice after) (large : 2 ^ 64 ≤ Decimal.natOf slice)
  | string {body value : List Char} (none : LexicalRule.NoneTakes (slice ++ after))
      (opened : slice = '"' :: body) (resolved : Text.Resolved body value)
      (unfinished : after = [] ∨ after = ['\\'] ∨ ∃ rest, after = '\\' :: '\n' :: rest)
  | character {c : Char} (none : LexicalRule.NoneTakes (slice ++ after)) (alone : slice = [c])
      (unquoted : c ≠ '"')

namespace Lexeme

section Scanning

variable {text rest : List Char}

open LexicalRule Pattern

theorem unfinished_of_longest {body value after : List Char} (resolved : Text.Resolved body value)
    (none : NoneTakes ('"' :: body ++ after))
    (longest : ∀ more rest, after = more ++ rest →
      openString.Matches ('"' :: body ++ more) → more = []) :
    after = [] ∨ after = ['\\'] ∨ ∃ rest, after = '\\' :: '\n' :: rest := by
  have ends (piece rest : List Char) {value : List Char} (split : after = piece ++ rest)
      (more : Text.Resolved piece value) : piece = [] :=
    longest piece rest split (matches_openString_iff.mpr ⟨_, _, rfl, resolved.append more⟩)
  cases after with
  | nil => exact .inl rfl
  | cons c after =>
    right
    by_cases special : c ∈ ['"', '\\']
    · rcases List.mem_pair.mp special with rfl | rfl
      -- The literal would end here.
      · refine absurd (matches_string_iff.mpr ⟨body, value, rfl, resolved⟩)
          (none string (by simp [all]) ('"' :: (body ++ ['"'])) ?_)
        exact ⟨after, by simp⟩
      · cases after with
        | nil => exact .inl rfl
        | cons mark after =>
          by_cases newline : mark = '\n'
          · exact .inr ⟨after, by rw [newline]⟩
          · obtain ⟨_, pair⟩ := Text.Resolved.exists_pair newline
            cases ends ['\\', mark] after rfl pair
    · cases ends [c] after rfl (.plain special .nil)

theorem atHead_cause (some : text ≠ []) (none : NoneTakes text) (offset : Nat) :
    ∃ slice after, text = slice ++ after ∧ slice ≠ [] ∧ LexicalError.Cause slice after ∧
      LexicalError.atHead offset text = ⟨slice, offset, offset + byteLength slice⟩ := by
  rcases longest_alone openString text with
    ⟨slice, after, rfl, found, whole, longest⟩ | ⟨found, unopened⟩
  · obtain ⟨body, value, rfl, resolved⟩ := matches_openString_iff.mp whole
    refine ⟨_, after, rfl, List.cons_ne_nil _ _, ?_, ?_⟩
    · exact .string none rfl resolved (unfinished_of_longest resolved none longest)
    · rw [LexicalError.atHead, found]
      dsimp only
      rw [List.take_left]
  · obtain ⟨c, after, rfl⟩ := List.exists_cons_of_ne_nil some
    refine ⟨[c], after, rfl, List.cons_ne_nil _ _, .character none rfl ?_, ?_⟩
    · rintro rfl
      exact unopened ['"'] after rfl (matches_openString_iff.mpr ⟨[], [], rfl, .nil⟩)
    · rw [LexicalError.atHead, found]
      rfl

theorem Blocked.exists_cause (blocked : Blocked rest) (offset : Nat) :
    ∃ slice after, rest = slice ++ after ∧ slice ≠ [] ∧ LexicalError.Cause slice after ∧
      scanFrom offset rest = .error ⟨slice, offset, offset + byteLength slice⟩ := by
  cases blocked with
  | unmatched some none =>
    obtain ⟨slice, after, rfl, more, cause, same⟩ := atHead_cause some none offset
    exact ⟨slice, after, rfl, more, cause, by rw [scanFrom_unmatched some none, same]⟩
  | @int slice after takes large =>
    refine ⟨slice, after, rfl, takes.ne_nil, .int takes large, ?_⟩
    rw [scanFrom_takes takes]
    dsimp only [LexicalRule.int]
    rw [read?_int_eq_none.mpr large]
  | @uint slice after takes large =>
    refine ⟨slice, after, rfl, takes.ne_nil, .uint takes large, ?_⟩
    rw [scanFrom_takes takes]
    dsimp only [LexicalRule.uint]
    rw [read?_uint_eq_none.mpr large]

theorem exists_cause_of_ofText {e : LexicalError} (failed : ofText text = .error e) :
    ∃ lexemes before slice after, text = before ++ slice ++ after ∧ slice ≠ [] ∧
      Munch 0 text lexemes (slice ++ after) ∧ LexicalError.Cause slice after ∧
      e = ⟨slice, byteLength before, byteLength before + byteLength slice⟩ := by
  obtain ⟨lexemes, rest, munch, blocked⟩ := blocked_of_ofText failed
  obtain ⟨before, rfl, -, same⟩ := munch.scanFrom_eq
  obtain ⟨slice, after, rfl, some, cause, stops⟩ := blocked.exists_cause (0 + byteLength before)
  rw [ofText, same, stops, Nat.zero_add] at failed
  cases failed
  exact ⟨lexemes, before, slice, after, (List.append_assoc ..).symm, some, munch, cause, rfl⟩

end Scanning

end Lexeme

theorem Stack.error_of_derive {stack : Stack} {offset : Nat} {lexemes : List Lexeme}
    {e : ParseError} (rejected : stack.derive offset lexemes = .error e) :
    (∃ found ∈ lexemes, ∃ expected, e = .unexpected found expected) ∨
      ∃ expected, e = .unexpectedEnd (lexemes.getLast?.elim offset (·.span.stop)) expected := by
  induction lexemes generalizing stack offset with
  | nil =>
    rw [derive] at rejected
    split at rejected
    · cases rejected
    all_goals
      cases rejected
      exact .inr ⟨_, rfl⟩
  | cons first rest ih =>
    rw [derive] at rejected
    split at rejected
    · rcases ih rejected with ⟨found, member, expected, same⟩ | ⟨expected, same⟩
      · exact .inl ⟨found, List.mem_cons_of_mem _ member, expected, same⟩
      · refine .inr ⟨expected, same.trans ?_⟩
        rw [List.getLast?_cons]
        cases rest.getLast? <;> rfl
    all_goals
      cases rejected
      exact .inl ⟨first, List.mem_cons_self, _, rfl⟩

theorem Program.error_of_ofLexemes {lexemes : List Lexeme} {e : ParseError}
    (rejected : ofLexemes lexemes = .error e) :
    (∃ found ∈ lexemes, ∃ expected, e = .unexpected found expected) ∨
      ∃ last expected, lexemes.getLast? = some last ∧
        e = .unexpectedEnd last.span.stop expected := by
  have failed : Stack.derive [] 0 lexemes = .error e := by
    unfold ofLexemes at rejected
    cases derived : Tree.ofLexemes lexemes with
    | ok tree => simp [derived, Except.map] at rejected
    | error e' =>
      rw [derived] at rejected
      cases rejected
      exact derived
  rcases Stack.error_of_derive failed with found | ⟨expected, same⟩
  · exact .inl found
  · cases final : lexemes.getLast? with
    | none =>
      rw [List.getLast?_eq_none_iff.mp final] at rejected
      cases rejected
    | some last =>
      rw [final] at same
      exact .inr ⟨last, expected, rfl, same⟩

/-- What is wrong with a text, by the slice that the error shows: what the scanner stops at behind the
    tokens that were cut off; a token of the text, which the grammar rejects; or the last character of
    the last token, which is one byte long, where the text ends too soon. -/
inductive SourceError.Shows (text before slice after : List Char) : SourceError → Prop
  | lexical {e : LexicalError} {lexemes : List Lexeme}
      (cut : Lexeme.Munch 0 text lexemes (slice ++ after)) (same : e.slice = slice)
      (cause : LexicalError.Cause slice after) : Shows text before slice after (.lexical e)
  | token {found : Lexeme} {expected : List TokenKind} {lexemes : List Lexeme} {rule : LexicalRule}
      (read : Lexeme.ofText text = .ok lexemes) (member : found ∈ lexemes)
      (place : found.span.Covers text before slice after) (takes : rule.Takes slice after)
      (gives : rule.kind = some found.token.kind) :
      Shows text before slice after (.parse (.unexpected found expected))
  | ending {last : Lexeme} {expected : List TokenKind} {lexemes : List Lexeme} {c : Char}
      (read : Lexeme.ofText text = .ok lexemes) (final : lexemes.getLast? = some last)
      (within : last.span.start ≤ byteLength before) (stop : last.span.stop = byteLength before + 1)
      (alone : slice = [c]) (narrow : c.utf8Size = 1) :
      Shows text before slice after (.parse (.unexpectedEnd last.span.stop expected))

theorem Lexeme.StandsIn.exists_covers {text : List Char} {l : Lexeme} (stands : l.StandsIn text) :
    ∃ before slice after rule, l.span.Covers text before slice after ∧
      LexicalRule.Takes rule slice after ∧ rule.kind = some l.token.kind := by
  obtain ⟨before, slice, after, rule, split, some, place, takes, gives, -⟩ := stands
  exact ⟨before, slice, after, rule, ⟨split, some, by rw [place], by rw [place]⟩, takes, gives⟩

theorem SourceError.exists_shown {text : List Char} {e : SourceError}
    (failed : Program.ofText text = .error e) :
    ∃ before slice after, e.span.Covers text before slice after ∧ e.Shows text before slice after := by
  unfold Program.ofText at failed
  cases scanned : Lexeme.ofText text with
  | error e' =>
    rw [scanned] at failed
    cases failed
    obtain ⟨lexemes, before, slice, after, split, some, cut, cause, rfl⟩ :=
      Lexeme.exists_cause_of_ofText scanned
    exact ⟨before, slice, after, ⟨split, some, rfl, rfl⟩, .lexical cut rfl cause⟩
  | ok lexemes =>
    have munch := Lexeme.munch_of_ofText scanned
    have stands : ∀ lexeme ∈ lexemes, lexeme.StandsIn text := munch.standsIn []
    rw [scanned] at failed
    dsimp only at failed
    cases parsed : Program.ofLexemes lexemes with
    | ok program =>
      rw [parsed] at failed
      cases failed
    | error e' =>
      rw [parsed] at failed
      cases failed
      rcases Program.error_of_ofLexemes parsed with
        ⟨found, member, expected, rfl⟩ | ⟨last, expected, final, rfl⟩
      · obtain ⟨before, slice, after, rule, covers, takes, gives⟩ :=
          (stands found member).exists_covers
        exact ⟨before, slice, after, covers, .token scanned member covers takes gives⟩
      · have member := List.mem_of_getLast? final
        have filled := (munch.bounds.2 last member).2
        obtain ⟨before, c, after, split, narrow, stop⟩ := (stands last member).last
        refine ⟨before, [c], after, ⟨by simp [split], List.cons_ne_nil _ _, ?_, ?_⟩,
          .ending scanned final (by omega) stop rfl narrow⟩
        · rw [span, ParseError.span, stop]
          rfl
        · rw [span, ParseError.span, stop, Text.byteLength_cons, narrow]
          rfl

section Places

variable {place : Span} {text before slice after : List Char}

theorem Span.Covers.start_lt_stop (covers : place.Covers text before slice after) :
    place.start < place.stop := by
  have full := Lexeme.byteLength_pos covers.some
  have start := covers.start
  have stop := covers.stop
  omega

theorem Span.Covers.stop_le (covers : place.Covers text before slice after) :
    place.stop ≤ byteLength text := by
  rw [covers.stop, covers.split, Text.byteLength_append, Text.byteLength_append]
  exact Nat.le_add_right _ _

end Places

/-- The error of a text that is no program is at a place in the text that is not empty, starts where a
    character starts and stops where one stops. It covers all of an integer that does not fit; a string
    literal that does not end from its quote on, without an escape that is not finished; the token that
    is rejected; or, where the text ends too soon, the last byte of the last token, which is a character
    of its own. -/
theorem Program.ofText_error_covers (text : List Char) (e : SourceError)
    (failed : Program.ofText text = .error e) :
    ∃ before slice after, e.span.Covers text before slice after ∧
      e.Shows text before slice after ∧ e.span.start < e.span.stop ∧
      e.span.stop ≤ byteLength text := by
  obtain ⟨before, slice, after, covers, shows⟩ := SourceError.exists_shown failed
  exact ⟨before, slice, after, covers, shows, covers.start_lt_stop, covers.stop_le⟩

/-- Behind a bracket and a literal of two bytes a backslash is not finished. -/
theorem Program.ofText_error_covers_literal :
    Program.ofText "[\"é\\".toList = .error (.lexical ⟨['"', 'é'], 1, 4⟩) ∧
    ∃ before slice after, (Span.mk 1 4).Covers "[\"é\\".toList before slice after ∧
      (SourceError.lexical ⟨['"', 'é'], 1, 4⟩).Shows "[\"é\\".toList before slice after := by
  have failed : Program.ofText "[\"é\\".toList = .error (.lexical ⟨['"', 'é'], 1, 4⟩) := by cbv
  obtain ⟨before, slice, after, covers, shows, -⟩ := ofText_error_covers _ _ failed
  exact ⟨failed, before, slice, after, covers, shows⟩

end MonkeyLang
