import Mathlib
import MonkeyLang.Proofs.Repl.Reading
import MonkeyLang.Proofs.Token.Literals

namespace MonkeyLang

def TokenKind.opens : TokenKind → Bool
  | fixed .leftParen | fixed .leftBrace | fixed .leftBracket => true
  | _ => false

def TokenKind.closes : TokenKind → Bool
  | fixed .rightParen | fixed .rightBrace | fixed .rightBracket => true
  | _ => false

open Text (byteLength)

namespace Lexeme

def opens (l : Lexeme) : Bool := l.token.kind.opens

def closes (l : Lexeme) : Bool := l.token.kind.closes

/-- The characters of a text, which starts at the offset, that stand in none of the lexemes: its
    blanks and comments. -/
def outside (lexemes : List Lexeme) (offset : Nat) : List Char → List Char
  | [] => []
  | c :: rest =>
    let later := outside lexemes (offset + c.utf8Size) rest
    if ∃ l ∈ lexemes, l.span.start ≤ offset ∧ offset < l.span.stop then later else c :: later

section Outside

variable {lexemes : List Lexeme} {offset : Nat} {slice : List Char}

theorem outside_append (slice rest : List Char) :
    outside lexemes offset (slice ++ rest) =
      outside lexemes offset slice ++ outside lexemes (offset + byteLength slice) rest := by
  induction slice generalizing offset with
  | nil => rfl
  | cons c slice ih =>
    rw [List.cons_append, outside, outside, ih, Text.byteLength_cons, Nat.add_assoc]
    split <;> rfl

theorem outside_skipped (ahead : ∀ l ∈ lexemes, offset + byteLength slice ≤ l.span.start) :
    outside lexemes offset slice = slice := by
  induction slice generalizing offset with
  | nil => rfl
  | cons c slice ih =>
    have wide := c.utf8Size_pos
    rw [Text.byteLength_cons] at ahead
    have apart : ¬∃ l ∈ lexemes, l.span.start ≤ offset ∧ offset < l.span.stop := by
      rintro ⟨l, member, least, -⟩
      have before := ahead l member
      omega
    rw [outside, if_neg apart, ih]
    intro l member
    have before := ahead l member
    omega

theorem outside_covered {l : Lexeme} (member : l ∈ lexemes) (least : l.span.start ≤ offset)
    (most : offset + byteLength slice ≤ l.span.stop) : outside lexemes offset slice = [] := by
  induction slice generalizing offset with
  | nil => rfl
  | cons c slice ih =>
    have wide := c.utf8Size_pos
    rw [Text.byteLength_cons] at most
    rw [outside, if_pos ⟨l, member, least, by omega⟩]
    exact ih (by omega) (by omega)

theorem outside_behind {l : Lexeme} (ended : l.span.stop ≤ offset) :
    outside (l :: lexemes) offset slice = outside lexemes offset slice := by
  induction slice generalizing offset with
  | nil => rfl
  | cons c slice ih =>
    have past : ¬(l.span.start ≤ offset ∧ offset < l.span.stop) := by omega
    simp only [outside, List.exists_mem_cons_iff, past, false_or]
    rw [ih (by omega)]

variable {after rest : List Char}

theorem outside_skip (later : Munch (offset + byteLength slice) after lexemes rest) :
    outside lexemes offset (slice ++ after) =
      slice ++ outside lexemes (offset + byteLength slice) after := by
  rw [outside_append, outside_skipped fun l member => (later.bounds.2 l member).1]

theorem outside_token (token : Token) (after : List Char) :
    outside (⟨token, offset, offset + byteLength slice⟩ :: lexemes) offset (slice ++ after) =
      outside lexemes (offset + byteLength slice) after := by
  rw [outside_append, outside_covered List.mem_cons_self (Nat.le_refl _) (Nat.le_refl _),
    List.nil_append, outside_behind (Nat.le_refl _)]

end Outside

end Lexeme

namespace Repl

open LexicalRule Pattern

open Lexeme (outside)

def isOpening (c : Char) : Bool := c = '(' || c = '[' || c.toNat = 0x7b

def isClosing (c : Char) : Bool := c = ')' || c = ']' || c.toNat = 0x7d

section Scanning

variable {depth : Int32} {slice after : List Char}

theorem isClosing_of_isOpening {c : Char} (opening : isOpening c = true) : isClosing c = false := by
  simp only [isOpening, Bool.or_eq_true, decide_eq_true_eq] at opening
  rcases opening with (rfl | rfl) | brace
  · rfl
  · rfl
  · have round : c ≠ ')' := by
      rintro rfl
      cases brace
    have square : c ≠ ']' := by
      rintro rfl
      cases brace
    simp [isClosing, brace, round, square]

theorem openBrackets_quote :
    openBrackets depth false ('"' :: after) = openBrackets depth true after := by
  rw [openBrackets.eq_def]
  rfl

theorem openBrackets_endQuote :
    openBrackets depth true ('"' :: after) = openBrackets depth false after := by
  rw [openBrackets.eq_def]
  rfl

theorem openBrackets_quoted {c : Char} (plain : c ∉ ['"', '\\']) :
    openBrackets depth true (c :: after) = openBrackets depth true after := by
  rw [List.mem_pair, not_or] at plain
  rw [openBrackets.eq_def]
  simp [plain]

theorem openBrackets_escape (c : Char) :
    openBrackets depth true ('\\' :: c :: after) = openBrackets depth true after := by
  rw [openBrackets.eq_def]
  rfl

theorem openBrackets_code {c : Char} (unquoted : c ≠ '"') :
    openBrackets depth false (c :: after) =
      openBrackets (depth + .ofInt ((isOpening c).toNat - (isClosing c).toNat)) false after := by
  rw [openBrackets.eq_def]
  dsimp only
  rw [if_neg Bool.false_ne_true, if_neg unquoted]
  change (if isOpening c = true then _ else if isClosing c = true then _ else _) = _
  split
  · rename_i opening
    simp [opening, isClosing_of_isOpening opening]
  · rename_i opening
    split
    · rename_i closing
      simp [opening, closing, Int32.sub_eq_add_neg]
    · rename_i closing
      simp [opening, closing]

theorem add_ofInt (depth : Int32) (first second : Int) :
    depth + .ofInt first + .ofInt second = depth + .ofInt (first + second) := by
  rw [Int32.add_assoc, Int32.ofInt_add]

theorem openBrackets_plain (unquoted : '"' ∉ slice) :
    openBrackets depth false (slice ++ after) = openBrackets
      (depth + .ofInt (slice.countP isOpening - slice.countP isClosing)) false after := by
  induction slice generalizing depth with
  | nil => simp
  | cons c slice ih =>
    rw [List.mem_cons, not_or] at unquoted
    rw [List.cons_append, openBrackets_code (Ne.symm unquoted.1), ih unquoted.2, List.countP_cons,
      List.countP_cons, add_ofInt]
    congr 3
    cases isOpening c <;> cases isClosing c <;> simp <;> omega

theorem openBrackets_inside {value : List Char} (resolved : Text.Resolved slice value) :
    openBrackets depth true (slice ++ after) = openBrackets depth true after := by
  induction resolved with
  | nil => rfl
  | plain plain _ ih => rw [List.cons_append, openBrackets_quoted plain, ih]
  | escape _ _ ih | other _ _ _ ih =>
    rw [List.cons_append, List.cons_append, openBrackets_escape, ih]

theorem openBrackets_string (whole : string.pattern.Matches slice) :
    openBrackets depth false (slice ++ after) = openBrackets depth false after := by
  obtain ⟨body, value, rfl, resolved⟩ := matches_string_iff.mp whole
  rw [List.cons_append, openBrackets_quote, List.append_assoc, openBrackets_inside resolved,
    List.singleton_append, openBrackets_endQuote]

end Scanning

section Tokens

variable {rule : LexicalRule} {slice after : List Char}

theorem word_brackets (word : Fixed) : '"' ∉ word.spelling.toList ∧
    word.spelling.toList.countP isOpening = (TokenKind.fixed word).opens.toNat ∧
    word.spelling.toList.countP isClosing = (TokenKind.fixed word).closes.toNat := by
  cases word <;> decide

def signs : List Char := ['"', '(', ')', '[', ']', Char.ofNat 0x7b, Char.ofNat 0x7d]

theorem mem_signs {c : Char} (sign : (isOpening c || isClosing c) = true) : c ∈ signs := by
  simp only [isOpening, isClosing, Bool.or_eq_true, decide_eq_true_eq] at sign
  rcases sign with ((rfl | rfl) | brace) | ((rfl | rfl) | brace)
  · decide
  · decide
  · rw [← Char.ofNat_toNat c, brace]
    decide
  · decide
  · decide
  · rw [← Char.ofNat_toNat c, brace]
    decide

theorem openBrackets_unsigned (declared : rule ∈ numbers ++ [ident])
    (whole : rule.pattern.Matches slice) (depth : Int32) :
    openBrackets depth false (slice ++ after) = openBrackets depth false after := by
  have unused : ∀ rule ∈ numbers ++ [ident], signs.any rule.pattern.uses = false := by decide
  have clear : ∀ c ∈ slice, c ∉ signs := fun c member sign =>
    List.any_eq_false.mp (unused rule declared) c sign (whole.uses member)
  have opening : slice.countP isOpening = 0 := List.countP_eq_zero.mpr fun c member sign =>
    clear c member (mem_signs (by rw [sign, Bool.true_or]))
  have closing : slice.countP isClosing = 0 := List.countP_eq_zero.mpr fun c member sign =>
    clear c member (mem_signs (by rw [sign, Bool.or_true]))
  rw [openBrackets_plain fun member => clear '"' member (by decide), opening, closing]
  simp

theorem openBrackets_token {kind : TokenKind} (takes : rule.Takes slice after)
    (gives : rule.kind = some kind) (depth : Int32) :
    openBrackets depth false (slice ++ after) =
      openBrackets (depth + .ofInt (kind.opens.toNat - kind.closes.toNat)) false after := by
  cases giving takes.declared gives with
  | fixed word =>
    obtain ⟨unquoted, opening, closing⟩ := word_brackets word
    rw [matches_ofFixed.mp takes.matched, openBrackets_plain unquoted, opening, closing]
  | float | uint | int | ident =>
    rw [openBrackets_unsigned (by simp [numbers]) takes.matched]
    simp [TokenKind.opens, TokenKind.closes]
  | string => simp [openBrackets_string takes.matched, TokenKind.opens, TokenKind.closes]

end Tokens

section Counting

/-- The opening brackets among the lexemes of a text and in its comments. -/
def openings (lexemes : List Lexeme) (text : List Char) : Nat :=
  lexemes.countP Lexeme.opens + (outside lexemes 0 text).countP isOpening

def closings (lexemes : List Lexeme) (text : List Char) : Nat :=
  lexemes.countP Lexeme.closes + (outside lexemes 0 text).countP isClosing

variable {offset : Nat} {text rest : List Char} {lexemes : List Lexeme}

/-- Cutting a text into lexemes and scanning it for brackets go along together, as long as no quote
    stands between the lexemes. -/
theorem openBrackets_munch (munch : Lexeme.Munch offset text lexemes rest) (whole : rest = [])
    (unquoted : '"' ∉ outside lexemes offset text) (depth : Int32) :
    openBrackets depth false text =
      depth + .ofInt (lexemes.countP Lexeme.opens + (outside lexemes offset text).countP isOpening -
        (lexemes.countP Lexeme.closes + (outside lexemes offset text).countP isClosing)) := by
  induction munch generalizing depth with
  | done =>
    subst whole
    simp [openBrackets, outside]
  | @skip offset slice after rest rule lexemes takes skips later ih =>
    -- What is skipped may be a comment, whose brackets are counted all the same.
    rw [Lexeme.outside_skip later] at unquoted ⊢
    rw [List.mem_append, not_or] at unquoted
    rw [openBrackets_plain unquoted.1, ih whole unquoted.2, List.countP_append, List.countP_append,
      add_ofInt]
    refine congrArg (depth + Int32.ofInt ·) ?_
    omega
  | @token offset slice after rest rule lexemes kind payload takes gives value later ih =>
    rw [Lexeme.outside_token] at unquoted ⊢
    rw [openBrackets_token takes gives, ih whole unquoted, List.countP_cons, List.countP_cons,
      add_ofInt]
    refine congrArg (depth + Int32.ofInt ·) ?_
    change _ = ((_ + if kind.opens = true then 1 else 0 : Nat) : Int) + _ -
      (((_ + if kind.closes = true then 1 else 0 : Nat) : Int) + _)
    cases kind.opens <;> cases kind.closes <;> simp <;> omega

/-- No character is in a lexeme and outside of all. -/
theorem length_outside_le (munch : Lexeme.Munch offset text lexemes rest) :
    lexemes.length + (outside lexemes offset text).length ≤ text.length := by
  induction munch with
  | @done offset rest => rw [Lexeme.outside_skipped (by simp), List.length_nil, Nat.zero_add]
  | skip takes skips later ih =>
    rw [Lexeme.outside_skip later, List.length_append, List.length_append]
    omega
  | token takes gives value later ih =>
    have some := List.length_pos_of_ne_nil takes.ne_nil
    rw [Lexeme.outside_token, List.length_cons, List.length_append]
    omega

theorem openings_le (munch : Lexeme.Munch 0 text lexemes rest) :
    openings lexemes text ≤ text.length :=
  (Nat.add_le_add List.countP_le_length List.countP_le_length).trans (length_outside_le munch)

theorem closings_le (munch : Lexeme.Munch 0 text lexemes rest) :
    closings lexemes text ≤ text.length :=
  (Nat.add_le_add List.countP_le_length List.countP_le_length).trans (length_outside_le munch)

end Counting

theorem zero_lt_ofInt_iff {n : Int} (least : -2 ^ 31 ≤ n) (most : n < 2 ^ 31) :
    0 < Int32.ofInt n ↔ 0 < n := by
  rw [Int32.lt_iff_toInt_lt, Int32.toInt_ofInt_of_le least most, Int32.toInt_zero]

/-- Of a text with lexemes and without quotes in its comments, the session counts the brackets among
    the lexemes and in the comments together. So, as long as 32 bits are enough, it waits for more
    lines exactly if there are more opening than closing ones; and exactly if there are more among
    the lexemes, if the comments have as many opening as closing ones. -/
theorem waits_for_brackets (text : List Char) (lexemes : List Lexeme)
    (cut : Lexeme.ofText text = .ok lexemes) (unquoted : '"' ∉ outside lexemes 0 text) :
    (needsMore text = true ↔
      0 < Int32.ofInt (openings lexemes text - closings lexemes text)) ∧
    (text.length < 2 ^ 31 →
      (needsMore text = true ↔ closings lexemes text < openings lexemes text) ∧
      ((outside lexemes 0 text).countP isOpening = (outside lexemes 0 text).countP isClosing →
        (needsMore text = true ↔ lexemes.countP Lexeme.closes < lexemes.countP Lexeme.opens)) ∧
      ∀ lines, ∀ x ∈ stepsOf lines, x.aside = false → x.text = text →
        (closings lexemes text < openings lexemes text → x.after = ⟨x.before.store, text⟩) ∧
        (openings lexemes text ≤ closings lexemes text → x.handed? = some text)) := by
  have munch := Lexeme.munch_of_ofText cut
  have wrapped : needsMore text = true ↔
      0 < Int32.ofInt (openings lexemes text - closings lexemes text) := by
    rw [needsMore, openBrackets_munch munch rfl unquoted 0, Int32.zero_add, decide_eq_true_eq]
    rfl
  refine ⟨wrapped, fun short => ?_⟩
  have waits : needsMore text = true ↔ closings lexemes text < openings lexemes text := by
    have opened := openings_le munch
    have closed := closings_le munch
    rw [wrapped, zero_lt_ofInt_iff (by omega) (by omega)]
    omega
  refine ⟨waits, fun even => ?_, fun lines x read inside same => ⟨fun more => ?_, fun closed => ?_⟩⟩
  · rw [waits, openings, closings, even]
    omega
  · cases (course_steps .start lines).meant x read with
    | aside aside => cases inside.symm.trans aside
    | part _ _ _ after => rw [after, same]
    | whole _ complete =>
      rw [same, waits.mpr more] at complete
      cases complete
  · have complete : needsMore text = false := Bool.eq_false_iff.mpr fun more =>
      Nat.lt_irrefl _ (Nat.lt_of_lt_of_le (waits.mp more) closed)
    rw [Step.handed?_eq_some inside (same ▸ complete), same]

/-- A bracket in a string is not counted, and a comment without brackets does no harm. -/
theorem waits_for_brackets_of_call :
    ∃ lexemes, Lexeme.ofText "f(\"(\", // so\n".toList = .ok lexemes ∧
      '"' ∉ outside lexemes 0 "f(\"(\", // so\n".toList ∧
      (needsMore "f(\"(\", // so\n".toList = true ↔
        lexemes.countP Lexeme.closes < lexemes.countP Lexeme.opens) := by
  refine ⟨[⟨.ident "f", 0, 1⟩, ⟨.fixed .leftParen, 1, 2⟩, ⟨.string "(", 2, 5⟩,
    ⟨.fixed .comma, 5, 6⟩], by cbv, ?_⟩
  have comment : outside [⟨.ident "f", 0, 1⟩, ⟨.fixed .leftParen, 1, 2⟩, ⟨.string "(", 2, 5⟩,
      ⟨.fixed .comma, 5, 6⟩] 0 "f(\"(\", // so\n".toList = " // so\n".toList := rfl
  have unquoted : '"' ∉ " // so\n".toList := by decide
  rw [← comment] at unquoted
  refine ⟨unquoted, ((waits_for_brackets _ _ (by cbv) unquoted).2 (by decide)).2.1 ?_⟩
  rw [comment]
  decide

/-- A bracket in a comment keeps a text waiting that has no open bracket, or cuts one short that
    has; and behind a quote in a comment the code is taken for a string, so the bracket that closes
    the text is missed. -/
theorem waits_for_comment :
    (∃ lexemes, Lexeme.ofText "1 // (\n".toList = .ok lexemes ∧
      lexemes.countP Lexeme.opens = 0 ∧ needsMore "1 // (\n".toList = true) ∧
    (∃ lexemes, Lexeme.ofText "(1 + // )\n".toList = .ok lexemes ∧
      lexemes.countP Lexeme.opens = 1 ∧ lexemes.countP Lexeme.closes = 0 ∧
      needsMore "(1 + // )\n".toList = false) ∧
    ∃ lexemes, Lexeme.ofText "[1, // \"\n2]\n".toList = .ok lexemes ∧
      lexemes.countP Lexeme.opens = 1 ∧ lexemes.countP Lexeme.closes = 1 ∧
      needsMore "[1, // \"\n2]\n".toList = true := by
  refine ⟨?_, ?_, ?_⟩
  · exact ⟨[⟨.int 1, 0, 1⟩], by cbv, by decide, by cbv⟩
  · exact ⟨[⟨.fixed .leftParen, 0, 1⟩, ⟨.int 1, 1, 2⟩, ⟨.fixed .plus, 3, 4⟩], by cbv, by decide,
      by decide, by cbv⟩
  · exact ⟨[⟨.fixed .leftBracket, 0, 1⟩, ⟨.int 1, 1, 2⟩, ⟨.fixed .comma, 2, 3⟩, ⟨.int 2, 9, 10⟩,
      ⟨.fixed .rightBracket, 10, 11⟩], by cbv, by decide, by decide, by cbv⟩

end Repl

end MonkeyLang
