import MonkeyLang.Proofs.Token.Cuts

namespace MonkeyLang

namespace Text

/-- The characters that have a meaning behind a backslash, each with what the two stand for. -/
def escapes : List (Char × Char) :=
  [('n', '\n'), ('t', '\t'), ('r', '\r'), ('\\', '\\'), ('"', '"')]

/-- Between quotes the body stands for the value. It is cut into characters that stand for
    themselves and pairs of a backslash and a character in the same line; a pair without a meaning
    stands for itself. -/
inductive Resolved : List Char → List Char → Prop
  | nil : Resolved [] []
  | plain {c : Char} {body value : List Char} (plain : c ∉ ['"', '\\'])
      (later : Resolved body value) : Resolved (c :: body) (c :: value)
  | escape {mark c : Char} {body value : List Char} (listed : (mark, c) ∈ escapes)
      (later : Resolved body value) : Resolved ('\\' :: mark :: body) (c :: value)
  | other {mark : Char} {body value : List Char} (unlisted : ∀ c, (mark, c) ∉ escapes)
      (inLine : mark ≠ '\n') (later : Resolved body value) :
      Resolved ('\\' :: mark :: body) ('\\' :: mark :: value)

variable {mark c : Char} {body body' value value' cs : List Char}

theorem escaped_of_listed (listed : (mark, c) ∈ escapes) : escaped mark = [c] ∧ mark ≠ '\n' := by
  simp only [escapes, List.mem_cons, List.not_mem_nil, or_false, Prod.mk.injEq] at listed
  rcases listed with ⟨rfl, rfl⟩ | ⟨rfl, rfl⟩ | ⟨rfl, rfl⟩ | ⟨rfl, rfl⟩ | ⟨rfl, rfl⟩ <;>
    exact ⟨rfl, by decide⟩

theorem escaped_of_unlisted (unlisted : ∀ c, (mark, c) ∉ escapes) :
    escaped mark = ['\\', mark] := by
  unfold escaped
  split
  · exact absurd (by decide) (unlisted '\n')
  · exact absurd (by decide) (unlisted '\t')
  · exact absurd (by decide) (unlisted '\r')
  · exact absurd (by decide) (unlisted '\\')
  · exact absurd (by decide) (unlisted '"')
  · rfl

theorem unescape_plain (plain : c ∉ ['"', '\\']) : unescape (c :: body) = c :: unescape body := by
  rw [unescape]
  rintro - - rfl
  simp at plain

namespace Resolved

theorem unescape_eq (resolved : Resolved body value) : unescape body = value := by
  induction resolved with
  | nil => rfl
  | plain plain _ ih => rw [unescape_plain plain, ih]
  | escape listed _ ih => rw [unescape, (escaped_of_listed listed).1, ih]; rfl
  | other unlisted _ _ ih => rw [unescape, escaped_of_unlisted unlisted, ih]; rfl

theorem append (first : Resolved body value) (second : Resolved body' value') :
    Resolved (body ++ body') (value ++ value') := by
  induction first with
  | nil => exact second
  | plain plain _ ih => exact .plain plain ih
  | escape listed _ ih => exact .escape listed ih
  | other unlisted inLine _ ih => exact .other unlisted inLine ih

theorem exists_pair (inLine : mark ≠ '\n') : ∃ value, Resolved ['\\', mark] value := by
  by_cases listed : ∃ c, (mark, c) ∈ escapes
  · obtain ⟨c, listed⟩ := listed
    exact ⟨_, .escape listed .nil⟩
  · exact ⟨_, .other (not_exists.mp listed) inLine .nil⟩

theorem behind_plain (resolved : Resolved (c :: body) value) (plain : c ∉ ['"', '\\']) :
    ∃ value, Resolved body value := by
  cases resolved with
  | plain _ later => exact ⟨_, later⟩
  | escape | other => simp at plain

theorem behind_escape (resolved : Resolved ('\\' :: mark :: body) value) :
    ∃ value, Resolved body value := by
  cases resolved with
  | plain plain => simp at plain
  | escape _ later | other _ _ later => exact ⟨_, later⟩

theorem not_behind_quote (resolved : Resolved body value) (more : List Char) :
    ¬Resolved (body ++ '"' :: more) value' := by
  induction resolved generalizing value' with
  | nil =>
    intro longer
    cases longer with
    | plain plain => simp at plain
  | plain plain _ ih =>
    intro longer
    obtain ⟨_, later⟩ := longer.behind_plain plain
    exact ih later
  | escape _ _ ih | other _ _ _ ih =>
    intro longer
    obtain ⟨_, later⟩ := longer.behind_escape
    exact ih later

end Resolved

theorem resolved_flatMap {written : Char → List Char}
    (each : ∀ c ∈ cs, (written c = [c] ∧ c ∉ ['"', '\\']) ∨
      ∃ mark, written c = ['\\', mark] ∧ (mark, c) ∈ escapes) :
    Resolved (cs.flatMap written) cs := by
  induction cs with
  | nil => exact .nil
  | cons c cs ih =>
    obtain ⟨here, later⟩ := List.forall_mem_cons.mp each
    rw [List.flatMap_cons]
    rcases here with ⟨same, plain⟩ | ⟨mark, same, listed⟩
    · rw [same]
      exact .plain plain (ih later)
    · rw [same]
      exact .escape listed (ih later)

/-- In quotes the character is written as itself, or it has one of the escapes that are read. -/
def Shown (c : Char) : Prop := quotedChar c = [c] ∨ c ∈ ['"', '\\', '\n', '\r', '\t']

theorem resolved_quoted (shown : ∀ c ∈ cs, Shown c) : Resolved (cs.flatMap quotedChar) cs := by
  refine resolved_flatMap fun c member => ?_
  by_cases escape : c ∈ ['"', '\\', '\n', '\r', '\t']
  · right
    simp only [List.mem_cons, List.not_mem_nil, or_false] at escape
    rcases escape with rfl | rfl | rfl | rfl | rfl
    · exact ⟨'"', rfl, by decide⟩
    · exact ⟨'\\', rfl, by decide⟩
    · exact ⟨'n', rfl, by decide⟩
    · exact ⟨'r', rfl, by decide⟩
    · exact ⟨'t', rfl, by decide⟩
  · refine .inl ⟨(shown c member).resolve_right escape, fun special => escape ?_⟩
    rcases List.mem_pair.mp special with rfl | rfl <;> simp

theorem inner_quotes (body : List Char) : inner ('"' :: (body ++ ['"'])) = body := by
  rw [inner, List.drop_one, List.tail_cons, List.dropLast_concat]

def backslashed (c : Char) : List Char := if c ∈ ['"', '\\'] then ['\\', c] else [c]

def literal (cs : List Char) : List Char := '"' :: (cs.flatMap backslashed ++ ['"'])

theorem resolved_backslashed (cs : List Char) : Resolved (cs.flatMap backslashed) cs := by
  refine resolved_flatMap fun c _ => ?_
  by_cases special : c ∈ ['"', '\\']
  · refine .inr ⟨c, if_pos special, ?_⟩
    rcases List.mem_pair.mp special with rfl | rfl <;> decide
  · exact .inl ⟨if_neg special, special⟩

end Text

namespace LexicalRule

open Pattern Text

variable {rule : LexicalRule} {cs body value slice more : List Char}

def stringChar : Pattern :=
  alt (char (.except ['"', '\\'])) (seq (char (.ofChar '\\')) (char (.except ['\n'])))

theorem matches_stringChars_iff : (star stringChar).Matches body ↔ ∃ value, Resolved body value := by
  constructor
  · intro chars
    generalize same : star stringChar = p at chars
    induction chars with
    | done => exact ⟨[], .nil⟩
    | more first _ _ later =>
      cases same
      obtain ⟨value, resolved⟩ := later rfl
      rcases matches_alt_iff.mp first with plain | escape
      · obtain ⟨c, other, rfl⟩ := matches_char_iff.mp plain
        exact ⟨c :: value, .plain (CharClass.contains_except.mp other) resolved⟩
      · obtain ⟨_, _, backslash, mark, rfl⟩ := matches_seq_iff.mp escape
        obtain ⟨c, other, rfl⟩ := matches_char_iff.mp mark
        rw [matches_ofChar.mp backslash]
        have inLine := CharClass.contains_except.mp other
        obtain ⟨front, pair⟩ := Resolved.exists_pair (by simpa using inLine)
        exact ⟨front ++ value, pair.append resolved⟩
    | _ => cases same
  · rintro ⟨value, resolved⟩
    have pair {mark : Char} (inLine : mark ≠ '\n') : stringChar.Matches ['\\', mark] :=
      .right (.seq (matches_ofChar.mpr rfl)
        (.char (CharClass.contains_except.mpr (by simpa using inLine))))
    induction resolved with
    | nil => exact .done
    | plain plain _ ih => exact .more (.left (.char (CharClass.contains_except.mpr plain))) ih
    | escape listed _ ih => exact .more (pair (escaped_of_listed listed).2) ih
    | other _ inLine _ ih => exact .more (pair inLine) ih

theorem matches_openString_iff :
    openString.Matches slice ↔ ∃ body value, slice = '"' :: body ∧ Resolved body value := by
  rw [openString, matches_seq_iff]
  constructor
  · rintro ⟨_, body, quote, chars, rfl⟩
    rw [matches_ofChar.mp quote]
    obtain ⟨value, resolved⟩ := matches_stringChars_iff.mp chars
    exact ⟨body, value, rfl, resolved⟩
  · rintro ⟨body, value, rfl, resolved⟩
    exact ⟨['"'], body, matches_ofChar.mpr rfl, matches_stringChars_iff.mpr ⟨value, resolved⟩, rfl⟩

theorem matches_string_iff : string.pattern.Matches slice ↔
    ∃ body value, slice = '"' :: (body ++ ['"']) ∧ Resolved body value := by
  rw [string, matches_seq_iff]
  simp only [matches_openString_iff, matches_ofChar]
  constructor
  · rintro ⟨_, _, ⟨body, value, rfl, resolved⟩, rfl, rfl⟩
    exact ⟨body, value, rfl, resolved⟩
  · rintro ⟨body, value, rfl, resolved⟩
    exact ⟨'"' :: body, ['"'], ⟨body, value, rfl, resolved⟩, rfl, rfl⟩

theorem eq_string_of_quote (declared : rule ∈ all) (whole : rule.pattern.Matches ('"' :: cs)) :
    rule = string := by
  have alone : ∀ rule ∈ Fixed.words.map ofFixed ++ (numbers ++ [ident, blanks, comment]),
      (rule.pattern.derive '"').isNothing = true := by decide
  by_contra other
  have among : rule ∈ Fixed.words.map ofFixed ++ (numbers ++ [ident, blanks, comment]) := by
    rw [all_eq] at declared
    simp only [others, List.mem_append, List.mem_cons, List.not_mem_nil, or_false] at declared ⊢
    tauto
  exact not_matches_of_isNothing (alone rule among) (matches_derive.mpr whole)

theorem read?_string (resolved : Resolved body value) :
    TokenKind.string.read? ('"' :: (body ++ ['"'])) = some (String.ofList value) := by
  rw [TokenKind.read?, inner_quotes, resolved.unescape_eq]

theorem eq_nil_of_matches_string (whole : string.pattern.Matches slice)
    (longer : string.pattern.Matches (slice ++ more)) : more = [] := by
  obtain ⟨body, value, rfl, resolved⟩ := matches_string_iff.mp whole
  obtain ⟨body', value', same, resolved'⟩ := matches_string_iff.mp longer
  rw [List.cons_append, List.append_assoc, List.cons.injEq] at same
  rcases List.append_eq_append_iff.mp same.2 with ⟨front, rfl, split⟩ | ⟨back, -, split⟩
  · cases front with
    | nil => exact (List.cons.inj split).2
    | cons d front =>
      rw [(List.cons.inj split).1.symm] at resolved'
      exact absurd resolved' (resolved.not_behind_quote front)
  · cases back with
    | nil => exact (List.cons.inj split).2.symm
    | cons d back => simp at split

theorem takes_string (whole : string.pattern.Matches slice) (after : List Char) :
    string.Takes slice after := by
  have declared : string ∈ all := by simp [all]
  have named : string ≠ ident := fun same => absurd (congrArg kind same) (by decide)
  refine takes_of_stops declared named whole fun other member c rest same more longer => ?_
  obtain ⟨body, value, rfl, -⟩ := matches_string_iff.mp whole
  rw [eq_string_of_quote member longer] at longer
  exact List.cons_ne_nil c more (eq_nil_of_matches_string whole longer)

theorem takes_quoted (shown : ∀ c ∈ cs, Shown c) (after : List Char) :
    string.Takes (quoted cs) after :=
  takes_string (matches_string_iff.mpr ⟨_, cs, rfl, resolved_quoted shown⟩) after

end LexicalRule

open Text (byteLength)

namespace Lexeme

/-- In front of what stands behind it the slice is the longest match, that of the rule for strings,
    and wherever it stands it is read as one token with the string, and reading goes on behind it. -/
def IsString (slice after : List Char) (s : String) : Prop :=
  LexicalRule.longest (slice ++ after) = some (.string, slice.length) ∧
  ∀ offset, scanFrom offset (slice ++ after) =
    (scanFrom (offset + byteLength slice) after).map
      (⟨.string s, offset, offset + byteLength slice⟩ :: ·)

theorem isString_of_resolved {body value : List Char} (resolved : Text.Resolved body value)
    (after : List Char) : IsString ('"' :: (body ++ ['"'])) after (String.ofList value) := by
  have takes := LexicalRule.takes_string
    (LexicalRule.matches_string_iff.mpr ⟨body, value, rfl, resolved⟩) after
  refine ⟨takes.longest_eq, fun offset => ?_⟩
  rw [scanFrom_takes takes]
  dsimp only [LexicalRule.string]
  rw [LexicalRule.read?_string resolved]
  rfl

/-- Every string, written with a backslash before each quote and each backslash, is one token with
    that string for its value, whatever stands behind it. What is taken for a literal anywhere is
    resolved between its two quotes, and its value is what that stands for; no escape goes on over the
    closing quote, and nothing behind that can belong to the literal. -/
theorem string_literals_resolved :
    (∀ (s : String) (after : List Char), IsString (Text.literal s.toList) after s) ∧
    ∀ (text : List Char) (n : Nat), LexicalRule.longest text = some (.string, n) →
      ∃ body value after, text = '"' :: (body ++ ['"']) ++ after ∧ n = body.length + 2 ∧
        Text.Resolved body value ∧ (∀ other, Text.Resolved body other → other = value) ∧
        (∀ more other, ¬Text.Resolved (body ++ '"' :: more) other) ∧
        IsString ('"' :: (body ++ ['"'])) after (String.ofList value) := by
  refine ⟨fun s after => ?_, fun text n found => ?_⟩
  · have whole := isString_of_resolved (Text.resolved_backslashed s.toList) after
    rwa [String.ofList_toList] at whole
  · rcases LexicalRule.longest_cut text with ⟨rule, slice, after, rfl, takes, cut⟩ | ⟨-, none⟩
    · rw [found] at cut
      cases cut
      obtain ⟨body, value, rfl, resolved⟩ := LexicalRule.matches_string_iff.mp takes.matched
      refine ⟨body, value, after, rfl, by simp, resolved, fun other there => ?_,
        fun more other => resolved.not_behind_quote more, isString_of_resolved resolved after⟩
      exact there.unescape_eq.symm.trans resolved.unescape_eq
    · rw [found] at none
      cases none

end Lexeme

end MonkeyLang
