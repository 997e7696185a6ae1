import MonkeyLang.Proofs.Token.Munch

namespace MonkeyLang

namespace Pattern

variable {p : Pattern} {c : Char} {a b : List Char}

def behind (p : Pattern) : List Char → Pattern
  | [] => p
  | c :: rest => (p.derive c).behind rest

theorem matches_behind : (p.behind a).Matches b ↔ p.Matches (a ++ b) := by
  induction a generalizing p with
  | nil => rfl
  | cons c rest ih => rw [behind, ih, matches_derive, List.cons_append]

theorem not_matches_of_isNothing (none : p.isNothing = true) : ¬ p.Matches a := by
  rw [← accepts_iff, accepts_of_isNothing none]
  exact Bool.false_ne_true

def ends : Pattern → Bool
  | nothing | empty => true
  | _ => false

theorem not_matches_of_ends (ends : p.ends = true) : ¬ p.Matches (c :: a) := by
  cases p with
  | nothing => exact not_matches_nothing
  | empty => simp
  | _ => cases ends

def uses (c : Char) : Pattern → Bool
  | nothing | empty => false
  | char cls => cls.contains c
  | seq p q | alt p q => p.uses c || q.uses c
  | star p => p.uses c

theorem Matches.uses (whole : p.Matches a) (member : c ∈ a) : p.uses c = true := by
  induction whole with
  | empty | done => cases member
  | char inside => rwa [List.mem_singleton.mp member]
  | seq _ _ first second =>
    rcases List.mem_append.mp member with member | member
    · exact Bool.or_eq_true_iff.mpr (.inl (first member))
    · exact Bool.or_eq_true_iff.mpr (.inr (second member))
  | left _ ih => exact Bool.or_eq_true_iff.mpr (.inl (ih member))
  | right _ ih => exact Bool.or_eq_true_iff.mpr (.inr (ih member))
  | more _ _ first later => exact (List.mem_append.mp member).elim first later

end Pattern

namespace LexicalRule

open Pattern

/-- Behind the end of a member of an array: nothing, a comma or a closing bracket. -/
def Closes (after : List Char) : Prop := ∀ c rest, after = c :: rest → c ∈ [',', ']']

section Stops

variable {rule : LexicalRule} {slice after : List Char}

theorem takes_of_stops (declared : rule ∈ all) (named : rule ≠ ident)
    (matched : rule.pattern.Matches slice)
    (stops : ∀ other ∈ all, ∀ c rest, after = c :: rest →
      ∀ more, ¬ other.pattern.Matches (slice ++ c :: more)) : rule.Takes slice after where
  declared := declared
  matched := matched
  longest other member piece head whole := by
    obtain ⟨left, same⟩ := head
    rcases List.append_eq_append_iff.mp same with ⟨more, rfl, -⟩ | ⟨more, rfl, rest⟩
    · rw [List.length_append]
      omega
    · cases more with
      | nil => rw [List.append_nil]
      | cons c more => exact absurd whole (stops other member c _ rest more)
  first other member whole := by
    rcases eq_of_matches declared member matched whole with same | keyword | ⟨_, _, _, same⟩
    · exact .inl same
    · obtain ⟨word, keyword, fixed, same⟩ := keyword
      exact .inr ⟨same, word, keyword, fixed⟩
    · exact absurd same named

theorem ofFixed_mem (word : Fixed) : ofFixed word ∈ all := by
  rw [all_eq]
  exact List.mem_append_left _ (List.mem_map_of_mem (Fixed.mem_words word))

/-- The marks that no longer token begins with. -/
def marks : List Fixed := [.comma, .leftBracket, .rightBracket, .minus]

theorem marks_end : ∀ word ∈ marks, ∀ rule ∈ all,
    (rule.pattern.behind word.spelling.toList).ends = true := by
  decide

theorem takes_mark {word : Fixed} (mark : word ∈ marks) (after : List Char) :
    (ofFixed word).Takes word.spelling.toList after := by
  refine takes_of_stops (ofFixed_mem word) (ofFixed_ne_ident word) (matches_ofFixed.mpr rfl) ?_
  intro other member c rest _ more whole
  exact not_matches_of_ends (marks_end word mark other member) (matches_behind.mpr whole)

def valueWords : List Fixed := [.trueKey, .falseKey, .nilKey]

theorem valueWords_end {c : Char} (closing : c ∈ [',', ']']) : ∀ word ∈ valueWords,
    ∀ rule ∈ all, (rule.pattern.behind (word.spelling.toList ++ [c])).isNothing = true := by
  rcases List.mem_pair.mp closing with rfl | rfl <;> decide

theorem takes_word {word : Fixed} (stands : word ∈ valueWords) (closes : Closes after) :
    (ofFixed word).Takes word.spelling.toList after := by
  refine takes_of_stops (ofFixed_mem word) (ofFixed_ne_ident word) (matches_ofFixed.mpr rfl) ?_
  intro other member c rest same more whole
  have none := valueWords_end (closes c rest same) word stands other member
  rw [List.append_cons] at whole
  exact not_matches_of_isNothing none (matches_behind.mpr whole)

theorem digits_end {d c : Char} (digit : d.isDigit = true) (closing : c ∈ [',', ']'])
    (member : rule ∈ all) :
    (rule.pattern.derive d).isNothing = true ∨ rule.pattern.uses c = false := by
  have each : ∀ n, 48 ≤ n → n ≤ 57 → ∀ rule ∈ all,
      (rule.pattern.derive (Char.ofNat n)).isNothing = true ∨
        rule.pattern.uses ',' = false ∧ rule.pattern.uses ']' = false := by decide
  obtain ⟨least, most⟩ := Char.isDigit_iff_toNat.mp digit
  rw [← Char.ofNat_toNat d]
  refine (each d.toNat least most rule member).imp_right fun unused => ?_
  rcases List.mem_pair.mp closing with rfl | rfl
  · exact unused.1
  · exact unused.2

theorem numbers_head : ∀ rule ∈ numbers, rule.pattern.head? = some .digit ∧ rule ≠ ident := by
  intro rule number
  simp only [numbers, List.mem_cons, List.not_mem_nil, or_false] at number
  rcases number with rfl | rfl | rfl <;>
    exact ⟨rfl, fun same => absurd (congrArg kind same) (by decide)⟩

theorem takes_number (number : rule ∈ numbers) (matched : rule.pattern.Matches slice)
    (closes : Closes after) : rule.Takes slice after := by
  have declared : rule ∈ all := by
    rw [all_eq]
    exact List.mem_append_right _ (List.mem_append_left _ number)
  obtain ⟨head, named⟩ := numbers_head rule number
  refine takes_of_stops declared named matched fun other member c rest same more whole => ?_
  obtain ⟨d, ds, rfl, digit⟩ := matched.head? head
  rw [CharClass.contains_digit] at digit
  rcases digits_end digit (closes c rest same) member with none | unused
  · exact not_matches_of_isNothing none (matches_derive.mpr whole)
  · rw [whole.uses (List.mem_append_right _ List.mem_cons_self)] at unused
    cases unused

theorem matches_blanks_iff :
    blanks.pattern.Matches slice ↔ slice ≠ [] ∧ ∀ c ∈ slice, c ∈ [' ', '\t', '\n', '\r'] := by
  constructor
  · intro whole
    refine ⟨?_, matches_blanks whole⟩
    rintro rfl
    exact absurd (nullable_iff.mpr whole) (by decide)
  · rintro ⟨some, members⟩
    obtain ⟨c, rest, rfl⟩ := List.exists_cons_of_ne_nil some
    obtain ⟨first, others⟩ := List.forall_mem_cons.mp members
    have here : (char (.ofChars [' ', '\t', '\n', '\r'])).Matches [c] :=
      .char (CharClass.contains_ofChars.mpr first)
    exact .seq here (matches_star_char.mpr fun d member =>
      CharClass.contains_ofChars.mpr (others d member))

theorem eq_blanks_of_blank {c : Char} (blank : c ∈ [' ', '\t', '\n', '\r'])
    (declared : rule ∈ all) (whole : rule.pattern.Matches (c :: slice)) : rule = blanks := by
  have apart : ([' ', '\t', '\n', '\r'].all fun c =>
      (Fixed.words.map ofFixed ++ (numbers ++ [string, ident, comment])).all fun rule =>
        (rule.pattern.derive c).isNothing) = true := by decide
  by_contra other
  have among : rule ∈ Fixed.words.map ofFixed ++ (numbers ++ [string, ident, comment]) := by
    rw [all_eq, List.mem_append, List.mem_append] at declared
    rw [List.mem_append, List.mem_append]
    refine declared.imp_right (Or.imp_right fun member => ?_)
    simpa [others, other] using member
  have nothing := List.all_eq_true.mp (List.all_eq_true.mp apart c blank) rule among
  exact not_matches_of_isNothing nothing (matches_derive.mpr whole)

theorem takes_blanks (some : slice ≠ []) (members : ∀ c ∈ slice, c ∈ [' ', '\t', '\n', '\r'])
    (ends : ∀ d rest, after = d :: rest → d ∉ [' ', '\t', '\n', '\r']) :
    blanks.Takes slice after := by
  have declared : blanks ∈ all := by simp [all]
  have named : blanks ≠ ident := fun same => absurd (congrArg kind same) (by decide)
  refine takes_of_stops declared named (matches_blanks_iff.mpr ⟨some, members⟩) ?_
  intro other member d rest same more whole
  obtain ⟨c, cs, rfl⟩ := List.exists_cons_of_ne_nil some
  rw [eq_blanks_of_blank (members c List.mem_cons_self) member whole] at whole
  exact ends d rest same (matches_blanks whole d (by simp))

theorem takes_space {c : Char} (visible : c ∉ [' ', '\t', '\n', '\r']) (rest : List Char) :
    blanks.Takes [' '] (c :: rest) := by
  refine takes_blanks (by simp) (by simp) fun d rest' same => ?_
  rwa [← (List.cons.inj same).1]

end Stops

end LexicalRule

open Text (byteLength)

namespace Lexeme

/-- In front of what stands behind the text, exactly the lexemes are cut off. -/
def Cuts (offset : Nat) (text after : List Char) (lexemes : List Lexeme) : Prop :=
  ∀ later rest, Munch (offset + byteLength text) after later rest →
    Munch offset (text ++ after) (lexemes ++ later) rest

section Cutting

variable {offset : Nat} {text slice after : List Char} {lexemes later : List Lexeme}
  {rule : LexicalRule}

theorem cuts_nil : Cuts offset [] after [] := fun _ _ munch => munch

theorem Cuts.append (first : Cuts offset text (slice ++ after) lexemes)
    (second : Cuts (offset + byteLength text) slice after later) :
    Cuts offset (text ++ slice) after (lexemes ++ later) := by
  intro others rest munch
  rw [Text.byteLength_append, ← Nat.add_assoc] at munch
  rw [List.append_assoc, List.append_assoc]
  exact first _ _ (second _ _ munch)

theorem cuts_token {kind : TokenKind} {payload : kind.Payload} (takes : rule.Takes slice after)
    (gives : rule.kind = some kind) (value : kind.read? slice = some payload) :
    Cuts offset slice after [⟨⟨kind, payload⟩, offset, offset + byteLength slice⟩] :=
  fun _ _ munch => .token takes gives value munch

theorem cuts_skipped (takes : rule.Takes slice after) (skips : rule.kind = none) :
    Cuts offset slice after [] :=
  fun _ _ munch => .skip takes skips munch

theorem Cuts.ofText_eq (cuts : Cuts 0 text [] lexemes) : ofText text = .ok lexemes := by
  have munch := cuts [] [] .done
  rw [List.append_nil, List.append_nil] at munch
  exact munch.ofText_eq

end Cutting

end Lexeme

end MonkeyLang
