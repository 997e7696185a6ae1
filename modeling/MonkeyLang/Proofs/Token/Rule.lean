import Mathlib.Data.List.Nodup
import Mathlib.Data.List.Pairwise
import MonkeyLang.Proofs.Number.Digits
import MonkeyLang.Proofs.Token.Pattern

namespace MonkeyLang

def Pattern.head? : Pattern → Option CharClass
  | char cls => some cls
  | seq p _ => p.head?
  | _ => none

theorem Pattern.Matches.head? {p : Pattern} {a : List Char} {cls : CharClass} (whole : p.Matches a)
    (head : p.head? = some cls) : ∃ c rest, a = c :: rest ∧ cls.contains c = true := by
  induction whole with
  | char member =>
    cases head
    exact ⟨_, [], rfl, member⟩
  | seq _ _ first _ =>
    obtain ⟨c, rest, rfl, member⟩ := first head
    exact ⟨c, _, rfl, member⟩
  | _ => cases head

namespace Fixed

def words : List Fixed := keywords ++ symbols ++ operators

theorem mem_words (word : Fixed) : word ∈ words := by
  cases word <;> decide

theorem spellings_nodup : (words.map fun word => word.spelling.toList).Nodup := by
  decide

theorem spelling_injective {word other : Fixed}
    (same : word.spelling.toList = other.spelling.toList) : word = other :=
  List.inj_on_of_nodup_map spellings_nodup (mem_words word) (mem_words other) same

end Fixed

namespace LexicalRule

open Pattern Decimal

section Numbers

variable {a : List Char}

theorem matches_star_digits : (star (char .digit)).Matches a ↔ AllDigits a := by
  rw [matches_star_char]
  simp only [CharClass.contains_digit, AllDigits]

theorem matches_digits : digits.Matches a ↔ a ≠ [] ∧ AllDigits a := by
  rw [digits, plus, matches_seq_iff]
  simp only [matches_char_iff, CharClass.contains_digit, matches_star_digits]
  constructor
  · rintro ⟨_, later, ⟨c, digit, rfl⟩, digits, rfl⟩
    exact ⟨List.cons_ne_nil _ _, allDigits_cons.mpr ⟨digit, digits⟩⟩
  · rintro ⟨some, digits⟩
    obtain ⟨c, later, rfl⟩ := List.exists_cons_of_ne_nil some
    obtain ⟨digit, digits⟩ := allDigits_cons.mp digits
    exact ⟨[c], later, ⟨c, digit, rfl⟩, digits, rfl⟩

theorem matches_int : int.pattern.Matches a ↔ a ≠ [] ∧ AllDigits a := matches_digits

theorem matches_uint :
    uint.pattern.Matches a ↔ ∃ ds, ds ≠ [] ∧ AllDigits ds ∧ a = ds ++ ['u'] := by
  simp only [uint, matches_seq_iff, matches_digits, matches_ofChar]
  constructor
  · rintro ⟨ds, _, ⟨some, digits⟩, rfl, rfl⟩
    exact ⟨ds, some, digits, rfl⟩
  · rintro ⟨ds, some, digits, rfl⟩
    exact ⟨ds, ['u'], ⟨some, digits⟩, rfl, rfl⟩

theorem matches_float :
    float.pattern.Matches a ↔ ∃ ds fs power, ds ≠ [] ∧ AllDigits ds ∧ fs ≠ [] ∧ AllDigits fs ∧
      (exponent.Matches power ∨ power = []) ∧ a = ds ++ '.' :: (fs ++ power) := by
  simp only [float, matches_seq_iff, matches_digits, matches_ofChar, Pattern.optional,
    matches_alt_iff, matches_empty_iff]
  constructor
  · rintro ⟨ds, _, ⟨some, digits⟩, ⟨_, _, rfl, ⟨fs, power, ⟨some', digits'⟩, ends, rfl⟩, rfl⟩, rfl⟩
    exact ⟨ds, fs, power, some, digits, some', digits', ends, rfl⟩
  · rintro ⟨ds, fs, power, some, digits, some', digits', ends, rfl⟩
    have behind := And.intro some' digits'
    exact ⟨ds, _, ⟨some, digits⟩, ⟨['.'], _, rfl, ⟨fs, power, behind, ends, rfl⟩, rfl⟩, rfl⟩

end Numbers

def numbers : List LexicalRule := [float, uint, int]

def others : List LexicalRule := [string, ident, blanks, comment]

theorem all_eq : all = Fixed.words.map ofFixed ++ (numbers ++ others) := rfl

inductive Giving : LexicalRule → TokenKind → Prop
  | fixed (word : Fixed) : Giving (ofFixed word) (.fixed word)
  | float : Giving float .float
  | uint : Giving uint .uint
  | int : Giving int .int
  | string : Giving string .string
  | ident : Giving ident .ident

theorem giving {rule : LexicalRule} {kind : TokenKind} (declared : rule ∈ all)
    (gives : rule.kind = some kind) : Giving rule kind := by
  rw [all_eq, List.mem_append] at declared
  rcases declared with fixed | free
  · obtain ⟨word, -, rfl⟩ := List.mem_map.mp fixed
    cases gives
    exact .fixed word
  · simp only [numbers, others, List.cons_append, List.nil_append, List.mem_cons,
      List.not_mem_nil, or_false] at free
    rcases free with rfl | rfl | rfl | rfl | rfl | rfl | rfl <;> cases gives <;> constructor

def Exclusive (rule other : LexicalRule) : Prop :=
  ∀ a, rule.pattern.Matches a → ¬ other.pattern.Matches a

instance : Std.Symm Exclusive := ⟨fun _ _ apart a there here => apart a here there⟩

def headsApart (rule other : LexicalRule) : Bool :=
  match rule.pattern.head?, other.pattern.head? with
  | some a, some b => a.apart b
  | _, _ => false

theorem exclusive_of_headsApart {rule other : LexicalRule} (apart : rule.headsApart other = true) :
    rule.Exclusive other := by
  intro a here there
  unfold headsApart at apart
  split at apart
  · rename_i x y head head'
    obtain ⟨c, rest, rfl, inside⟩ := here.head? head
    obtain ⟨d, _, same, inside'⟩ := there.head? head'
    cases same
    rw [CharClass.not_contains_of_apart apart inside] at inside'
    cases inside'
  · cases apart

theorem numbers_exclusive : numbers.Pairwise Exclusive := by
  have floatUint : float.Exclusive uint := by
    intro a here there
    obtain ⟨ds, fs, power, -, -, -, -, -, rfl⟩ := matches_float.mp here
    obtain ⟨es, -, digits, same⟩ := matches_uint.mp there
    have point : '.' ∈ es ++ ['u'] := same ▸ List.mem_append_right _ List.mem_cons_self
    rcases List.mem_append.mp point with point | point
    · exact absurd (digits _ point) (by decide)
    · exact absurd point (by decide)
  have floatInt : float.Exclusive int := by
    intro a here there
    obtain ⟨ds, fs, power, -, -, -, -, -, rfl⟩ := matches_float.mp here
    have digit := (matches_int.mp there).2 '.' (List.mem_append_right _ List.mem_cons_self)
    exact absurd digit (by decide)
  have uintInt : uint.Exclusive int := by
    intro a here there
    obtain ⟨es, -, -, rfl⟩ := matches_uint.mp here
    have digit := (matches_int.mp there).2 'u' (List.mem_append_right _ List.mem_cons_self)
    exact absurd digit (by decide)
  simp [numbers, floatUint, floatInt, uintInt]

theorem heads_apart : (∀ rule ∈ numbers, ∀ other ∈ others, rule.headsApart other = true) ∧
    others.Pairwise (headsApart · · = true) := by
  decide

theorem open_exclusive : (numbers ++ others).Pairwise Exclusive := by
  refine List.pairwise_append.mpr ⟨numbers_exclusive, ?_, fun rule member other member' => ?_⟩
  · exact heads_apart.2.imp exclusive_of_headsApart
  · exact exclusive_of_headsApart (heads_apart.1 rule member other member')

theorem words_accepted :
    (∀ word ∈ Fixed.words, ∀ rule ∈ numbers ++ [string, blanks, comment],
      rule.pattern.accepts word.spelling.toList = false) ∧
    ∀ word ∈ Fixed.symbols ++ Fixed.operators,
      ident.pattern.accepts word.spelling.toList = false := by
  decide

theorem matches_ofFixed {word : Fixed} {a : List Char} :
    (ofFixed word).pattern.Matches a ↔ a = word.spelling.toList :=
  matches_exactly

theorem keyword_of_matches {word : Fixed} {rule : LexicalRule} (member : rule ∈ numbers ++ others)
    (whole : rule.pattern.Matches word.spelling.toList) : word ∈ Fixed.keywords ∧ rule = ident := by
  have accepted := accepts_iff.mpr whole
  have refused (among : rule ∈ numbers ++ [string, blanks, comment]) : False := by
    rw [words_accepted.1 word (Fixed.mem_words word) rule among] at accepted
    cases accepted
  have same : rule = ident := by
    simp only [numbers, others, List.mem_append, List.mem_cons, List.not_mem_nil, or_false]
      at member refused
    tauto
  subst same
  have split : word ∈ Fixed.keywords ++ (Fixed.symbols ++ Fixed.operators) := Fixed.mem_words word
  rcases List.mem_append.mp split with keyword | other
  · exact ⟨keyword, rfl⟩
  · rw [words_accepted.2 word other] at accepted
    cases accepted

/-- No text is matched by two rules, but for the keywords, which look like identifiers. -/
theorem eq_of_matches {rule other : LexicalRule} {a : List Char} (declared : rule ∈ all)
    (declared' : other ∈ all) (here : rule.pattern.Matches a) (there : other.pattern.Matches a) :
    other = rule ∨ (∃ word ∈ Fixed.keywords, rule = ofFixed word ∧ other = ident) ∨
      ∃ word ∈ Fixed.keywords, other = ofFixed word ∧ rule = ident := by
  rw [all_eq] at declared declared'
  rcases List.mem_append.mp declared with fixed | free <;>
    rcases List.mem_append.mp declared' with fixed' | free'
  · obtain ⟨word, -, rfl⟩ := List.mem_map.mp fixed
    obtain ⟨word', -, rfl⟩ := List.mem_map.mp fixed'
    have same := (matches_ofFixed.mp here).symm.trans (matches_ofFixed.mp there)
    exact .inl (congrArg ofFixed (Fixed.spelling_injective same.symm))
  · obtain ⟨word, -, rfl⟩ := List.mem_map.mp fixed
    rw [matches_ofFixed.mp here] at there
    obtain ⟨keyword, same⟩ := keyword_of_matches free' there
    exact .inr (.inl ⟨word, keyword, rfl, same⟩)
  · obtain ⟨word, -, rfl⟩ := List.mem_map.mp fixed'
    rw [matches_ofFixed.mp there] at here
    obtain ⟨keyword, same⟩ := keyword_of_matches free here
    exact .inr (.inr ⟨word, keyword, rfl, same⟩)
  · by_cases same : other = rule
    · exact .inl same
    · have apart := open_exclusive.forall free free' (Ne.symm same)
      exact absurd there (apart a here)

end LexicalRule

end MonkeyLang
