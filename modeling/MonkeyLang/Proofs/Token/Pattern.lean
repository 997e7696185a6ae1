import MonkeyLang.Token.Lexeme

namespace MonkeyLang

namespace CharClass

variable {c d : Char} {cs : List Char}

theorem contains_single : (Text.CodeRange.single c).contains d = true ↔ d = c := by
  rw [Text.CodeRange.contains, Text.CodeRange.single, Bool.and_eq_true, decide_eq_true_eq,
    decide_eq_true_eq, ← Nat.le_antisymm_iff, Char.toNat_inj]
  exact eq_comm

theorem contains_ofChar : (ofChar c).contains d = true ↔ d = c := by
  simp [contains, ofChar, Text.inRanges, contains_single]

theorem contains_ofChars : (ofChars cs).contains d = true ↔ d ∈ cs := by
  simp [contains, ofChars, Text.inRanges, contains_single]

theorem contains_except : (except cs).contains d = true ↔ d ∉ cs := by
  rw [← contains_ofChars]
  simp [contains, except, ofChars]

theorem contains_digit : digit.contains c = c.isDigit := by
  rw [Bool.eq_iff_iff, Char.isDigit_iff_toNat]
  simp [contains, digit, Text.inRanges, Text.CodeRange.contains, Text.CodeRange.between]

def apart (a b : CharClass) : Bool :=
  !a.negated && !b.negated &&
    a.ranges.all fun r => b.ranges.all fun s => r.last < s.first || s.last < r.first

theorem not_contains_of_apart {a b : CharClass} (apart : a.apart b = true)
    (here : a.contains c = true) : b.contains c = false := by
  simp only [CharClass.apart, Bool.and_eq_true, Bool.not_eq_true', List.all_eq_true,
    Bool.or_eq_true, decide_eq_true_eq] at apart
  obtain ⟨⟨plain, plain'⟩, clear⟩ := apart
  simp only [contains, plain, plain', Bool.false_bne, Text.inRanges, List.any_eq_true,
    List.any_eq_false, Text.CodeRange.contains, Bool.and_eq_true, decide_eq_true_eq] at here ⊢
  obtain ⟨r, member, least, most⟩ := here
  intro s member' inside
  rcases clear r member s member' with below | above
  · omega
  · omega

end CharClass

namespace Pattern

section Matching

variable {p q : Pattern} {cls : CharClass} {c : Char} {a b : List Char}

@[simp] theorem not_matches_nothing : ¬ nothing.Matches a := nofun

@[simp] theorem matches_empty_iff : empty.Matches a ↔ a = [] := by
  constructor
  · rintro ⟨⟩
    rfl
  · rintro rfl
    exact .empty

@[simp] theorem matches_char_iff : (char cls).Matches a ↔ ∃ c, cls.contains c = true ∧ a = [c] := by
  constructor
  · rintro @⟨⟩
    exact ⟨_, ‹_›, rfl⟩
  · rintro ⟨c, member, rfl⟩
    exact .char member

theorem matches_seq_iff :
    (seq p q).Matches a ↔
      ∃ first second, p.Matches first ∧ q.Matches second ∧ a = first ++ second := by
  constructor
  · intro whole
    cases whole with
    | seq first second => exact ⟨_, _, first, second, rfl⟩
  · rintro ⟨first, second, here, there, rfl⟩
    exact .seq here there

@[simp] theorem matches_alt_iff : (alt p q).Matches a ↔ p.Matches a ∨ q.Matches a := by
  constructor
  · intro whole
    cases whole with
    | left first => exact .inl first
    | right second => exact .inr second
  · rintro (first | second)
    · exact .left first
    · exact .right second

theorem matches_star_cons :
    (star p).Matches (c :: a) ↔
      ∃ first rest, p.Matches (c :: first) ∧ (star p).Matches rest ∧ a = first ++ rest := by
  constructor
  · intro whole
    generalize pattern : star p = r at whole
    generalize text : c :: a = t at whole
    induction whole with
    | more here rest _ ih =>
      cases pattern
      rcases List.cons_eq_append_iff.mp text with ⟨rfl, rfl⟩ | ⟨first, rfl, rfl⟩
      · exact ih rfl rfl
      · exact ⟨first, _, here, rest, rfl⟩
    | done => cases text
    | _ => cases pattern
  · rintro ⟨first, rest, here, later, rfl⟩
    exact .more here later

theorem matches_star_char : (star (char cls)).Matches a ↔ ∀ c ∈ a, cls.contains c = true := by
  induction a with
  | nil => simp [Matches.done]
  | cons c a ih =>
    rw [matches_star_cons, List.forall_mem_cons, ← ih]
    constructor
    · rintro ⟨first, rest, here, later, rfl⟩
      obtain ⟨d, member, same⟩ := matches_char_iff.mp here
      cases same
      exact ⟨member, later⟩
    · rintro ⟨member, later⟩
      exact ⟨[], a, .char member, later, rfl⟩

theorem matches_ofChar : (char (.ofChar c)).Matches a ↔ a = [c] := by
  simp [CharClass.contains_ofChar]

theorem matches_exactly {text : List Char} : (exactly text).Matches a ↔ a = text := by
  fun_induction exactly text generalizing a with
  | case1 => exact matches_empty_iff
  | case2 c => exact matches_ofChar
  | case3 c rest _ ih =>
    rw [matches_seq_iff]
    simp only [matches_ofChar, ih]
    constructor
    · rintro ⟨_, _, rfl, rfl, rfl⟩
      rfl
    · rintro rfl
      exact ⟨[c], rest, rfl, rfl, rfl⟩

end Matching

section Deriving

variable {p q : Pattern} {c : Char} {a : List Char}

theorem nullable_iff : p.nullable = true ↔ p.Matches [] := by
  induction p with
  | nothing => simp [nullable]
  | empty => simp [nullable]
  | char cls => simp [nullable]
  | seq p q here there =>
    rw [nullable, Bool.and_eq_true, here, there, matches_seq_iff]
    constructor
    · rintro ⟨first, second⟩
      exact ⟨[], [], first, second, rfl⟩
    · rintro ⟨a, b, first, second, none⟩
      obtain ⟨rfl, rfl⟩ := List.append_eq_nil_iff.mp none.symm
      exact ⟨first, second⟩
  | alt p q here there => simp [nullable, here, there]
  | star p => simp [nullable, Matches.done]

theorem matches_join : (join p q).Matches a ↔ (seq p q).Matches a := by
  fun_cases join p q with
  | case1 | case2 => simp [matches_seq_iff]
  | case3 => simp [matches_seq_iff]
  | case4 => rfl

theorem matches_either : (either p q).Matches a ↔ (alt p q).Matches a := by
  fun_cases either p q with
  | case1 | case2 => simp
  | case3 => rfl

theorem matches_seq_cons :
    (seq p q).Matches (c :: a) ↔
      (∃ first second, p.Matches (c :: first) ∧ q.Matches second ∧ a = first ++ second) ∨
        p.Matches [] ∧ q.Matches (c :: a) := by
  rw [matches_seq_iff]
  constructor
  · rintro ⟨first, second, here, there, same⟩
    rcases List.cons_eq_append_iff.mp same with ⟨rfl, rfl⟩ | ⟨first, rfl, rfl⟩
    · exact .inr ⟨here, there⟩
    · exact .inl ⟨first, second, here, there, rfl⟩
  · rintro (⟨first, second, here, there, rfl⟩ | ⟨here, there⟩)
    · exact ⟨c :: first, second, here, there, rfl⟩
    · exact ⟨[], c :: a, here, there, rfl⟩

theorem matches_derive : (p.derive c).Matches a ↔ p.Matches (c :: a) := by
  induction p generalizing a with
  | nothing => simp [derive]
  | empty => simp [derive]
  | char cls =>
    rw [derive]
    split
    · rename_i member
      rw [matches_empty_iff, matches_char_iff]
      constructor
      · rintro rfl
        exact ⟨c, member, rfl⟩
      · rintro ⟨d, _, same⟩
        exact (List.cons.inj same).2
    · rename_i outside
      refine iff_of_false not_matches_nothing fun whole => outside ?_
      obtain ⟨d, member, same⟩ := matches_char_iff.mp whole
      rwa [(List.cons.inj same).1]
  | seq p q here there =>
    have first : (join (p.derive c) q).Matches a ↔
        ∃ first second, p.Matches (c :: first) ∧ q.Matches second ∧ a = first ++ second := by
      rw [matches_join, matches_seq_iff]
      simp only [here]
    rw [derive, matches_seq_cons, ← nullable_iff]
    split
    · rename_i null
      rw [matches_either, matches_alt_iff, first, there]
      simp [null]
    · rename_i some
      rw [first]
      simp [some]
  | alt p q here there => rw [derive, matches_either, matches_alt_iff, matches_alt_iff, here, there]
  | star p here =>
    rw [derive, matches_join, matches_seq_iff, matches_star_cons]
    simp only [here]

def accepts (p : Pattern) : List Char → Bool
  | [] => p.nullable
  | c :: rest => (p.derive c).accepts rest

theorem accepts_iff : p.accepts a = true ↔ p.Matches a := by
  induction a generalizing p with
  | nil => exact nullable_iff
  | cons c rest ih => rw [accepts, ih, matches_derive]

theorem accepts_of_isNothing (none : p.isNothing = true) : p.accepts a = false := by
  cases p with
  | nothing =>
    rw [Bool.eq_false_iff, ne_eq, accepts_iff]
    exact not_matches_nothing
  | _ => cases none

end Deriving

section Longest

variable {α : Type} {live : List (α × Pattern)} {text : List Char} {rule : α} {n : Nat}

def first? (live : List (α × Pattern)) (text : List Char) : Option α :=
  (live.find? (·.2.accepts text)).map (·.1)

theorem first?_advance (c : Char) (rest : List Char) :
    first? (advance c live) rest = first? live (c :: rest) := by
  induction live with
  | nil => rfl
  | cons entry live ih =>
    obtain ⟨rule, p⟩ := entry
    have same : p.accepts (c :: rest) = (p.derive c).accepts rest := rfl
    unfold first? advance at ih ⊢
    rw [List.filterMap_cons, List.find?_cons]
    dsimp only
    rw [same]
    by_cases none : (p.derive c).isNothing = true
    · rw [if_pos none, accepts_of_isNothing none]
      exact ih
    · rw [if_neg none]
      dsimp only
      rw [List.find?_cons]
      dsimp only
      cases (p.derive c).accepts rest with
      | true => rfl
      | false => exact ih

/-- The longest prefix that a rule matches, and the first rule that matches it. -/
def IsLongest (live : List (α × Pattern)) (text : List Char) (rule : α) (n : Nat) : Prop :=
  n ≤ text.length ∧ first? live (text.take n) = some rule ∧
    ∀ m ≤ text.length, n < m → first? live (text.take m) = none

theorem first?_nil (live : List (α × Pattern)) :
    (live.find? (·.2.nullable)).map (fun rule => (rule.1, 0)) =
      (first? live []).map (·, 0) := by
  rw [first?, Option.map_map]
  rfl

theorem longest_nil_left (text : List Char) : longest ([] : List (α × Pattern)) text = none := by
  cases text <;> rfl

theorem longest_cons (c : Char) (rest : List Char) :
    longest live (c :: rest) =
      match longest (advance c live) rest with
      | some (rule, n) => some (rule, n + 1)
      | none => (first? live []).map (·, 0) := by
  rw [longest, first?_nil]
  split
  · rename_i dead
    rw [dead, longest_nil_left]
  · rfl

theorem longest_spec (live : List (α × Pattern)) (text : List Char) :
    match longest live text with
    | some (rule, n) => IsLongest live text rule n
    | none => ∀ m ≤ text.length, first? live (text.take m) = none := by
  induction text generalizing live with
  | nil =>
    have here : longest live [] = (first? live []).map (·, 0) := first?_nil live
    rw [here]
    cases found : first? live [] with
    | some rule => exact ⟨Nat.le_refl _, found, fun m most least => by simp at most; omega⟩
    | none => simpa using found
  | cons c rest ih =>
    have later := ih (advance c live)
    rw [longest_cons]
    cases found : longest (advance c live) rest with
    | some result =>
      obtain ⟨rule, n⟩ := result
      rw [found] at later
      obtain ⟨most, first, longer⟩ := later
      refine ⟨Nat.succ_le_succ most, ?_, fun m most less => ?_⟩
      · rw [List.take_succ_cons, ← first?_advance, first]
      · obtain ⟨k, rfl⟩ : ∃ k, m = k + 1 := ⟨m - 1, by omega⟩
        rw [List.take_succ_cons, ← first?_advance]
        exact longer k (Nat.le_of_succ_le_succ most) (Nat.lt_of_succ_lt_succ less)
    | none =>
      rw [found] at later
      have longer (k : Nat) (most : k ≤ rest.length) :
          first? live ((c :: rest).take (k + 1)) = none := by
        rw [List.take_succ_cons, ← first?_advance]
        exact later k most
      cases here : first? live [] with
      | some rule =>
        refine ⟨Nat.zero_le _, here, fun m most less => ?_⟩
        obtain ⟨k, rfl⟩ : ∃ k, m = k + 1 := ⟨m - 1, by omega⟩
        exact longer k (Nat.le_of_succ_le_succ most)
      | none =>
        intro m most
        cases m with
        | zero => exact here
        | succ k => exact longer k (Nat.le_of_succ_le_succ most)

end Longest

end Pattern

end MonkeyLang
