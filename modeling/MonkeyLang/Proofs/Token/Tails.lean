import MonkeyLang.Proofs.Token.Munch

namespace MonkeyLang

def CharClass.narrow (cls : CharClass) : Bool :=
  !cls.negated && cls.ranges.all (·.last < 128)

theorem CharClass.utf8Size_of_narrow {cls : CharClass} {c : Char} (narrow : cls.narrow = true)
    (member : cls.contains c = true) : c.utf8Size = 1 := by
  simp only [CharClass.narrow, Bool.and_eq_true, Bool.not_eq_true', List.all_eq_true,
    decide_eq_true_eq] at narrow
  obtain ⟨plain, low⟩ := narrow
  rw [contains, plain, Bool.false_bne, Text.inRanges, List.any_eq_true] at member
  obtain ⟨range, declared, inside⟩ := member
  simp only [Text.CodeRange.contains, Bool.and_eq_true, decide_eq_true_eq] at inside
  have small : c.toNat ≤ 127 :=
    Nat.le_of_lt_succ (Nat.lt_of_le_of_lt inside.2 (low range declared))
  exact Char.utf8Size_eq_one_iff.mpr (UInt32.le_iff_toNat_le.mpr small)

namespace Pattern

def lasts : Pattern → List CharClass
  | nothing | empty => []
  | char cls => [cls]
  | seq p q => q.lasts ++ if q.nullable then p.lasts else []
  | alt p q => p.lasts ++ q.lasts
  | star p => p.lasts

theorem Matches.lasts {p : Pattern} {a : List Char} {c : Char} (whole : p.Matches a)
    (last : a.getLast? = some c) : ∃ cls ∈ p.lasts, cls.contains c = true := by
  induction whole with
  | empty | done => cases last
  | @char cls d member =>
    cases last
    exact ⟨cls, List.mem_singleton_self _, member⟩
  | @seq p q first second _ later ihFirst ihLater =>
    rw [List.getLast?_append, Option.or_eq_some_iff] at last
    rcases last with last | ⟨none, last⟩
    · obtain ⟨cls, member, inside⟩ := ihLater last
      exact ⟨cls, List.mem_append_left _ member, inside⟩
    · rw [List.getLast?_eq_none_iff] at none
      subst none
      obtain ⟨cls, member, inside⟩ := ihFirst last
      have skips : q.nullable = true := nullable_iff.mpr later
      exact ⟨cls, by simp [Pattern.lasts, skips, member], inside⟩
  | left _ ih =>
    obtain ⟨cls, member, inside⟩ := ih last
    exact ⟨cls, List.mem_append_left _ member, inside⟩
  | right _ ih =>
    obtain ⟨cls, member, inside⟩ := ih last
    exact ⟨cls, List.mem_append_right _ member, inside⟩
  | more _ _ ihFirst ihLater =>
    rw [List.getLast?_append, Option.or_eq_some_iff] at last
    rcases last with last | ⟨-, last⟩
    · exact ihLater last
    · exact ihFirst last

end Pattern

theorem LexicalRule.lasts_narrow : ∀ rule ∈ all, rule.kind.isSome = true →
    ∀ cls ∈ rule.pattern.lasts, cls.narrow = true := by
  decide

theorem Lexeme.StandsIn.last {text : List Char} {l : Lexeme} (stands : l.StandsIn text) :
    ∃ before c after, text = before ++ c :: after ∧ c.utf8Size = 1 ∧
      l.span.stop = Text.byteLength before + 1 := by
  obtain ⟨before, slice, after, rule, rfl, some, place, takes, gives, -⟩ := stands
  obtain ⟨front, c, rfl⟩ := (List.eq_nil_or_concat' slice).resolve_left some
  obtain ⟨cls, declared, member⟩ := takes.matched.lasts List.getLast?_concat
  have narrow := LexicalRule.lasts_narrow rule takes.declared (by rw [gives]; rfl) cls declared
  have size := CharClass.utf8Size_of_narrow narrow member
  refine ⟨before ++ front, c, after, by simp, size, ?_⟩
  simp [place, size, Nat.add_assoc]

end MonkeyLang
