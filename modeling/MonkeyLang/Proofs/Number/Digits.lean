import Mathlib.Algebra.Ring.Nat
import MonkeyLang.Number.Layout

namespace MonkeyLang

namespace Decimal

section Digits

variable {c : Char} {cs : List Char} {n : Nat}

def AllDigits (cs : List Char) : Prop := ∀ c ∈ cs, c.isDigit = true

theorem allDigits_cons : AllDigits (c :: cs) ↔ c.isDigit = true ∧ AllDigits cs :=
  List.forall_mem_cons

theorem digit?_of_isDigit (digit : c.isDigit = true) : digit? c = some (c.toNat - '0'.toNat) :=
  if_pos digit

theorem digit?_digitChar {d : Nat} (small : d < 10) : digit? d.digitChar = some d := by
  have all : ∀ d < 10, digit? (Nat.digitChar d) = some d := by decide
  exact all d small

theorem natFrom_cons (digit : c.isDigit = true) :
    natFrom n (c :: cs) = natFrom (n * 10 + (c.toNat - '0'.toNat)) cs := by
  rw [natFrom, List.foldl_cons, digit?_of_isDigit digit]
  rfl

theorem natFrom_append (n : Nat) (cs ds : List Char) :
    natFrom n (cs ++ ds) = natFrom (natFrom n cs) ds :=
  List.foldl_append

theorem natFrom_eq (digits : AllDigits cs) (n : Nat) : natFrom n cs = Nat.ofDigitChars 10 cs n := by
  induction cs generalizing n with
  | nil => rfl
  | cons c cs ih =>
    obtain ⟨digit, later⟩ := allDigits_cons.mp digits
    rw [natFrom_cons digit, ih later, Nat.ofDigitChars_cons, Nat.mul_comm]

theorem allDigits_append {cs ds : List Char} :
    AllDigits (cs ++ ds) ↔ AllDigits cs ∧ AllDigits ds :=
  List.forall_mem_append

theorem allDigits_toDigits (n : Nat) : AllDigits (Nat.toDigits 10 n) :=
  fun _ member => Nat.isDigit_of_mem_toDigits (by decide) (by decide) member

theorem allDigits_zeros (n : Nat) : AllDigits (Layout.zeros n) := by
  intro c member
  obtain ⟨-, rfl⟩ := List.mem_replicate.mp member
  rfl

theorem natFrom_toDigits (n : Nat) : natFrom 0 (Nat.toDigits 10 n) = n := by
  rw [natFrom_eq (allDigits_toDigits n), Nat.ofDigitChars_ten_toDigits]

theorem natFrom_zeros (n k : Nat) : natFrom n (Layout.zeros k) = n * 10 ^ k := by
  rw [natFrom_eq (allDigits_zeros k), Layout.zeros, Nat.ofDigitChars_replicate_zero, Nat.mul_comm]

theorem le_natFrom (n : Nat) (cs : List Char) : n ≤ natFrom n cs := by
  induction cs generalizing n with
  | nil => exact Nat.le_refl _
  | cons c cs ih =>
    rw [natFrom, List.foldl_cons]
    split
    · exact Nat.le_trans (by omega) (ih _)
    · exact ih n

theorem toDigits_eq_cons (some : 0 < n) :
    ∃ d cs, 0 < d ∧ d < 10 ∧ Nat.toDigits 10 n = d.digitChar :: cs := by
  induction n using Nat.base_induction 10 (by decide) with
  | single m small => exact ⟨m, [], some, small, Nat.toDigits_of_lt_base small⟩
  | digit m k small positive ih =>
    obtain ⟨d, cs, least, most, text⟩ := ih positive
    refine ⟨d, cs ++ Nat.toDigits 10 k, least, most, ?_⟩
    rw [← Nat.toDigits_append_toDigits (by decide) positive small, text, List.cons_append]

end Digits

end Decimal

end MonkeyLang
