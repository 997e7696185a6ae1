import Mathlib.Tactic.IntervalCases
import MonkeyLang.Proofs.Json.Reading
import MonkeyLang.Proofs.Number.Digits

namespace MonkeyLang

namespace Json

open Float.Model UnpackedFloat Decimal

namespace PartialNumber

def negates : Sign → Bool
  | .positive => false
  | .negative => true

/-- What has been read of a number: its sign, its digits as one number, how many of them are behind
    the point, and the exponent. No zero before all other digits is counted. -/
structure Spells (n : PartialNumber) (sign : Sign) (k behind : ℕ) (power : ℤ) : Prop where
  negative : n.negative = negates sign
  digits : n.digits = k
  scale : n.scale = behind
  length : n.length = 0 ∨ 10 ^ (n.length - 1) ≤ k
  exponent : n.exponent = power.natAbs
  exponentNegative : n.exponentNegative = decide (power < 0)

section Spells

variable {n : PartialNumber} {sign : Sign} {k behind : ℕ} {power : ℤ}

theorem pow_length_le {l : ℕ} (length : l = 0 ∨ 10 ^ (l - 1) ≤ k) :
    10 ^ (l + 1 - 1) ≤ max 1 (k * 10) := by
  rcases length with none | least
  · rw [none]
    exact Nat.le_max_left ..
  · refine le_trans ?_ (Nat.le_max_right ..)
    rcases Nat.eq_zero_or_pos l with none | _
    · rw [none] at least ⊢
      omega
    · obtain ⟨l, rfl⟩ : ∃ j, l = j + 1 := ⟨l - 1, by omega⟩
      rw [Nat.add_sub_cancel] at least ⊢
      rw [pow_succ]
      omega

theorem Spells.decimal (spelt : n.Spells sign k behind power) (short : k < 10 ^ digitLimit) :
    n.decimal = ⟨k, power - behind⟩ := by
  have length : n.length ≤ digitLimit := by
    rcases spelt.length with none | least
    · omega
    · have less := (Nat.pow_lt_pow_iff_right (by decide)).mp (least.trans_lt short)
      omega
  have value : (if n.exponentNegative then -(n.exponent : ℤ) else n.exponent) = power := by
    rw [spelt.exponent, spelt.exponentNegative]
    simp only [decide_eq_true_eq]
    split <;> omega
  unfold PartialNumber.decimal
  dsimp only
  rw [if_pos (by omega), value, spelt.digits, spelt.scale]

theorem Spells.addWhole (spelt : n.Spells sign k 0 0) (d : ℕ) (some : 0 < k) :
    (n.addWhole d).Spells sign (k * 10 + d) 0 0 := by
  obtain ⟨negative, digits, scale, length, exponent, exponentNegative⟩ := spelt
  refine ⟨negative, by rw [PartialNumber.addWhole, digits], scale, .inr ?_, exponent,
    exponentNegative⟩
  dsimp only [PartialNumber.addWhole]
  exact (pow_length_le length).trans (by omega)

theorem Spells.addFraction (spelt : n.Spells sign k behind 0) (d : ℕ) :
    (n.addFraction d).Spells sign (k * 10 + d) (behind + 1) 0 := by
  obtain ⟨negative, digits, scale, length, exponent, exponentNegative⟩ := spelt
  refine ⟨negative, by rw [PartialNumber.addFraction, digits],
    by rw [PartialNumber.addFraction, scale], ?_, exponent, exponentNegative⟩
  dsimp only [PartialNumber.addFraction]
  rw [digits]
  split
  · exact .inl rfl
  · exact .inr ((pow_length_le length).trans (by omega))

end Spells

end PartialNumber

open PartialNumber

section Opening

variable (place : Place) (enclosing : List Open) (sign : Sign)

/-- Digits as a number begins with them: a zero by itself, or no zero at first. -/
def Leads (cs : List Char) : Prop :=
  cs = ['0'] ∨ ∃ d ds, 0 < d ∧ d < 10 ∧ AllDigits ds ∧ cs = Nat.digitChar d :: ds

theorem leads_toDigits (k : ℕ) : Leads (Nat.toDigits 10 k) := by
  rcases Nat.eq_zero_or_pos k with rfl | some
  · exact .inl rfl
  · obtain ⟨d, ds, least, most, text⟩ := toDigits_eq_cons some
    have digits := allDigits_toDigits k
    rw [text] at digits
    exact .inr ⟨d, ds, least, most, (allDigits_cons.mp digits).2, text⟩

theorem reads_zero :
    (⟨.value place, enclosing⟩ : State).Reads (Layout.signText sign ++ ['0'])
      ⟨.number (.start .zero (negates sign) 0), enclosing⟩ := by
  cases sign with
  | positive =>
    refine .one ?_
    cases place <;> rfl
  | negative =>
    refine .more (t := ⟨.number (.start .sign true 0), enclosing⟩) ?_ (.one rfl)
    cases place <;> rfl

theorem reads_first {d : ℕ} (some : 0 < d) (small : d < 10) :
    (⟨.value place, enclosing⟩ : State).Reads (Layout.signText sign ++ [Nat.digitChar d])
      ⟨.number (.start .whole (negates sign) d), enclosing⟩ := by
  cases sign with
  | positive =>
    refine .one ?_
    interval_cases d
    all_goals cases place <;> rfl
  | negative =>
    refine .more (t := ⟨.number (.start .sign true 0), enclosing⟩) ?_ (.one ?_)
    · cases place <;> rfl
    · interval_cases d
      all_goals rfl

theorem reads_whole {n : PartialNumber} {k : ℕ} {cs : List Char} (digits : AllDigits cs)
    (part : n.part = .whole) (spelt : n.Spells sign k 0 0) (some : 0 < k) :
    ∃ m : PartialNumber, (⟨.number n, enclosing⟩ : State).Reads cs ⟨.number m, enclosing⟩ ∧
      m.part = .whole ∧ m.Spells sign (natFrom k cs) 0 0 := by
  induction cs generalizing n k with
  | nil => exact ⟨n, .none, part, spelt⟩
  | cons c cs ih =>
    obtain ⟨digit, later⟩ := allDigits_cons.mp digits
    have first : (⟨.number n, enclosing⟩ : State).take c =
        .ok ⟨.number (n.addWhole (c.toNat - '0'.toNat)), enclosing⟩ := by
      dsimp only [State.take, takeInNumber]
      rw [part, digit?_of_isDigit digit]
    have next := spelt.addWhole (c.toNat - '0'.toNat) some
    obtain ⟨m, rest, whole, spelt⟩ := ih (n := n.addWhole _) later part next (by omega)
    rw [natFrom_cons digit]
    exact ⟨m, .more first rest, whole, spelt⟩

theorem reads_leading {cs : List Char} (leads : Leads cs) :
    ∃ n : PartialNumber,
      (⟨.value place, enclosing⟩ : State).Reads (Layout.signText sign ++ cs)
        ⟨.number n, enclosing⟩ ∧
      (n.part = .zero ∨ n.part = .whole) ∧ n.Spells sign (natFrom 0 cs) 0 0 := by
  rcases leads with rfl | ⟨d, ds, some, small, digits, rfl⟩
  · exact ⟨_, reads_zero place enclosing sign, .inl rfl, rfl, rfl, rfl, .inl rfl, rfl, rfl⟩
  · have first := reads_first place enclosing sign some small
    have spelt : (PartialNumber.start .whole (negates sign) d).Spells sign d 0 0 := by
      refine ⟨rfl, rfl, rfl, .inr ?_, rfl, rfl⟩
      rw [PartialNumber.start, if_neg some.ne']
      exact some
    obtain ⟨m, rest, part, spelt⟩ := reads_whole enclosing sign digits rfl spelt some
    have same : natFrom 0 (Nat.digitChar d :: ds) = natFrom d ds := by
      rw [natFrom, List.foldl_cons, digit?_digitChar small]
      simp [natFrom]
    rw [same, List.append_cons]
    exact ⟨m, first.append rest, .inr part, spelt⟩

end Opening

section Behind

variable (enclosing : List Open) {sign : Sign} {n : PartialNumber} {k behind : ℕ}

theorem reads_fraction {cs : List Char} (digits : AllDigits cs) (some : cs ≠ [])
    (part : n.part = .point ∨ n.part = .fraction) (spelt : n.Spells sign k behind 0) :
    ∃ m : PartialNumber, (⟨.number n, enclosing⟩ : State).Reads cs ⟨.number m, enclosing⟩ ∧
      m.part = .fraction ∧ m.Spells sign (natFrom k cs) (behind + cs.length) 0 := by
  induction cs generalizing n k behind with
  | nil => exact absurd rfl some
  | cons c cs ih =>
    obtain ⟨digit, later⟩ := allDigits_cons.mp digits
    have first : (⟨.number n, enclosing⟩ : State).take c =
        .ok ⟨.number (n.addFraction (c.toNat - '0'.toNat)), enclosing⟩ := by
      dsimp only [State.take, takeInNumber]
      rcases part with part | part
      all_goals rw [part, digit?_of_isDigit digit]
    have next := spelt.addFraction (c.toNat - '0'.toNat)
    rw [natFrom_cons digit, List.length_cons]
    rcases cs with _ | ⟨c', cs⟩
    · exact ⟨n.addFraction _, .one first, rfl, next⟩
    · obtain ⟨m, rest, fraction, spelt⟩ := ih (n := n.addFraction _) later (by simp) (.inr rfl) next
      rw [Nat.add_assoc, Nat.add_comm 1] at spelt
      exact ⟨m, .more first rest, fraction, spelt⟩

theorem reads_point {cs : List Char} (digits : AllDigits cs) (some : cs ≠ [])
    (part : n.part = .zero ∨ n.part = .whole) (spelt : n.Spells sign k 0 0) :
    ∃ m : PartialNumber,
      (⟨.number n, enclosing⟩ : State).Reads ('.' :: cs) ⟨.number m, enclosing⟩ ∧
      m.part = .fraction ∧ m.Spells sign (natFrom k cs) cs.length 0 := by
  have first : (⟨.number n, enclosing⟩ : State).take '.' =
      .ok ⟨.number { n with part := .point }, enclosing⟩ := by
    dsimp only [State.take, takeInNumber]
    rcases part with part | part
    all_goals rw [part]; rfl
  have spelt : ({ n with part := .point } : PartialNumber).Spells sign k 0 0 :=
    ⟨spelt.negative, spelt.digits, spelt.scale, spelt.length, spelt.exponent,
      spelt.exponentNegative⟩
  obtain ⟨m, rest, fraction, spelt⟩ := reads_fraction enclosing digits some (.inl rfl) spelt
  rw [Nat.zero_add] at spelt
  exact ⟨m, .more first rest, fraction, spelt⟩

theorem reads_exponentDigits {cs : List Char} (digits : AllDigits cs) (some : cs ≠ [])
    (part : n.part = .exponentMark ∨ n.part = .exponentSign ∨ n.part = .exponent)
    (small : natFrom n.exponent cs < exponentLimit) :
    (⟨.number n, enclosing⟩ : State).Reads cs
      ⟨.number { n with part := .exponent, exponent := natFrom n.exponent cs }, enclosing⟩ := by
  induction cs generalizing n with
  | nil => exact absurd rfl some
  | cons c cs ih =>
    obtain ⟨digit, later⟩ := allDigits_cons.mp digits
    rw [natFrom_cons digit] at small ⊢
    have less := (le_natFrom _ cs).trans_lt small
    have first : (⟨.number n, enclosing⟩ : State).take c = .ok ⟨.number { n with
        part := .exponent, exponent := n.exponent * 10 + (c.toNat - '0'.toNat) }, enclosing⟩ := by
      dsimp only [State.take, takeInNumber]
      rcases part with part | part | part
      all_goals
        rw [part, digit?_of_isDigit digit]
        exact if_pos less
    rcases cs with _ | ⟨c', cs⟩
    · exact .one first
    · exact .more first (ih later (by simp) (.inr (.inr rfl)) small)

theorem reads_exponent {power : ℤ} (small : power.natAbs < exponentLimit)
    (part : n.part = .zero ∨ n.part = .whole ∨ n.part = .fraction)
    (spelt : n.Spells sign k behind 0) :
    ∃ m : PartialNumber,
      (⟨.number n, enclosing⟩ : State).Reads
        ('e' :: (if power < 0 then ['-'] else ['+']) ++ Nat.toDigits 10 power.natAbs)
        ⟨.number m, enclosing⟩ ∧
      m.part = .exponent ∧ m.Spells sign k behind power := by
  obtain ⟨negative, same, scale, length, exponent, exponentNegative⟩ := spelt
  have mark : (⟨.number n, enclosing⟩ : State).take 'e' =
      .ok ⟨.number { n with part := .exponentMark }, enclosing⟩ := by
    dsimp only [State.take, takeInNumber]
    rcases part with part | part | part
    all_goals rw [part]; rfl
  have sign : (⟨.number { n with part := .exponentMark }, enclosing⟩ : State).Reads
      (if power < 0 then ['-'] else ['+'])
      ⟨.number { n with part := .exponentSign, exponentNegative := decide (power < 0) },
        enclosing⟩ := by
    rcases lt_or_ge power 0 with less | least
    · rw [if_pos less, decide_eq_true less]
      exact .one rfl
    -- A plus sign changes nothing, so the exponent must not have been negative before.
    · rw [if_neg least.not_gt, decide_eq_false least.not_gt]
      refine .one ?_
      have none : n.exponentNegative = false := exponentNegative
      rw [← none]
      rfl
  have value : natFrom n.exponent (Nat.toDigits 10 power.natAbs) = power.natAbs := by
    rw [exponent]
    exact natFrom_toDigits _
  have rest := reads_exponentDigits enclosing
    (n := { n with part := .exponentSign, exponentNegative := decide (power < 0) })
    (allDigits_toDigits power.natAbs) Nat.toDigits_ne_nil (.inr (.inl rfl)) (value.trans_lt small)
  exact ⟨_, .more mark (sign.append rest), rfl, negative, same, scale, length, value, rfl⟩

theorem behind_number {value : Json} (known : n.value? = some value)
    (part : n.part = .zero ∨ n.part = .whole ∨ n.part = .fraction ∨ n.part = .exponent) :
    (⟨.number n, enclosing⟩ : State).Behind value enclosing := by
  have closed (c : Char) : closeNumber n enclosing c = takeAfter value enclosing c := by
    rw [closeNumber, known]
  refine ⟨?_, ?_, ?_⟩
  · rw [← closed]
    dsimp only [State.take, takeInNumber]
    rcases part with part | part | part | part
    all_goals rw [part]; rfl
  · rw [← closed]
    dsimp only [State.take, takeInNumber]
    rcases part with part | part | part | part
    all_goals rw [part]; rfl
  · dsimp only [State.finish]
    rcases part with part | part | part | part
    all_goals rw [part, known]

end Behind

section Integers

def signOf (i : ℤ) : Sign := if i < 0 then .negative else .positive

theorem toString_toList (i : ℤ) :
    (toString i).toList = Layout.signText (signOf i) ++ Nat.toDigits 10 i.natAbs := by
  rcases i with k | k
  · exact Nat.toList_repr
  · have sign : signOf (.negSucc k) = .negative := if_pos (Int.negSucc_lt_zero k)
    rw [sign]
    change ("-" ++ (k + 1).repr).toList = '-' :: Nat.toDigits 10 (k + 1)
    rw [String.toList_append, Nat.toList_repr]
    rfl

theorem reads_int (place : Place) (enclosing : List Open) {i : ℤ} (low : -0x8000000000000000 ≤ i)
    (high : i < 0x10000000000000000) :
    ∃ s : State, (⟨.value place, enclosing⟩ : State).Reads (scalarText (.int i)) s ∧
      s.Behind (.int i) enclosing := by
  obtain ⟨n, reads, part, spelt⟩ := reads_leading place enclosing (signOf i) (leads_toDigits i.natAbs)
  rw [natFrom_toDigits] at spelt
  have whole : (n.part = .zero || n.part = .whole) = true := by simpa using part
  refine ⟨_, ?_, behind_number enclosing ?_ (by tauto)⟩
  · rw [scalarText, toString_toList]
    exact reads
  · have digits := spelt.digits
    have negative := spelt.negative
    unfold value?
    dsimp only
    rw [whole, negative, digits, signOf]
    rcases lt_or_ge i 0 with less | least
    · have size : i.natAbs ≤ 0x8000000000000000 := by omega
      have some : 0 < i.natAbs := by omega
      simp [less, negates, some, size, abs_of_neg less]
    · have size : i.natAbs < 0x10000000000000000 := by omega
      simp [least.not_gt, negates, size, abs_of_nonneg least]

end Integers

end Json

end MonkeyLang
