import MonkeyLang.Number.Ratio
import MonkeyLang.Proofs.Number.Packing

namespace MonkeyLang

open Float.Model (Format UnpackedFloat totalExponent)
open Float.Model.UnpackedFloat

section Extended

/-- A number as a mantissa with its two residual bits: its whole part, and how what is left lies to
    one half. -/
def extended (x : ℚ) : ExtendedMantissa :=
  ⟨⌊x⌋₊, 1 / 2 ≤ x - ⌊x⌋₊, x - ⌊x⌋₊ ≠ 0 ∧ x - ⌊x⌋₊ ≠ 1 / 2⟩

theorem extended_eq {x : ℚ} {m : ℕ} {left : ℚ} (split : x = m + left) (low : 0 ≤ left)
    (high : left < 1) : extended x = ⟨m, 1 / 2 ≤ left, left ≠ 0 ∧ left ≠ 1 / 2⟩ := by
  have whole : ⌊x⌋₊ = m := by
    rw [split, add_comm, Nat.floor_add_natCast low, Nat.floor_eq_zero.mpr high, Nat.zero_add]
  have rest : x - m = left := by
    rw [split]
    ring
  simp only [extended, whole, rest]

theorem extended_natCast (m : ℕ) : extended m = ⟨m, false, false⟩ := by
  have split : (m : ℚ) = m + 0 := (add_zero _).symm
  rw [extended_eq split le_rfl one_pos]
  norm_num

theorem extended_div (n : ℕ) {d : ℕ} (pos : 0 < d) :
    extended (n / d) = .ofMantissaAndAccuracy (n / d) (accuracyOfFraction (n % d) d) := by
  have whole : (d : ℚ) * (n / d : ℕ) + (n % d : ℕ) = n := by exact_mod_cast Nat.div_add_mod n d
  have positive : (0 : ℚ) < d := by exact_mod_cast pos
  have bound : ((n % d : ℕ) : ℚ) < d := by exact_mod_cast Nat.mod_lt n pos
  have split : (n : ℚ) / d = (n / d : ℕ) + ((n % d : ℕ) : ℚ) / d := by
    rw [← whole]
    field_simp
  have least : (0 : ℚ) ≤ ((n % d : ℕ) : ℚ) / d := by positivity
  rw [extended_eq split least ((div_lt_one positive).mpr bound), accuracyOfFraction]
  generalize n % d = rest
  have half : ((1 : ℚ) / 2 ≤ rest / d ↔ d ≤ 2 * rest) := by
    rw [div_le_div_iff₀ two_pos positive]
    norm_cast
    omega
  have tie : ((rest : ℚ) / d = 1 / 2 ↔ 2 * rest = d) := by
    rw [div_eq_div_iff positive.ne' two_ne_zero]
    norm_cast
    omega
  have none : ((rest : ℚ) / d = 0 ↔ rest = 0) := by
    rw [div_eq_zero_iff]
    norm_cast
    omega
  simp only [half, tie, none, ne_eq]
  by_cases zero : rest = 0
  · simp [zero, ExtendedMantissa.ofMantissaAndAccuracy, pos.ne']
  · rw [if_neg zero]
    rcases Nat.lt_trichotomy (2 * rest) d with less | same | more
    · rw [Nat.compare_eq_lt.mpr less]
      simp [ExtendedMantissa.ofMantissaAndAccuracy, zero, less, less.ne]
    · rw [Nat.compare_eq_eq.mpr same]
      simp [ExtendedMantissa.ofMantissaAndAccuracy, same]
    · rw [Nat.compare_eq_gt.mpr more]
      simp [ExtendedMantissa.ofMantissaAndAccuracy, zero, more.le, more.ne']

theorem shiftRightOne_extended {x : ℚ} (nonneg : 0 ≤ x) :
    (extended x).shiftRightOne = extended (x / 2) := by
  obtain ⟨m, left, split, low, high⟩ : ∃ (m : ℕ) (left : ℚ), x = m + left ∧ 0 ≤ left ∧ left < 1 :=
    ⟨⌊x⌋₊, x - ⌊x⌋₊, by ring, sub_nonneg.mpr (Nat.floor_le nonneg),
      by linarith [Nat.lt_floor_add_one x]⟩
  have whole : (2 : ℚ) * (m / 2 : ℕ) + (m % 2 : ℕ) = m := by exact_mod_cast Nat.div_add_mod m 2
  have halved : x / 2 = (m / 2 : ℕ) + ((m % 2 : ℕ) + left) / 2 := by
    rw [split, ← whole]
    ring
  have bit : ((m % 2 : ℕ) : ℚ) = 0 ∧ m % 2 = 0 ∨ ((m % 2 : ℕ) : ℚ) = 1 ∧ m % 2 = 1 := by
    rcases Nat.mod_two_eq_zero_or_one m with even | odd
    · exact .inl ⟨by rw [even]; rfl, even⟩
    · exact .inr ⟨by rw [odd]; rfl, odd⟩
  have sticky : (1 / 2 ≤ left ∨ left ≠ 0 ∧ left ≠ 1 / 2) ↔ left ≠ 0 := by
    constructor
    · rintro (more | ⟨some, _⟩)
      · linarith
      · exact some
    · intro some
      by_cases tie : left = 1 / 2
      · exact .inl tie.ge
      · exact .inr ⟨some, tie⟩
  have sticky' : (decide (1 / 2 ≤ left) || decide (left ≠ 0 ∧ left ≠ 1 / 2)) = decide (left ≠ 0) := by
    rw [← Bool.decide_or, decide_eq_decide]
    exact sticky
  rw [extended_eq split low high, ExtendedMantissa.shiftRightOne]
  dsimp only
  rw [sticky']
  rcases bit with ⟨cast, even⟩ | ⟨cast, odd⟩
  · rw [cast] at halved
    rw [extended_eq halved (by linarith) (by linarith), even]
    have below : ¬ 1 / 2 ≤ (0 + left) / 2 := by linarith
    have same : (0 + left) / 2 ≠ 0 ∧ (0 + left) / 2 ≠ 1 / 2 ↔ left ≠ 0 :=
      ⟨fun apart none => apart.1 (by rw [none]; norm_num), fun some =>
        ⟨fun none => some (by linarith), fun tie => by linarith⟩⟩
    rw [decide_eq_false below, decide_eq_decide.mpr same]
    rfl
  · rw [cast] at halved
    rw [extended_eq halved (by linarith) (by linarith), odd]
    have above : 1 / 2 ≤ (1 + left) / 2 := by linarith
    have same : (1 + left) / 2 ≠ 0 ∧ (1 + left) / 2 ≠ 1 / 2 ↔ left ≠ 0 :=
      ⟨fun apart none => apart.2 (by rw [none]; norm_num), fun some =>
        ⟨fun none => by linarith, fun tie => some (by linarith)⟩⟩
    rw [decide_eq_true above, decide_eq_decide.mpr same]
    rfl

theorem shiftRight_extended {x : ℚ} (nonneg : 0 ≤ x) (n : ℕ) :
    extended x >>> n = extended (x / 2 ^ n) := by
  change n.repeat ExtendedMantissa.shiftRightOne (extended x) = extended (x / 2 ^ n)
  induction n with
  | zero => rw [Nat.repeat, pow_zero, div_one]
  | succ n ih =>
    rw [Nat.repeat, ih, shiftRightOne_extended (by positivity), pow_succ, div_div]

end Extended

theorem log_div_zpow {v : ℚ} (pos : 0 < v) (e : ℤ) : Int.log 2 (v / 2 ^ e) = Int.log 2 v - e := by
  have scaled : 0 < v / 2 ^ e := by positivity
  have shift (k : ℤ) : (2 : ℚ) ^ k ≤ v / 2 ^ e ↔ (2 : ℚ) ^ (k + e) ≤ v := by
    rw [le_div_iff₀ (by positivity), ← zpow_add₀ two_ne_zero]
  have same (k : ℤ) : k ≤ Int.log 2 (v / 2 ^ e) ↔ k ≤ Int.log 2 v - e := by
    rw [← Int.zpow_le_iff_le_log one_lt_two scaled, le_sub_iff_add_le,
      ← Int.zpow_le_iff_le_log one_lt_two pos]
    exact shift k
  exact le_antisymm ((same _).mp le_rfl) ((same _).mpr le_rfl)

theorem targetExponent_eq (m : ℕ) (e : ℤ) :
    Format.binary64.targetExponent (totalExponent m e) = max (m.log2 + e - 52) (-1074) := by
  simp only [totalExponent, Format.targetExponent, Format.mantissaBits, Format.minExponent]
  omega

def unit (v : ℚ) : ℤ := Format.binary64.targetExponent (Int.log 2 v + 1)

theorem unit_eq (v : ℚ) : unit v = max (Int.log 2 v - 52) (-1074) := by
  simp only [unit, Format.targetExponent, Format.mantissaBits, Format.minExponent]
  omega

/-- A mantissa with residual bits, rounded to the nearest one, the even one at a tie. -/
def rounded (em : ExtendedMantissa) (e : ℤ) : UnpackedFloat :=
  let (final, exponent) := shiftToTargetExponent Format.binary64 em.roundedMantissa e .exact
  if h : final.mantissa = 0 then .zero .positive
  else .finite .positive final.mantissa exponent (Nat.pos_of_ne_zero h)

def nearest (v : ℚ) : Float := .ofModel (.pack (rounded (extended (v / 2 ^ unit v)) (unit v)))

section Rounded

variable {em : ExtendedMantissa} {e : ℤ}

theorem rounded_of_lt (low : -1074 ≤ e) (bound : em.roundedMantissa < 2 ^ 53) :
    rounded em e = if h : em.roundedMantissa = 0 then .zero .positive
      else .finite .positive em.roundedMantissa e (Nat.pos_of_ne_zero h) := by
  have none : (Format.binary64.targetExponent (totalExponent em.roundedMantissa e) - e).toNat =
      0 := by
    have short : em.roundedMantissa.log2 ≤ 52 := by
      by_cases zero : em.roundedMantissa = 0
      · rw [zero, Nat.log2_zero]
        omega
      · exact Nat.le_of_lt_succ ((Nat.log2_lt zero).mpr bound)
    rw [targetExponent_eq]
    omega
  have still : ExtendedMantissa.ofMantissaAndAccuracy em.roundedMantissa .exact >>> 0 =
      ⟨em.roundedMantissa, false, false⟩ := rfl
  rw [rounded, shiftToTargetExponent, shiftToExponent]
  simp only [none, still, Nat.cast_zero, add_zero]

theorem rounded_of_eq (low : -1074 ≤ e) (full : em.roundedMantissa = 2 ^ 53) :
    rounded em e = .finite .positive (2 ^ 52) (e + 1) (Nat.two_pow_pos 52) := by
  have one : (Format.binary64.targetExponent (totalExponent (2 ^ 53) e) - e).toNat = 1 := by
    rw [targetExponent_eq, Nat.log2_two_pow]
    omega
  have halved : ExtendedMantissa.ofMantissaAndAccuracy (2 ^ 53) .exact >>> 1 =
      ⟨2 ^ 52, false, false⟩ := rfl
  rw [rounded, shiftToTargetExponent, shiftToExponent, full]
  simp only [one, halved]
  rfl

theorem roundedMantissa_le (em : ExtendedMantissa) :
    em.mantissa ≤ em.roundedMantissa ∧ em.roundedMantissa ≤ em.mantissa + 1 := by
  obtain ⟨m, round, sticky⟩ := em
  cases round <;> cases sticky <;>
    simp only [ExtendedMantissa.roundedMantissa, ExtendedMantissa.accuracy,
      Accuracy.roundToNearestEven] <;> omega

end Rounded

theorem ofModel_pack_infinite {m : ℕ} {e : ℤ} {pos : 0 < m} (far : 972 ≤ e) :
    Float.ofModel (.pack (.finite .positive m e pos)) = .ofBits 0x7ff0000000000000 := by
  have packed : pack Format.binary64 (.finite .positive m e pos) =
      pack Format.binary64 (.infinity .positive) := by
    rw [pack_finite, if_pos (by omega)]
    rfl
  have ext (a b : Float.Model) (same : a.toBits = b.toBits) : a = b := by
    cases a
    cases b
    cases same
    rfl
  exact congrArg Float.ofModel (ext _ (.pack (.infinity .positive))
    (congrArg UInt64.ofBitVec packed))

section Nearest

variable {v : ℚ}

theorem nearest_of_lt (pos : 0 < v) (tiny : v < 2 ^ (-1075 : ℤ)) : nearest v = .ofBits 0 := by
  have log : Int.log 2 v < -1075 := (Int.lt_zpow_iff_log_lt one_lt_two pos).mp tiny
  have last : unit v = -1074 := by
    rw [unit_eq]
    omega
  have small : v / 2 ^ (-1074 : ℤ) < 1 / 2 := by
    rw [div_lt_iff₀ (by positivity)]
    have half : (2 : ℚ) ^ (-1075 : ℤ) = 1 / 2 * 2 ^ (-1074 : ℤ) := by
      rw [one_div, ← zpow_neg_one, ← zpow_add₀ two_ne_zero]
      rfl
    rwa [← half]
  have split : v / 2 ^ (-1074 : ℤ) = (0 : ℕ) + v / 2 ^ (-1074 : ℤ) := by simp
  have least : 0 ≤ v / 2 ^ (-1074 : ℤ) := by positivity
  rw [nearest, last, extended_eq split least (by linarith), decide_eq_false (not_le.mpr small)]
  generalize decide (v / 2 ^ (-1074 : ℤ) ≠ 0 ∧ v / 2 ^ (-1074 : ℤ) ≠ 1 / 2) = sticky
  cases sticky <;> rfl

theorem nearest_of_ge (huge : 2 ^ (1024 : ℤ) ≤ v) : nearest v = .ofBits 0x7ff0000000000000 := by
  have pos : 0 < v := lt_of_lt_of_le (by positivity) huge
  have log : 1024 ≤ Int.log 2 v := (Int.zpow_le_iff_le_log one_lt_two pos).mp huge
  have last : unit v = Int.log 2 v - 52 := by
    rw [unit_eq]
    omega
  have least : (2 : ℚ) ^ 52 ≤ v / 2 ^ unit v := by
    rw [le_div_iff₀ (by positivity), last, ← zpow_natCast, ← zpow_add₀ two_ne_zero]
    have own := Int.zpow_log_le_self (b := 2) one_lt_two pos
    have same : ((52 : ℕ) : ℤ) + (Int.log 2 v - 52) = Int.log 2 v := by omega
    rw [same]
    exact_mod_cast own
  have most : v / 2 ^ unit v < (2 : ℚ) ^ 53 := by
    rw [div_lt_iff₀ (by positivity), last, ← zpow_natCast, ← zpow_add₀ two_ne_zero]
    have next := Int.lt_zpow_succ_log_self (b := 2) one_lt_two v
    have same : ((53 : ℕ) : ℤ) + (Int.log 2 v - 52) = Int.log 2 v + 1 := by omega
    rw [same]
    exact_mod_cast next
  have long : 2 ^ 52 ≤ (extended (v / 2 ^ unit v)).mantissa :=
    Nat.le_floor (by exact_mod_cast least)
  have short : (extended (v / 2 ^ unit v)).mantissa < 2 ^ 53 :=
    (Nat.floor_lt (by positivity)).mpr (by exact_mod_cast most)
  obtain ⟨more, less⟩ := roundedMantissa_le (extended (v / 2 ^ unit v))
  have far : 972 ≤ unit v := by omega
  rw [nearest]
  by_cases full : (extended (v / 2 ^ unit v)).roundedMantissa = 2 ^ 53
  · rw [rounded_of_eq (by omega) full]
    exact ofModel_pack_infinite (by omega)
  · have some : (extended (v / 2 ^ unit v)).roundedMantissa ≠ 0 := by omega
    rw [rounded_of_lt (by omega) (by omega), dif_neg some]
    exact ofModel_pack_infinite far

theorem nearest_finite {m : ℕ} {e : ℤ} {pos : 0 < m}
    (canonical : Canonical (.finite .positive m e pos)) :
    nearest (m * 2 ^ e) = .ofModel (.pack (.finite .positive m e pos)) := by
  obtain ⟨small, low, high, normal⟩ := canonical
  have positive : (0 : ℚ) < m := by exact_mod_cast pos
  have log : Int.log 2 ((m : ℚ) * 2 ^ e) = m.log2 + e := by
    have inverse : (m : ℚ) * 2 ^ e = m / 2 ^ (-e) := by rw [zpow_neg, div_inv_eq_mul]
    rw [inverse, log_div_zpow positive, Int.log_natCast, Nat.log2_eq_log_two]
    omega
  have last : unit ((m : ℚ) * 2 ^ e) = e := by
    rw [unit_eq, log]
    have short := (Nat.log2_lt pos.ne').mpr small
    rcases normal with large | least
    · have long := (Nat.le_log2 pos.ne').mpr large
      omega
    · omega
  have whole : (m : ℚ) * 2 ^ e / 2 ^ e = m := by field_simp
  have same : ExtendedMantissa.roundedMantissa ⟨m, false, false⟩ = m := rfl
  rw [nearest, last, whole, extended_natCast, rounded_of_lt low (same.trans_lt small)]
  rw [dif_neg (same ▸ pos.ne')]
  rfl

end Nearest

namespace Ratio

def value (r : Ratio) : ℚ := r.num / r.den

theorem value_pos {r : Ratio} (num : 0 < r.num) (den : 0 < r.den) : 0 < r.value := by
  unfold value
  positivity

theorem value_pow (r : Ratio) {b : ℕ} (base : 0 < b) (e : ℤ) :
    (e < 0 → value ⟨r.num * b ^ e.natAbs, r.den⟩ = r.value / b ^ e) ∧
      (0 ≤ e → value ⟨r.num, r.den * b ^ e.natAbs⟩ = r.value / b ^ e) := by
  have positive : (0 : ℚ) < b := by exact_mod_cast base
  constructor
  · intro negative
    obtain ⟨n, rfl⟩ : ∃ n : ℕ, e = -n := ⟨e.natAbs, by omega⟩
    simp only [value, Int.natAbs_neg, Int.natAbs_natCast, zpow_neg, zpow_natCast]
    push_cast
    field_simp
  · intro positive
    obtain ⟨n, rfl⟩ : ∃ n : ℕ, e = n := ⟨e.toNat, by omega⟩
    simp only [value, Int.natAbs_natCast, zpow_natCast]
    push_cast
    field_simp

theorem scaledBinary_value {r : Ratio} (den : 0 < r.den) (e : ℤ) :
    0 < (r.scaledBinary e).den ∧ (r.scaledBinary e).value = r.value / 2 ^ e := by
  unfold scaledBinary
  split
  · rename_i negative
    exact ⟨den, by simpa using (r.value_pow two_pos e).1 negative⟩
  · rename_i positive
    exact ⟨Nat.mul_pos den (by simp), by simpa using (r.value_pow two_pos e).2 (not_lt.mp positive)⟩

theorem scaled_value {r : Ratio} (den : 0 < r.den) (e : ℤ) :
    0 < (r.scaled e).den ∧ (r.scaled e).value = r.value / 10 ^ e := by
  have ten : 0 < 10 := by norm_num
  unfold scaled
  split
  · rename_i negative
    exact ⟨den, by simpa using (r.value_pow ten e).1 negative⟩
  · rename_i positive
    exact ⟨Nat.mul_pos den (by simp), by simpa using (r.value_pow ten e).2 (not_lt.mp positive)⟩

theorem log2_le_log {r : Ratio} (num : 0 < r.num) (den : 0 < r.den) :
    (r.num.log2 : ℤ) - r.den.log2 - 1 ≤ Int.log 2 r.value := by
  have least : (2 : ℚ) ^ r.num.log2 ≤ r.num := by exact_mod_cast Nat.log2_self_le num.ne'
  have most : (r.den : ℚ) < 2 ^ (r.den.log2 + 1) := by exact_mod_cast Nat.lt_log2_self
  have positive : (0 : ℚ) < r.den := by exact_mod_cast den
  rw [← Int.zpow_le_iff_le_log one_lt_two (value_pos num den), value, le_div_iff₀ positive]
  push_cast
  calc
    (2 : ℚ) ^ ((r.num.log2 : ℤ) - r.den.log2 - 1) * r.den
        ≤ 2 ^ ((r.num.log2 : ℤ) - r.den.log2 - 1) * 2 ^ (r.den.log2 + 1) := by gcongr
    _ = 2 ^ r.num.log2 := by
      rw [← zpow_natCast, ← zpow_natCast, ← zpow_add₀ two_ne_zero]
      congr 1
      push_cast
      ring
    _ ≤ r.num := least

theorem lastBit_eq (r : Ratio) :
    r.lastBit = max ((r.num.log2 : ℤ) - r.den.log2 - 53) (-1074) := by
  simp only [lastBit, Format.targetExponent, Format.mantissaBits, Format.minExponent]
  omega

theorem shift_toFloat {r : Ratio} (num : 0 < r.num) (den : 0 < r.den) :
    let s := r.scaledBinary r.lastBit
    shiftToTargetExponent Format.binary64 (s.num / s.den) r.lastBit
        (accuracyOfFraction (s.num % s.den) s.den) =
      (extended (r.value / 2 ^ unit r.value), unit r.value) := by
  intro s
  obtain ⟨positive, scaled⟩ := scaledBinary_value den r.lastBit
  have whole : ⌊r.value / 2 ^ r.lastBit⌋₊ = s.num / s.den := by
    rw [← scaled]
    exact Nat.floor_div_eq_div _ _
  have pos : 0 < r.value := value_pos num den
  have bits := log2_le_log num den
  have last := r.lastBit_eq
  have target := unit_eq r.value
  have amount : (Format.binary64.targetExponent (totalExponent (s.num / s.den) r.lastBit) -
      r.lastBit).toNat = unit r.value - r.lastBit := by
    have log := log_div_zpow pos r.lastBit
    rw [targetExponent_eq]
    by_cases large : 1 ≤ r.value / 2 ^ r.lastBit
    · rw [Int.log_of_one_le_right 2 large, whole, ← Nat.log2_eq_log_two] at log
      omega
    · have none : s.num / s.den = 0 := by
        rw [← whole, Nat.floor_eq_zero]
        exact not_le.mp large
      have low : Int.log 2 r.value - r.lastBit < 0 := by
        rw [← log, ← Int.lt_zpow_iff_log_lt one_lt_two (by positivity), zpow_zero]
        exact not_le.mp large
      rw [none, Nat.log2_zero]
      omega
  have start : ExtendedMantissa.ofMantissaAndAccuracy (s.num / s.den)
      (accuracyOfFraction (s.num % s.den) s.den) = extended (r.value / 2 ^ r.lastBit) := by
    rw [← scaled]
    exact (extended_div s.num positive).symm
  rw [shiftToTargetExponent, shiftToExponent, start, shiftRight_extended (by positivity)]
  have exponent : (2 : ℚ) ^ r.lastBit * 2 ^ (unit r.value - r.lastBit) = 2 ^ unit r.value := by
    rw [← zpow_add₀ two_ne_zero]
    congr 1
    omega
  rw [div_div, ← zpow_natCast, amount, exponent]
  congr 1
  omega

theorem toFloat_eq_nearest {r : Ratio} (num : 0 < r.num) (den : 0 < r.den) :
    r.toFloat = nearest r.value := by
  have first := shift_toFloat num den
  rw [toFloat, nearest, roundWithAccuracy]
  dsimp only at first ⊢
  rw [first]
  rfl
end Ratio

end MonkeyLang
