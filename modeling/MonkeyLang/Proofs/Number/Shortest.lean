import MonkeyLang.Number.Shortest
import MonkeyLang.Proofs.Number.Rounding

namespace MonkeyLang

open Float.Model UnpackedFloat

namespace Decimal

def value (d : Decimal) : ℚ := d.digits * 10 ^ d.exponent

theorem value_pos {d : Decimal} (some : 0 < d.digits) : 0 < d.value := by
  unfold value
  positivity

theorem ratio_value (d : Decimal) : 0 < d.ratio.den ∧ d.ratio.value = d.value := by
  obtain ⟨den, scaled⟩ := Ratio.scaled_value (r := ⟨d.digits, 1⟩) one_pos (-d.exponent)
  refine ⟨den, ?_⟩
  rw [ratio, scaled, zpow_neg, div_inv_eq_mul, value, Ratio.value]
  norm_num

theorem ratio_num_pos {d : Decimal} (some : 0 < d.digits) : 0 < d.ratio.num := by
  unfold ratio Ratio.scaled
  split
  · exact Nat.mul_pos some (by simp)
  · exact some

section Bits

variable (e : ℤ)

theorem ten_zpow_le : (10 : ℚ) ^ e ≤ 2 ^ ((if e < 0 then 3 else 4) * e) := by
  rw [zpow_mul]
  split
  · rename_i negative
    obtain ⟨n, rfl⟩ : ∃ n : ℕ, e = -n := ⟨e.natAbs, by omega⟩
    rw [zpow_neg, zpow_neg, zpow_natCast, zpow_natCast]
    gcongr
    norm_num
  · rename_i positive
    obtain ⟨n, rfl⟩ : ∃ n : ℕ, e = n := ⟨e.toNat, by omega⟩
    rw [zpow_natCast, zpow_natCast]
    gcongr
    norm_num

theorem le_ten_zpow : (2 : ℚ) ^ ((if e < 0 then 4 else 3) * e) ≤ 10 ^ e := by
  rw [zpow_mul]
  split
  · rename_i negative
    obtain ⟨n, rfl⟩ : ∃ n : ℕ, e = -n := ⟨e.natAbs, by omega⟩
    rw [zpow_neg, zpow_neg, zpow_natCast, zpow_natCast]
    gcongr
    norm_num
  · rename_i positive
    obtain ⟨n, rfl⟩ : ∃ n : ℕ, e = n := ⟨e.toNat, by omega⟩
    rw [zpow_natCast, zpow_natCast]
    gcongr
    norm_num

end Bits

theorem value_lt (d : Decimal) : d.value < 2 ^ d.upperBits := by
  have digits : (d.digits : ℚ) < 2 ^ (d.digits.log2 + 1) := by exact_mod_cast Nat.lt_log2_self
  have bits : (2 : ℚ) ^ (d.digits.log2 + 1) = 2 ^ ((d.digits.log2 : ℤ) + 1) := by norm_cast
  rw [bits] at digits
  rw [value, upperBits, zpow_add₀ two_ne_zero]
  calc (d.digits : ℚ) * 10 ^ d.exponent
      < 2 ^ ((d.digits.log2 : ℤ) + 1) * 10 ^ d.exponent := by gcongr
    _ ≤ 2 ^ ((d.digits.log2 : ℤ) + 1) * 2 ^ ((if d.exponent < 0 then 3 else 4) * d.exponent) := by
      gcongr
      exact ten_zpow_le d.exponent

theorem le_value {d : Decimal} (some : 0 < d.digits) : 2 ^ d.lowerBits ≤ d.value := by
  have digits : (2 : ℚ) ^ d.digits.log2 ≤ d.digits := by
    exact_mod_cast Nat.log2_self_le some.ne'
  rw [value, lowerBits, zpow_add₀ two_ne_zero, zpow_natCast]
  gcongr
  exact le_ten_zpow d.exponent

theorem toFloat_eq_nearest {d : Decimal} (some : 0 < d.digits) : d.toFloat = nearest d.value := by
  have positive := value_pos some
  unfold toFloat
  split
  · rename_i small
    simp only [some.ne', Bool.or_eq_true, decide_eq_true_eq, false_or] at small
    refine (nearest_of_lt positive (d.value_lt.trans_le ?_)).symm
    exact zpow_le_zpow_right₀ one_le_two small
  · split
    · rename_i large
      refine (nearest_of_ge ((zpow_le_zpow_right₀ one_le_two ?_).trans (le_value some))).symm
      exact large
    · obtain ⟨den, same⟩ := d.ratio_value
      rw [Ratio.toFloat_eq_nearest (ratio_num_pos some) den, same]

section Trimming

theorem trimZeros_go (fuel : ℕ) (d : Decimal) :
    ∃ n : ℕ, d.digits = (trimZeros.go fuel d).digits * 10 ^ n ∧
      (trimZeros.go fuel d).exponent = d.exponent + n := by
  fun_induction trimZeros.go fuel d with
  | case1 d => exact ⟨0, by simp, by simp⟩
  | case2 fuel d zero ih =>
    obtain ⟨n, digits, exponent⟩ := ih
    refine ⟨n + 1, ?_, ?_⟩
    · have whole : d.digits = d.digits / 10 * 10 := by omega
      dsimp only at digits
      rw [pow_succ, ← mul_assoc, ← digits]
      exact whole
    · rw [exponent]
      push_cast
      ring
  | case3 => exact ⟨0, by simp, by simp⟩

theorem trimZeros_eq (d : Decimal) :
    ∃ n : ℕ, d.digits = d.trimZeros.digits * 10 ^ n ∧ d.trimZeros.exponent = d.exponent + n :=
  trimZeros_go d.digits d

theorem trimZeros_value (d : Decimal) : d.trimZeros.value = d.value := by
  obtain ⟨n, digits, exponent⟩ := d.trimZeros_eq
  rw [value, value, exponent, digits, zpow_add₀ (by norm_num), zpow_natCast]
  push_cast
  ring

end Trimming

structure Modest (d : Decimal) : Prop where
  digits : d.digits < 10 ^ 767
  low : -1074 ≤ d.exponent
  high : d.exponent ≤ 308

/-- A positive decimal that the reader keeps in full. -/
structure Legible (d : Decimal) : Prop where
  some : 0 < d.digits
  digits : d.digits < 10 ^ 767
  low : -1074 ≤ d.exponent
  high : d.exponent ≤ 1075

theorem Modest.trimZeros {d : Decimal} (modest : d.Modest) (some : 0 < d.digits) :
    d.trimZeros.Legible := by
  obtain ⟨n, digits, exponent⟩ := d.trimZeros_eq
  have left : 0 < d.trimZeros.digits := Nat.pos_of_ne_zero fun none => by
    rw [none, Nat.zero_mul] at digits
    omega
  have less : d.trimZeros.digits ≤ d.digits := by
    rw [digits]
    exact Nat.le_mul_of_pos_right _ (by positivity)
  have few (k : ℕ) (below : d.digits < 10 ^ k) : n < k := by
    have power : 10 ^ n ≤ d.digits := by
      rw [digits]
      exact Nat.le_mul_of_pos_left _ left
    exact (Nat.pow_lt_pow_iff_right (by norm_num)).mp (power.trans_lt below)
  have zeros := few 767 modest.digits
  have low := modest.low
  have high := modest.high
  exact ⟨left, less.trans_lt modest.digits, by omega, by omega⟩

end Decimal

namespace Ratio

section Sizes

theorem digitCount_le {n k : ℕ} (some : 0 < k) (bound : n < 10 ^ k) : digitCount n ≤ k :=
  (Nat.length_toDigits_le_iff (by norm_num) some).mpr bound

structure Ranged (r : Ratio) : Prop where
  num_pos : 0 < r.num
  den_pos : 0 < r.den
  num : r.num < 2 ^ 1024
  den : r.den ≤ 2 ^ 1074

theorem ofBinary_ranged {m : ℕ} {e : ℤ} (pos : 0 < m) (short : m < 2 ^ 53) (low : -1074 ≤ e)
    (high : e ≤ 971) : (ofBinary m e).Ranged := by
  -- The exponents are variables here, since the powers are too large to be worked out.
  have grow (k : ℕ) (size : e.natAbs ≤ k) : 2 ^ e.natAbs ≤ 2 ^ k :=
    Nat.pow_le_pow_right two_pos size
  have widen (k l : ℕ) (size : e.natAbs ≤ k) (sum : 2 ^ 53 * 2 ^ k = 2 ^ l) :
      m * 2 ^ e.natAbs < 2 ^ l :=
    (Nat.mul_lt_mul_of_lt_of_le short (grow k size) (by positivity)).trans_eq sum
  unfold ofBinary
  split
  · have wide : 2 ^ 53 < 2 ^ 1024 := by decide +kernel
    exact ⟨pos, by simp, short.trans wide, grow 1074 (by omega)⟩
  · have one : 1 ≤ 2 ^ 1074 := by decide +kernel
    have sum : 2 ^ 53 * 2 ^ 971 = 2 ^ 1024 := by decide +kernel
    have power : 0 < Nat.pow 2 e.natAbs := Nat.pow_pos two_pos
    have num := widen 971 1024 (by omega) sum
    exact ⟨Nat.mul_pos pos power, one_pos, num, one⟩

theorem Ranged.leading {r : Ratio} (ranged : r.Ranged) : -324 ≤ r.leading ∧ r.leading ≤ 308 := by
  unfold Ratio.leading
  split
  · have size : r.num / r.den < 10 ^ 309 := by
      calc r.num / r.den ≤ r.num := Nat.div_le_self _ _
        _ < 2 ^ 1024 := ranged.num
        _ < 10 ^ 309 := by decide +kernel
    have count := digitCount_le (by norm_num) size
    omega
  · have size : (r.den - 1) / r.num < 10 ^ 324 := by
      calc (r.den - 1) / r.num ≤ r.den := (Nat.div_le_self _ _).trans (Nat.sub_le _ _)
        _ ≤ 2 ^ 1074 := ranged.den
        _ < 10 ^ 324 := by decide +kernel
    have count := digitCount_le (by norm_num) size
    omega

theorem exponent_of_mem_neighbours {tie : Tie} {r : Ratio} {e : ℤ} {d : Decimal}
    (member : d ∈ r.neighbours tie e) :
    d.exponent = e ∧ d.digits ≤ (r.scaled e).num / (r.scaled e).den + 1 := by
  unfold neighbours at member
  dsimp only at member
  split at member
  all_goals
    split at member
    all_goals
      rcases List.mem_pair.mp member with rfl | rfl
      all_goals simp

theorem Ranged.neighbours {tie : Tie} {r : Ratio} {e : ℤ} {d : Decimal} (ranged : r.Ranged)
    (low : -340 ≤ e) (high : e ≤ 308) (member : d ∈ r.neighbours tie e) : d.Modest := by
  obtain ⟨exponent, digits⟩ := exponent_of_mem_neighbours member
  have grow (k : ℕ) (size : e.natAbs ≤ k) : 10 ^ e.natAbs ≤ 10 ^ k :=
    Nat.pow_le_pow_right (by norm_num) size
  have num : (r.scaled e).num ≤ 2 ^ 1024 * 10 ^ 340 := by
    unfold scaled
    split
    · exact Nat.mul_le_mul ranged.num.le (grow 340 (by omega))
    · exact ranged.num.le.trans (Nat.le_mul_of_pos_right _ (by positivity))
  refine ⟨?_, by omega, by omega⟩
  calc d.digits ≤ (r.scaled e).num / (r.scaled e).den + 1 := digits
    _ ≤ 2 ^ 1024 * 10 ^ 340 + 1 := Nat.add_le_add_right ((Nat.div_le_self _ _).trans num) 1
    _ < 10 ^ 767 := by decide +kernel

end Sizes

end Ratio

namespace Decimal

section Shortest

variable {x : Float} {m : ℕ} {e : ℤ} {pos : 0 < m}

theorem ofBinary_value (m : ℕ) (e : ℤ) : (ofBinary m e).value = m * 2 ^ e := by
  unfold ofBinary
  split
  · obtain ⟨n, rfl⟩ : ∃ n : ℕ, e = -n := ⟨e.natAbs, by omega⟩
    have ten : (10 : ℚ) ^ n = 5 ^ n * 2 ^ n := by rw [← mul_pow]; norm_num
    rw [value, zpow_neg, zpow_neg, zpow_natCast, zpow_natCast, ten]
    rw [Int.natAbs_neg, Int.natAbs_natCast]
    simp only [Nat.pow_eq, Nat.cast_mul, Nat.cast_pow, Nat.cast_ofNat]
    field_simp
  · obtain ⟨n, rfl⟩ : ∃ n : ℕ, e = n := ⟨e.natAbs, by omega⟩
    simp [value]

theorem ofBinary_legible (canonical : Canonical (.finite .positive m e pos)) :
    (ofBinary m e).Legible := by
  obtain ⟨small, low, high, -⟩ := canonical
  have widen (b k l : ℕ) (base : 0 < b) (size : e.natAbs ≤ k) (sum : 2 ^ 53 * b ^ k < l) :
      m * b ^ e.natAbs < l := by
    calc m * b ^ e.natAbs ≤ 2 ^ 53 * b ^ k :=
          Nat.mul_le_mul small.le (Nat.pow_le_pow_right base size)
      _ < l := sum
  unfold ofBinary
  split
  · have sum : 2 ^ 53 * 5 ^ 1074 < 10 ^ 767 := by decide +kernel
    have power : 0 < Nat.pow 5 e.natAbs := Nat.pow_pos (by norm_num)
    have digits := widen 5 1074 (10 ^ 767) (by norm_num) (by omega) sum
    have most : e ≤ 1075 := by omega
    exact ⟨Nat.mul_pos pos power, digits, low, most⟩
  · have sum : 2 ^ 53 * 2 ^ 971 < 10 ^ 767 := by decide +kernel
    have power : 0 < Nat.pow 2 e.natAbs := Nat.pow_pos (by norm_num)
    have digits := widen 2 971 (10 ^ 767) (by norm_num) (by omega) sum
    have least : (-1074 : ℤ) ≤ 0 := by decide
    have most : (0 : ℤ) ≤ 1075 := by decide
    exact ⟨Nat.mul_pos pos power, digits, least, most⟩

theorem some_of_toFloat {d : Decimal} (same : d.toFloat = x)
    (finite : parts x = .finite .positive m e pos) : 0 < d.digits := by
  refine Nat.pos_of_ne_zero fun none => ?_
  have zero : d.toFloat = .ofBits 0 := by simp [toFloat, none]
  have absurd : parts (.ofBits 0) = .finite .positive m e pos := by rw [← zero, same, finite]
  have bits : parts (.ofBits 0) = .zero .positive := rfl
  rw [bits] at absurd
  cases absurd

/-- The shortest decimal of a positive double reads back as the double. -/
theorem shortestOf_toFloat (tie : Tie) (finite : parts x = .finite .positive m e pos) :
    (shortestOf tie x m e).Legible ∧ (shortestOf tie x m e).toFloat = x := by
  have canonical := parts_canonical x
  rw [finite] at canonical
  have ranged := Ratio.ofBinary_ranged pos canonical.1 canonical.2.1 canonical.2.2.1
  unfold shortestOf
  dsimp only
  split
  · rename_i d found
    obtain ⟨n, short, hit⟩ := List.exists_of_findSome?_eq_some found
    have member := List.mem_of_find?_eq_some hit
    have equal : (d.toFloat == x) = true :=
      by simpa using List.find?_some hit
    have same := eq_of_beq_finite equal finite
    have some := some_of_toFloat same finite
    have leading := ranged.leading
    have digits : n < 17 := List.mem_range.mp short
    have modest := ranged.neighbours (by omega) (by omega) member
    have legible := modest.trimZeros some
    refine ⟨legible, ?_⟩
    rw [toFloat_eq_nearest legible.some, trimZeros_value, ← toFloat_eq_nearest some, same]
  -- Without a short decimal the double is written out, and is the nearest one to itself.
  · have legible := ofBinary_legible canonical
    refine ⟨legible, ?_⟩
    rw [toFloat_eq_nearest legible.some, ofBinary_value, nearest_finite canonical]
    refine parts_injective ?_
    rw [parts_pack canonical, finite]

end Shortest

end Decimal

end MonkeyLang
