import MonkeyLang.Proofs.Json.Double
import MonkeyLang.Token.Rule

namespace MonkeyLang

open Float.Model UnpackedFloat

def Fractional (x : Float) : Prop :=
  ∃ sign m e pos, parts x = .finite sign m e pos ∧ ∀ k : ℕ, (m : ℚ) * 2 ^ e ≠ k

section Whole

variable {m : ℕ} {e : ℤ} {pos : 0 < m}

theorem parts_full {k : ℕ} {b : ℤ} {some : 0 < k} (long : 2 ^ 52 ≤ k) (short : k < 2 ^ 53)
    (low : -1074 ≤ b)
    (finite : parts (.ofModel (.pack (.finite .positive k b some))) = .finite .positive m e pos) :
    m = k ∧ e = b := by
  by_cases near : b ≤ 971
  · rw [parts_pack (u := .finite .positive k b some) ⟨short, low, near, .inl long⟩] at finite
    cases finite
    exact ⟨rfl, rfl⟩
  · rw [ofModel_pack_infinite (by omega)] at finite
    have infinite : parts (.ofBits 0x7ff0000000000000) = .infinity .positive := rfl
    rw [infinite] at finite
    cases finite

theorem div_unit_bounds {v : ℚ} (one : 1 ≤ v) :
    unit v = Int.log 2 v - 52 ∧ 0 ≤ Int.log 2 v ∧ 2 ^ 52 ≤ v / 2 ^ unit v ∧
      v / 2 ^ unit v < 2 ^ 53 := by
  have positive : 0 < v := by linarith
  have least : 0 ≤ Int.log 2 v := by
    rw [← Int.zpow_le_iff_le_log one_lt_two positive]
    simpa using one
  have last : unit v = Int.log 2 v - 52 := by
    rw [unit_eq]
    omega
  have own := Int.zpow_log_le_self (b := 2) one_lt_two positive
  have next := Int.lt_zpow_succ_log_self (b := 2) one_lt_two v
  push_cast at own next
  refine ⟨last, least, ?_, ?_⟩
  · rw [le_div_iff₀ (by positivity), last, ← zpow_natCast, ← zpow_add₀ two_ne_zero]
    have same : ((52 : ℕ) : ℤ) + (Int.log 2 v - 52) = Int.log 2 v := by omega
    rwa [same]
  · rw [div_lt_iff₀ (by positivity), last, ← zpow_natCast, ← zpow_add₀ two_ne_zero]
    have same : ((53 : ℕ) : ℤ) + (Int.log 2 v - 52) = Int.log 2 v + 1 := by omega
    rwa [same]

theorem whole_of_nearest {n : ℕ} (some : 0 < n)
    (finite : parts (nearest n) = .finite .positive m e pos) : ∃ k : ℕ, (m : ℚ) * 2 ^ e = k := by
  have one : (1 : ℚ) ≤ n := by exact_mod_cast some
  obtain ⟨last, least, long, short⟩ := div_unit_bounds one
  by_cases below : unit n < 0
  · -- The number has so few bits that it is a double.
    obtain ⟨j, exponent⟩ : ∃ j : ℕ, unit n = -j := ⟨(unit n).natAbs, by omega⟩
    have scaled : (n : ℚ) / 2 ^ unit n = (n * 2 ^ j : ℕ) := by
      rw [exponent, zpow_neg, div_inv_eq_mul, zpow_natCast]
      push_cast
      rfl
    rw [scaled] at long short
    have long : 2 ^ 52 ≤ n * 2 ^ j := by exact_mod_cast long
    have short : n * 2 ^ j < 2 ^ 53 := by exact_mod_cast short
    have mantissa : (⟨n * 2 ^ j, false, false⟩ : ExtendedMantissa).roundedMantissa = n * 2 ^ j :=
      rfl
    rw [nearest, scaled, extended_natCast, rounded_of_lt (by omega) (mantissa.trans_lt short),
      dif_neg (by omega)] at finite
    obtain ⟨rfl, rfl⟩ := parts_full long short (by omega) finite
    refine ⟨n, ?_⟩
    rw [← scaled]
    field_simp
  · obtain ⟨more, less⟩ := roundedMantissa_le (extended ((n : ℚ) / 2 ^ unit n))
    have long : 2 ^ 52 ≤ (extended ((n : ℚ) / 2 ^ unit n)).mantissa :=
      Nat.le_floor (by exact_mod_cast long)
    have short : (extended ((n : ℚ) / 2 ^ unit n)).mantissa < 2 ^ 53 :=
      (Nat.floor_lt (by positivity)).mpr (by exact_mod_cast short)
    have whole (m : ℕ) {e : ℤ} (up : 0 ≤ e) : ∃ k : ℕ, (m : ℚ) * 2 ^ e = k := by
      obtain ⟨j, rfl⟩ : ∃ j : ℕ, e = j := ⟨e.toNat, by omega⟩
      exact ⟨m * 2 ^ j, by push_cast; rw [zpow_natCast]⟩
    rw [nearest] at finite
    by_cases full : (extended ((n : ℚ) / 2 ^ unit n)).roundedMantissa = 2 ^ 53
    · rw [rounded_of_eq (by omega) full] at finite
      obtain ⟨rfl, rfl⟩ := parts_full le_rfl (by decide) (by omega) finite
      exact whole _ (by omega)
    · rw [rounded_of_lt (by omega) (by omega), dif_neg (by omega)] at finite
      obtain ⟨rfl, rfl⟩ := parts_full (by omega) (by omega) (by omega) finite
      exact whole _ (by omega)

end Whole

namespace Fractional

variable {x : Float} (fractional : Fractional x)

include fractional

theorem isFinite : x.isFinite = true := by
  obtain ⟨sign, m, e, pos, finite, -⟩ := fractional
  rw [Json.isFinite_eq, finite]
  rfl

theorem beq_self : (x == x) = true := by
  obtain ⟨sign, m, e, pos, finite, -⟩ := fractional
  have number : parts x ≠ .notANumber := by
    rw [finite]
    exact fun same => nomatch same
  exact (beq_iff_ne_notANumber_and_eq (parts x) (parts x)).mpr ⟨number, number, .inl rfl⟩

end Fractional

namespace Decimal

section Reading

variable {x : Float} {m : ℕ} {e : ℤ} {pos : 0 < m}

theorem exponent_neg {d : Decimal} (legible : d.Legible) (same : d.toFloat = x)
    (finite : parts x = .finite .positive m e pos) (fractional : ∀ k : ℕ, (m : ℚ) * 2 ^ e ≠ k) :
    d.exponent < 0 := by
  by_contra least
  obtain ⟨j, exponent⟩ : ∃ j : ℕ, d.exponent = j := ⟨d.exponent.toNat, by omega⟩
  have whole : d.value = (d.digits * 10 ^ j : ℕ) := by
    rw [value, exponent, zpow_natCast]
    push_cast
    rfl
  have some : 0 < d.digits * 10 ^ j := Nat.mul_pos legible.some (Nat.pow_pos (by decide))
  rw [← same, toFloat_eq_nearest legible.some, whole] at finite
  obtain ⟨k, natural⟩ := whole_of_nearest some finite
  exact fractional k natural

theorem isDigit_of_isDigit {c : Char} (digit : c.isDigit = true) : isDigit c = true := by
  rw [isDigit, digit?_of_isDigit digit]
  rfl

theorem ofLiteral_eq {ds fs : List Char} (whole : AllDigits ds) (fraction : AllDigits fs) :
    ofLiteral (ds ++ '.' :: fs) = ⟨natFrom 0 (ds ++ fs), -fs.length⟩ := by
  have inside (cs : List Char) (digits : AllDigits cs) : ∀ c ∈ cs, isDigit c = true :=
    fun c member => isDigit_of_isDigit (digits c member)
  have point : isDigit '.' = false := by decide
  have front : (ds ++ '.' :: fs).takeWhile isDigit = ds := by
    rw [List.takeWhile_append_of_pos (inside ds whole),
      List.takeWhile_cons_of_neg (by simp [point]), List.append_nil]
  have back : (ds ++ '.' :: fs).dropWhile isDigit = '.' :: fs := by
    rw [List.dropWhile_append_of_pos (inside ds whole),
      List.dropWhile_cons_of_neg (by simp [point])]
  have all : fs.takeWhile isDigit = fs := by
    rw [List.takeWhile_eq_self_iff]
    exact inside fs fraction
  have none : fs.dropWhile isDigit = [] := by
    rw [List.dropWhile_eq_nil_iff]
    exact inside fs fraction
  rw [ofLiteral, front, back, List.drop_one, List.tail_cons, all, none, ofParts, natOf]
  simp [exponentOf]

end Reading

end Decimal

open Decimal Json

/-- The text of a double that is not whole is a literal, perhaps behind a minus, and the literal is
    read as the size of the double. -/
theorem Fractional.text {x : Float} (fractional : Fractional x) :
    ∃ ds fs, ds ≠ [] ∧ AllDigits ds ∧ fs ≠ [] ∧ AllDigits fs ∧
      ((Layout.display.text x = ds ++ '.' :: fs ∧ (ofLiteral (ds ++ '.' :: fs)).toFloat = x) ∨
        (Layout.display.text x = '-' :: (ds ++ '.' :: fs) ∧
          -(ofLiteral (ds ++ '.' :: fs)).toFloat = x)) := by
  obtain ⟨sign, m, e, pos, finite, fractional⟩ := fractional
  have size : parts x.abs = .finite .positive m e pos := by
    rw [parts_abs, finite]
    rfl
  obtain ⟨legible, same⟩ := shortestOf_toFloat .up size
  have less := exponent_neg legible same size fractional
  obtain ⟨ds, fs, text, around⟩ : ∃ ds fs,
      Layout.display.decimalText (shortestOf .up x.abs m e) = ds ++ '.' :: fs ∧
        Around (shortestOf .up x.abs m e) ds fs := by
    unfold Layout.decimalText
    dsimp only [Layout.display]
    rw [Bool.or_true, if_pos rfl, Layout.positionalText, if_neg (not_le.mpr less)]
    split
    · exact ⟨_, _, rfl, around_inside legible less (by omega) (by omega)⟩
    · exact ⟨_, _, rfl, around_behind legible less (by omega)⟩
  have some : ds ≠ [] := by
    rcases around.leads with rfl | ⟨_, _, _, _, _, rfl⟩ <;> simp
  have digits : AllDigits ds := by
    rcases around.leads with rfl | ⟨d, later, _, small, digits, rfl⟩
    · simp [AllDigits]
    · refine allDigits_cons.mpr ⟨?_, digits⟩
      interval_cases d <;> rfl
  have read : (ofLiteral (ds ++ '.' :: fs)).toFloat = x.abs := by
    rw [ofLiteral_eq digits around.digits, toFloat_eq_nearest around.some, around.value,
      ← toFloat_eq_nearest legible.some, same]
  have whole : Layout.display.text x = Layout.signText sign ++ (ds ++ '.' :: fs) := by
    rw [text_eq, finite, ← text]
    rfl
  refine ⟨ds, fs, some, digits, around.nonempty, around.digits, ?_⟩
  rw [read]
  cases sign with
  | positive => exact .inl ⟨whole, parts_injective (size.trans finite.symm)⟩
  | negative =>
    refine .inr ⟨whole, parts_injective ?_⟩
    rw [parts_neg, size, finite]
    rfl

end MonkeyLang
