import MonkeyLang.Proofs.Number.Packing

namespace MonkeyLang

open Float.Model UnpackedFloat

/-- The number that a double stands for; the infinities stand for bounds of all others. -/
def standsFor : UnpackedFloat → ℚ
  | .finite .positive m e _ => m * 2 ^ e
  | .finite .negative m e _ => -(m * 2 ^ e)
  | .infinity .positive => 2 ^ 1024
  | .infinity .negative => -2 ^ 1024
  | _ => 0

section Compared

variable {m n : ℕ} {e f : ℤ} {pos : 0 < m} {pos' : 0 < n} {s t : Sign}

theorem size_pos (pos : 0 < m) (e : ℤ) : (0 : ℚ) < m * 2 ^ e := by positivity

theorem size_lt (canonical : Canonical (.finite s m e pos)) : (m * 2 ^ e : ℚ) < 2 ^ 1024 := by
  obtain ⟨short, -, high, -⟩ := canonical
  have mantissa : (m : ℚ) < 2 ^ 53 := by exact_mod_cast short
  have scale : (2 : ℚ) ^ e ≤ 2 ^ 971 := by
    rw [← zpow_natCast]
    exact zpow_le_zpow_right₀ one_le_two high
  calc (m * 2 ^ e : ℚ) < 2 ^ 53 * 2 ^ e := by gcongr
    _ ≤ 2 ^ 53 * 2 ^ 971 := by gcongr
    _ = 2 ^ 1024 := (pow_add 2 53 971).symm

theorem size_lt_of_exponent (canonical : Canonical (.finite s m e pos))
    (canonical' : Canonical (.finite t n f pos')) (less : e < f) :
    (m * 2 ^ e : ℚ) < n * 2 ^ f := by
  obtain ⟨short, low, -, -⟩ := canonical
  obtain ⟨-, -, -, long⟩ := canonical'
  have mantissa : (m : ℚ) < 2 ^ 53 := by exact_mod_cast short
  have full : (2 : ℚ) ^ 52 ≤ n := by exact_mod_cast long.resolve_right (by omega)
  have next : (2 : ℚ) ^ (e + 1) ≤ 2 ^ f := zpow_le_zpow_right₀ one_le_two less
  calc (m * 2 ^ e : ℚ) < 2 ^ 53 * 2 ^ e := by gcongr
    _ = 2 ^ 52 * 2 ^ (e + 1) := by rw [zpow_add_one₀ two_ne_zero]; ring
    _ ≤ n * 2 ^ f := by gcongr

theorem compare_size (canonical : Canonical (.finite s m e pos))
    (canonical' : Canonical (.finite t n f pos')) :
    (compare e f).then (compare m n) = compare (m * 2 ^ e : ℚ) (n * 2 ^ f) := by
  rcases lt_trichotomy e f with less | rfl | more
  · rw [compare_lt_iff_lt.mpr less,
      compare_lt_iff_lt.mpr (size_lt_of_exponent canonical canonical' less)]
    rfl
  · have positive : (0 : ℚ) < 2 ^ e := by positivity
    rw [compare_eq_iff_eq.mpr rfl]
    rcases lt_trichotomy m n with less | rfl | more
    · have scaled : (m * 2 ^ e : ℚ) < n * 2 ^ e := by gcongr
      rw [compare_lt_iff_lt.mpr less, compare_lt_iff_lt.mpr scaled]
      rfl
    · rw [compare_eq_iff_eq.mpr rfl, compare_eq_iff_eq.mpr rfl]
      rfl
    · have scaled : (n * 2 ^ e : ℚ) < m * 2 ^ e := by gcongr
      rw [compare_gt_iff_gt.mpr more, compare_gt_iff_gt.mpr scaled]
      rfl
  · rw [compare_gt_iff_gt.mpr more,
      compare_gt_iff_gt.mpr (size_lt_of_exponent canonical' canonical more)]
    rfl

theorem compare_neg (x y : ℚ) : compare (-x) (-y) = (compare x y).swap := by
  rcases lt_trichotomy x y with less | rfl | more
  · rw [compare_lt_iff_lt.mpr less, compare_gt_iff_gt.mpr (neg_lt_neg less)]
    rfl
  · rw [compare_eq_iff_eq.mpr rfl, compare_eq_iff_eq.mpr rfl]
    rfl
  · rw [compare_gt_iff_gt.mpr more, compare_lt_iff_lt.mpr (neg_lt_neg more)]
    rfl

theorem standsFor_bounds {x : UnpackedFloat} (canonical : Canonical x)
    (finite : ∀ s, x ≠ .infinity s) : -2 ^ 1024 < standsFor x ∧ standsFor x < 2 ^ 1024 := by
  have huge : (0 : ℚ) < 2 ^ 1024 := by positivity
  cases x with
  | notANumber | zero => exact ⟨neg_lt_zero.mpr huge, huge⟩
  | infinity s => exact absurd rfl (finite s)
  | finite s m e pos =>
    have small := size_lt canonical
    have positive := size_pos pos e
    cases s with
    | positive => exact ⟨(neg_lt_zero.mpr huge).trans positive, small⟩
    | negative => exact ⟨neg_lt_neg small, (neg_lt_zero.mpr positive).trans huge⟩

theorem compare_standsFor {x y : UnpackedFloat} (canonical : Canonical x) (canonical' : Canonical y)
    (number : x ≠ .notANumber) (number' : y ≠ .notANumber) :
    x.compare y = some (compare (standsFor x) (standsFor y)) := by
  have huge : (0 : ℚ) < 2 ^ 1024 := by positivity
  have opposite : (-2 ^ 1024 : ℚ) < 2 ^ 1024 := (neg_lt_zero.mpr huge).trans huge
  revert canonical canonical' number number'
  fun_cases UnpackedFloat.compare x y with
  | case1 => exact fun _ _ number _ => absurd rfl number
  | case2 => exact fun _ _ _ number' => absurd rfl number'
  | case3 s t =>
    intros
    cases s <;> cases t
    · exact congrArg some (compare_eq_iff_eq.mpr rfl).symm
    · exact congrArg some (compare_lt_iff_lt.mpr opposite).symm
    · exact congrArg some (compare_gt_iff_gt.mpr opposite).symm
    · exact congrArg some (compare_eq_iff_eq.mpr rfl).symm
  | case4 _ _ finite =>
    intro _ canonical' _ _
    exact congrArg some (compare_gt_iff_gt.mpr (standsFor_bounds canonical' finite).2).symm
  | case5 _ _ finite =>
    intro _ canonical' _ _
    exact congrArg some (compare_lt_iff_lt.mpr (standsFor_bounds canonical' finite).1).symm
  | case6 _ _ finite =>
    intro canonical _ _ _
    exact congrArg some (compare_lt_iff_lt.mpr (standsFor_bounds canonical finite).2).symm
  | case7 _ _ finite =>
    intro canonical _ _ _
    exact congrArg some (compare_gt_iff_gt.mpr (standsFor_bounds canonical finite).1).symm
  | case8 m e pos =>
    intros
    exact congrArg some (compare_gt_iff_gt.mpr (size_pos pos e)).symm
  | case9 m e pos =>
    intros
    exact congrArg some (compare_lt_iff_lt.mpr (neg_lt_zero.mpr (size_pos pos e))).symm
  | case10 _ n f pos' =>
    intros
    exact congrArg some (compare_lt_iff_lt.mpr (size_pos pos' f)).symm
  | case11 _ n f pos' =>
    intros
    exact congrArg some (compare_gt_iff_gt.mpr (neg_lt_zero.mpr (size_pos pos' f))).symm
  | case12 =>
    intros
    exact congrArg some (compare_eq_iff_eq.mpr rfl).symm
  | case13 m e pos n f pos' =>
    intro canonical canonical' _ _
    rw [compare_size canonical canonical', ← compare_neg]
    rfl
  | case14 m e pos n f pos' =>
    intros
    have order := (neg_lt_zero.mpr (size_pos pos e)).trans (size_pos pos' f)
    exact congrArg some (compare_lt_iff_lt.mpr order).symm
  | case15 m e pos n f pos' =>
    intros
    have order := (neg_lt_zero.mpr (size_pos pos' f)).trans (size_pos pos e)
    exact congrArg some (compare_gt_iff_gt.mpr order).symm
  | case16 m e pos n f pos' =>
    intro canonical canonical' _ _
    rw [compare_size canonical canonical']
    rfl

/-- Doubles have an order if they are numbers, and then that of the numbers that they stand for. -/
theorem compare_eq_some_iff {x y : UnpackedFloat} {order : Ordering} (canonical : Canonical x)
    (canonical' : Canonical y) : x.compare y = some order ↔
      x ≠ .notANumber ∧ y ≠ .notANumber ∧ compare (standsFor x) (standsFor y) = order := by
  constructor
  · intro found
    have number : x ≠ .notANumber := by
      rintro rfl
      cases found
    have number' : y ≠ .notANumber := by
      rintro rfl
      cases x <;> cases found
    rw [compare_standsFor canonical canonical' number number'] at found
    exact ⟨number, number', Option.some.inj found⟩
  · rintro ⟨number, number', rfl⟩
    exact compare_standsFor canonical canonical' number number'

end Compared

section Doubles

variable (x y : Float)

theorem lt_iff_standsFor : x < y ↔
    x.isNaN = false ∧ y.isNaN = false ∧ standsFor (parts x) < standsFor (parts y) := by
  have less : x < y ↔ (parts x).compare (parts y) = some .lt := by
    change decide _ = true ↔ _
    rw [decide_eq_true_iff]
    exact beq_iff_eq
  rw [less, compare_eq_some_iff (parts_canonical x) (parts_canonical y), compare_lt_iff_lt,
    isNaN_eq_false_iff, isNaN_eq_false_iff]

theorem beq_iff_standsFor : (x == y) = true ↔
    x.isNaN = false ∧ y.isNaN = false ∧ standsFor (parts x) = standsFor (parts y) := by
  have equal : (x == y) = true ↔ (parts x).compare (parts y) = some .eq := by
    change (_ == some Ordering.eq) = true ↔ _
    exact beq_iff_eq
  rw [equal, compare_eq_some_iff (parts_canonical x) (parts_canonical y), compare_eq_iff_eq,
    isNaN_eq_false_iff, isNaN_eq_false_iff]

end Doubles

end MonkeyLang
