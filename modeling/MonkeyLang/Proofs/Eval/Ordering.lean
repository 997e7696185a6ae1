import MonkeyLang.Eval.Operators
import MonkeyLang.Proofs.Number.Order
import MonkeyLang.Proofs.Value.Equivalence

namespace MonkeyLang

variable {a b c : Value} {order : Ordering}

/-- Two values that have an order, and the order: of integers and strings that of their contents,
    of doubles that of the numbers that they stand for. -/
inductive Value.Ranked : Value → Value → Ordering → Prop
  | int {m n : Int64} {order : Ordering} (found : compare m n = order) :
      Ranked (.int m) (.int n) order
  | uint {m n : UInt64} {order : Ordering} (found : compare m n = order) :
      Ranked (.uint m) (.uint n) order
  | str {t u : String} {order : Ordering} (found : compare t u = order) :
      Ranked (.str t) (.str u) order
  | float {x y : Float} {order : Ordering} (number : x.isNaN = false) (number' : y.isNaN = false)
      (found : compare (standsFor (parts x)) (standsFor (parts y)) = order) :
      Ranked (.float x) (.float y) order

namespace Value.Ranked

theorem swap (ranked : a.Ranked b order) : b.Ranked a order.swap := by
  cases ranked with
  | int found => exact .int (Std.OrientedOrd.eq_swap.trans (congrArg _ found))
  | uint found => exact .uint (Std.OrientedOrd.eq_swap.trans (congrArg _ found))
  | str found => exact .str (Std.OrientedOrd.eq_swap.trans (congrArg _ found))
  | float number number' found =>
    exact .float number' number (Std.OrientedOrd.eq_swap.trans (congrArg _ found))

theorem comp {first second both : Ordering}
    (law : ∀ {α : Type} [Ord α] [Std.TransOrd α] {x y z : α},
      compare x y = first → compare y z = second → compare x z = both)
    (ranked : a.Ranked b first) (ranked' : b.Ranked c second) : a.Ranked c both := by
  cases ranked with
  | int found =>
    cases ranked' with
    | int found' => exact .int (law found found')
  | uint found =>
    cases ranked' with
    | uint found' => exact .uint (law found found')
  | str found =>
    cases ranked' with
    | str found' => exact .str (law found found')
  | float number _ found =>
    cases ranked' with
    | float _ number' found' => exact .float number number' (law found found')

theorem scalarsEqual? (ranked : a.Ranked b order) :
    a.scalarsEqual? b = some (decide (order = .eq)) := by
  cases ranked with
  | int found | uint found | str found =>
    subst found
    exact congrArg some (Bool.eq_iff_iff.mpr
      (Std.LawfulBEqCmp.compare_eq_iff_beq.symm.trans decide_eq_true_iff.symm))
  | @float x y _ number number' found =>
    refine congrArg some (Bool.eq_iff_iff.mpr ?_)
    rw [beq_iff_standsFor, decide_eq_true_iff, ← found, compare_eq_iff_eq]
    exact ⟨fun same => same.2.2, fun same => ⟨number, number', same⟩⟩

end Value.Ranked

theorem Value.order?_eq_some_iff : a.order? b = some order ↔ a.Ranked b order := by
  constructor
  · fun_cases order? a b with
    | case1 => exact fun found => .int (Option.some.inj found)
    | case2 => exact fun found => .uint (Option.some.inj found)
    | case3 x y less =>
      obtain ⟨number, number', less⟩ := (lt_iff_standsFor x y).mp less
      exact fun found => .float number number' (Option.some.inj found ▸ compare_lt_iff_lt.mpr less)
    | case4 x y _ same =>
      obtain ⟨number, number', same⟩ := (beq_iff_standsFor x y).mp same
      exact fun found => .float number number' (Option.some.inj found ▸ compare_eq_iff_eq.mpr same)
    | case5 x y _ _ more =>
      obtain ⟨number', number, more⟩ := (lt_iff_standsFor y x).mp more
      exact fun found => .float number number' (Option.some.inj found ▸ compare_gt_iff_gt.mpr more)
    | case6 => exact fun found => nomatch found
    | case7 => exact fun found => .str (Option.some.inj found)
    | case8 => exact fun found => nomatch found
  · rintro (found | found | found | @⟨x, y, _, number, number', found⟩)
    · exact congrArg some found
    · exact congrArg some found
    · exact congrArg some found
    · simp only [order?, lt_iff_standsFor, beq_iff_standsFor, number, number', true_and]
      cases order with
      | lt => rw [if_pos (compare_lt_iff_lt.mp found)]
      | eq =>
        have same := compare_eq_iff_eq.mp found
        rw [if_neg same.not_lt, if_pos same]
      | gt =>
        have more := compare_gt_iff_gt.mp found
        rw [if_neg more.not_gt, if_neg more.ne', if_pos more]

namespace StrictOp

def comparisonOps : List StrictOp := [lt, gt, le, ge]

section Ranked

variable (s : Store) (ranked : a.Ranked b order)

include ranked

theorem apply_ranked {op : StrictOp} (compares : op ∈ comparisonOps) :
    op.apply s a b = .ok (.bool (op.holds order)) := by
  have found : a.order? b = some order := Value.order?_eq_some_iff.mpr ranked
  cases op with
  | lt | gt | le | ge => simp only [apply, found]
  | _ => simp [comparisonOps] at compares

theorem apply_eq_ranked : eq.apply s a b = .ok (.bool (order = .eq)) :=
  Store.apply_eq_of_valuesEqual (Store.valuesEqual_of_scalarsEqual? ranked.scalarsEqual?)

end Ranked

variable {s : Store}

theorem apply_unranked {op : StrictOp} (compares : op ∈ comparisonOps)
    (unranked : ∀ order, ¬ a.Ranked b order) :
    op.apply s a b = .error (.wrongType (.operands op a.typeName b.typeName)) := by
  have missing : a.order? b = none :=
    Option.eq_none_iff_forall_ne_some.mpr fun order found =>
      unranked order (Value.order?_eq_some_iff.mp found)
  cases op with
  | lt | gt | le | ge => simp only [apply, missing]
  | _ => simp [comparisonOps] at compares

theorem exists_ranked {op : StrictOp} (compares : op ∈ comparisonOps) {v : Value}
    (ended : op.apply s a b = .ok v) :
    ∃ order, a.Ranked b order ∧ v = .bool (op.holds order) := by
  by_cases ranked : ∃ order, a.Ranked b order
  · obtain ⟨order, ranked⟩ := ranked
    rw [apply_ranked s ranked compares] at ended
    exact ⟨order, ranked, (Except.ok.inj ended).symm⟩
  · rw [apply_unranked compares (not_exists.mp ranked)] at ended
    cases ended

theorem lt_iff_ranked : lt.apply s a b = .ok (.bool true) ↔ a.Ranked b .lt := by
  constructor
  · intro less
    obtain ⟨order, ranked, answer⟩ := exists_ranked (by decide) less
    have first : order = .lt := of_decide_eq_true (Value.bool.inj answer).symm
    exact first ▸ ranked
  · exact fun ranked => apply_ranked s ranked (by decide)

theorem ranked_of_eq (equal : eq.apply s a b = .ok (.bool true)) (ranked : b.Ranked c order) :
    a.Ranked b .eq := by
  have agrees := Store.isEquality_valuesEqual s a b (Value.bool.inj (Except.ok.inj equal))
  cases ranked with
  | int =>
    cases agrees with
    | int => exact .int Std.ReflCmp.compare_self
  | uint =>
    cases agrees with
    | uint => exact .uint Std.ReflCmp.compare_self
  | str =>
    cases agrees with
    | str => exact .str Std.ReflCmp.compare_self
  | float =>
    cases agrees with
    | float same =>
      obtain ⟨number, number', same⟩ := (beq_iff_standsFor _ _).mp same
      exact .float number number' (compare_eq_iff_eq.mpr same)

/-- Either two values are integers of one kind, strings or doubles that are numbers: then just one
    of less, equal and greater holds of them, and the other comparisons, also from right to left,
    say the same. Or all comparisons complain about them. What is less than, or equal to, a lesser
    value is less. -/
theorem comparisons_by_order (s : Store) :
    (∀ a b : Value,
      (∃ order, a.Ranked b order ∧
        lt.apply s a b = .ok (.bool (order = .lt)) ∧
        eq.apply s a b = .ok (.bool (order = .eq)) ∧
        gt.apply s a b = .ok (.bool (order = .gt)) ∧
        le.apply s a b = .ok (.bool !(order = .gt)) ∧
        ge.apply s a b = .ok (.bool !(order = .lt)) ∧
        gt.apply s b a = .ok (.bool (order = .lt))) ∨
      (∀ order, ¬ a.Ranked b order) ∧ ∀ op ∈ comparisonOps,
        op.apply s a b = .error (.wrongType (.operands op a.typeName b.typeName))) ∧
    (∀ a b c, lt.apply s a b = .ok (.bool true) → lt.apply s b c = .ok (.bool true) →
      lt.apply s a c = .ok (.bool true)) ∧
    ∀ a b c, eq.apply s a b = .ok (.bool true) → lt.apply s b c = .ok (.bool true) →
      lt.apply s a c = .ok (.bool true) := by
  refine ⟨fun a b => ?_, fun a b c less less' => ?_, fun a b c equal less => ?_⟩
  · by_cases ranked : ∃ order, a.Ranked b order
    · obtain ⟨order, ranked⟩ := ranked
      have back : gt.apply s b a = .ok (.bool (order = .lt)) := by
        rw [apply_ranked s ranked.swap (by decide)]
        cases order <;> rfl
      refine .inl ⟨order, ranked, apply_ranked s ranked (by decide), apply_eq_ranked s ranked,
        apply_ranked s ranked (by decide), ?_, ?_, back⟩
      · rw [apply_ranked s ranked (by decide)]
        cases order <;> rfl
      · rw [apply_ranked s ranked (by decide)]
        cases order <;> rfl
    · exact .inr ⟨not_exists.mp ranked, fun op compares =>
        apply_unranked compares (not_exists.mp ranked)⟩
  · rw [lt_iff_ranked] at less less' ⊢
    exact less.comp Std.TransCmp.lt_trans less'
  · rw [lt_iff_ranked] at less ⊢
    exact (ranked_of_eq equal less).comp Std.TransCmp.lt_of_eq_of_lt less

/-- The zeros are equal, so both are less than the least positive double. -/
theorem comparisons_by_order_zeros :
    eq.apply .initial (.float (-0.0)) (.float 0.0) = .ok (.bool true) ∧
    lt.apply .initial (.float 0.0) (.float 5e-324) = .ok (.bool true) ∧
    lt.apply .initial (.float (-0.0)) (.float 5e-324) = .ok (.bool true) := by
  have equal : eq.apply .initial (.float (-0.0)) (.float 0.0) = .ok (.bool true) :=
    Store.apply_eq_of_valuesEqual (Store.valuesEqual_of_scalarsEqual? (by decide +kernel))
  have less : lt.apply .initial (.float 0.0) (.float 5e-324) = .ok (.bool true) :=
    lt_iff_ranked.mpr (Value.order?_eq_some_iff.mp (by decide +kernel))
  exact ⟨equal, less, (comparisons_by_order .initial).2.2 _ _ _ equal less⟩

end StrictOp

end MonkeyLang
