import Mathlib.Data.Int.ModEq
import MonkeyLang.Eval
import MonkeyLang.Proofs.Eval.Operators
import MonkeyLang.Proofs.Value.Equivalence

namespace MonkeyLang

/-- What arithmetic comes to on whole numbers; quotients are cut off toward zero. -/
def StrictOp.integral? : StrictOp → Int → Int → Option Int
  | add, x, y => some (x + y)
  | sub, x, y => some (x - y)
  | mul, x, y => some (x * y)
  | div, x, y => if y = 0 then none else some (x.tdiv y)
  | mod, x, y => if y = 0 then none else some (x.tmod y)
  | _, _, _ => none

inductive Value.Integers : Value → Value → Int → Int → Prop
  | int (m n : Int64) : Integers (.int m) (.int n) m.toInt n.toInt
  | uint (m n : UInt64) : Integers (.uint m) (.uint n) m.toNat n.toNat

/-- Two operands that an arithmetic operator has a result for, unless it is a division by zero. -/
inductive StrictOp.Takes (op : StrictOp) : Value → Value → Prop
  | integers {a b : Value} {x y : Int} (pair : a.Integers b x y) : Takes op a b
  | floats (x y : Float) : Takes op (.float x) (.float y)
  | strings (joins : op = add) (t u : String) : Takes op (.str t) (.str u)

section Words

theorem bmod_modEq (x : Int) : x.bmod (2 ^ 64) ≡ x [ZMOD 2 ^ 64] := Int.bmod_emod

theorem natMod_modEq (n : Nat) : ((n % 2 ^ 64 : Nat) : Int) ≡ n [ZMOD 2 ^ 64] := by
  rw [Int.natCast_mod]
  exact Int.mod_modEq _ _

theorem eq_of_toInt_modEq {m n : Int64} (same : m.toInt ≡ n.toInt [ZMOD 2 ^ 64]) : m = n := by
  have := m.le_toInt
  have := m.toInt_lt
  have := n.le_toInt
  have := n.toInt_lt
  refine Int64.toInt_inj.mp ?_
  unfold Int.ModEq at same
  omega

theorem eq_of_toNat_modEq {m n : UInt64} (same : (m.toNat : Int) ≡ n.toNat [ZMOD 2 ^ 64]) :
    m = n := by
  have := m.toNat_lt
  have := n.toNat_lt
  refine UInt64.toNat_inj.mp ?_
  unfold Int.ModEq at same
  omega

end Words

namespace Value

variable {a b v v' : Value} {x y w w' : Int}

theorem Integers.unique (value : v.Integers a w x) (value' : v'.Integers a w' x)
    (same : w ≡ w' [ZMOD 2 ^ 64]) : v = v' := by
  cases value with
  | int => cases value' with
    | int => rw [eq_of_toInt_modEq same]
  | uint => cases value' with
    | uint => rw [eq_of_toNat_modEq same]

theorem Integers.trans {z : Int} (value : v.Integers a w x) (pair : a.Integers b y z) :
    v.Integers b w z := by
  cases value <;> cases pair
  · exact .int ..
  · exact .uint ..

theorem Integers.symm (pair : a.Integers b x y) : b.Integers a y x := by
  cases pair
  · exact .int ..
  · exact .uint ..

theorem Integers.not_isNaN (pair : a.Integers b x y) : a.isNaN = false := by
  cases pair <;> rfl

theorem Integers.typeName (pair : a.Integers b x y) : a.typeName = b.typeName := by
  cases pair <;> rfl

end Value

namespace StrictOp

variable {op : StrictOp} {x y r : Int}

theorem integral?_div (result : div.integral? x y = some r) : y ≠ 0 ∧ x.tdiv y = r := by
  rwa [integral?, Option.ite_none_left_eq_some, Option.some.injEq] at result

theorem integral?_mod (result : mod.integral? x y = some r) : y ≠ 0 ∧ x.tmod y = r := by
  rwa [integral?, Option.ite_none_left_eq_some, Option.some.injEq] at result

theorem arithmetic?_int {m n : Int64} (result : op.integral? m.toInt n.toInt = some r) :
    ∃ w : Int64, op.arithmetic? (.int m) (.int n) = some (.ok (.int w)) ∧
      w.toInt ≡ r [ZMOD 2 ^ 64] := by
  have zero : n.toInt = 0 ↔ n = 0 := by rw [← Int64.toInt_zero, Int64.toInt_inj]
  cases op with
  | add =>
    cases result
    refine ⟨m + n, rfl, ?_⟩
    rw [Int64.toInt_add]
    exact bmod_modEq _
  | sub =>
    cases result
    refine ⟨m - n, rfl, ?_⟩
    rw [Int64.toInt_sub]
    exact bmod_modEq _
  | mul =>
    cases result
    refine ⟨m * n, rfl, ?_⟩
    rw [Int64.toInt_mul]
    exact bmod_modEq _
  | div =>
    obtain ⟨some, rfl⟩ := integral?_div result
    refine ⟨m / n, by rw [arithmetic?, if_neg (zero.not.mp some)], ?_⟩
    rw [Int64.toInt_div]
    exact bmod_modEq _
  | mod =>
    obtain ⟨some, rfl⟩ := integral?_mod result
    refine ⟨m % n, by rw [arithmetic?, if_neg (zero.not.mp some)], ?_⟩
    rw [Int64.toInt_mod]
  | _ => cases result

theorem arithmetic?_uint {m n : UInt64} (result : op.integral? m.toNat n.toNat = some r) :
    ∃ w : UInt64, op.arithmetic? (.uint m) (.uint n) = some (.ok (.uint w)) ∧
      w.toNat ≡ r [ZMOD 2 ^ 64] := by
  have zero : (n.toNat : Int) = 0 ↔ n = 0 := by
    rw [Int.natCast_eq_zero, ← UInt64.toNat_zero, UInt64.toNat_inj]
  cases op with
  | add =>
    cases result
    refine ⟨m + n, rfl, ?_⟩
    rw [UInt64.toNat_add, ← Int.natCast_add]
    exact natMod_modEq _
  | sub =>
    cases result
    refine ⟨m - n, rfl, ?_⟩
    have := m.toNat_lt
    have := n.toNat_lt
    rw [UInt64.toNat_sub]
    unfold Int.ModEq
    omega
  | mul =>
    cases result
    refine ⟨m * n, rfl, ?_⟩
    rw [UInt64.toNat_mul, ← Int.natCast_mul]
    exact natMod_modEq _
  | div =>
    obtain ⟨some, rfl⟩ := integral?_div result
    refine ⟨m / n, by rw [arithmetic?, if_neg (zero.not.mp some)], ?_⟩
    rw [UInt64.toNat_div, Int.ofNat_tdiv]
  | mod =>
    obtain ⟨some, rfl⟩ := integral?_mod result
    refine ⟨m % n, by rw [arithmetic?, if_neg (zero.not.mp some)], ?_⟩
    rw [UInt64.toNat_mod, Int.ofNat_tmod]
  | _ => cases result

def arithmeticOps : List StrictOp := [add, sub, mul, div, mod]

inductive Answer (op : StrictOp) : Value → Value → Except Fault Value → Prop
  /-- On integers of one kind, an integer of the kind that is the exact result up to multiples of
      `2 ^ 64`. -/
  | integers {a b v : Value} {x y w r : Int} (pair : a.Integers b x y)
      (found : op.integral? x y = some r) (kind : v.Integers a w x) (same : w ≡ r [ZMOD 2 ^ 64]) :
      Answer op a b (.ok v)
  | zero {a b : Value} {x : Int} (divides : op = div ∨ op = mod) (pair : a.Integers b x 0) :
      Answer op a b (.error .divisionByZero)
  | float (x y z : Float) : Answer op (.float x) (.float y) (.ok (.float z))
  | joined (joins : op = add) (t u : String) : Answer op (.str t) (.str u) (.ok (.str (t ++ u)))
  | mismatch {a b : Value} (other : ¬ op.Takes a b) :
      Answer op a b (.error (.wrongType (.operands op a.typeName b.typeName)))

section Answers

variable (arithmetic : op ∈ arithmeticOps) {a b : Value}

include arithmetic

theorem apply_eq (s : Store) (a b : Value) : op.apply s a b =
    (op.arithmetic? a b).getD (.error (.wrongType (.operands op a.typeName b.typeName))) := by
  cases op with
  | add | sub | mul | div | mod =>
    unfold apply
    dsimp only
    split
    · rename_i found
      rw [found, Option.getD_some]
    · rename_i none
      rw [none, Option.getD_none]
  | _ => simp [arithmeticOps] at arithmetic

theorem integral?_eq_none (none : op.integral? x y = none) : (op = div ∨ op = mod) ∧ y = 0 := by
  cases op with
  | div => exact ⟨.inl rfl, by simpa [integral?] using none⟩
  | mod => exact ⟨.inr rfl, by simpa [integral?] using none⟩
  | add | sub | mul => cases none
  | _ => simp [arithmeticOps] at arithmetic

theorem exists_float (x y : Float) :
    ∃ z, op.arithmetic? (.float x) (.float y) = some (.ok (.float z)) := by
  cases op with
  | add | sub | mul | div | mod => exact ⟨_, rfl⟩
  | _ => simp [arithmeticOps] at arithmetic

omit arithmetic in
theorem arithmetic?_zero (divides : op = div ∨ op = mod) (pair : a.Integers b x 0) :
    op.arithmetic? a b = some (.error .divisionByZero) := by
  generalize zero : (0 : Int) = y at pair
  cases pair with
  | int m n =>
    obtain rfl : n = 0 := Int64.toInt_inj.mp zero.symm
    rcases divides with rfl | rfl <;> rfl
  | uint m n =>
    obtain rfl : n = 0 := UInt64.toNat_inj.mp (Int.natCast_inj.mp zero.symm)
    rcases divides with rfl | rfl <;> rfl

omit arithmetic in
theorem arithmetic?_integers (pair : a.Integers b x y) (result : op.integral? x y = some r) :
    ∃ v w, op.arithmetic? a b = some (.ok v) ∧ v.Integers a w x ∧ w ≡ r [ZMOD 2 ^ 64] := by
  cases pair with
  | int m n =>
    obtain ⟨w, found, same⟩ := arithmetic?_int result
    exact ⟨_, _, found, .int w m, same⟩
  | uint m n =>
    obtain ⟨w, found, same⟩ := arithmetic?_uint result
    exact ⟨_, _, found, .uint w m, same⟩

omit arithmetic in
theorem arithmetic?_other (other : ¬ op.Takes a b) : op.arithmetic? a b = none := by
  revert other
  fun_cases arithmetic? op a b with
  | case1 m n | case5 m n | case8 m n | case11 m n | case14 m n =>
    exact fun other => absurd (.integers (.int m n)) other
  | case2 m n | case6 m n | case9 m n | case12 m n | case15 m n =>
    exact fun other => absurd (.integers (.uint m n)) other
  | case3 x y | case7 x y | case10 x y | case13 x y | case16 x y =>
    exact fun other => absurd (.floats x y) other
  | case4 t u => exact fun other => absurd (.strings rfl t u) other
  | case17 => exact fun _ => rfl

theorem apply_answers (s : Store) (a b : Value) : op.Answer a b (op.apply s a b) := by
  rw [apply_eq arithmetic]
  by_cases takes : op.Takes a b
  · cases takes with
    | @integers _ _ x y pair =>
      cases result : op.integral? x y with
      | none =>
        obtain ⟨divides, rfl⟩ := integral?_eq_none arithmetic result
        rw [arithmetic?_zero divides pair, Option.getD_some]
        exact .zero divides pair
      | some r =>
        obtain ⟨v, w, found, kind, same⟩ := arithmetic?_integers pair result
        rw [found, Option.getD_some]
        exact .integers pair result kind same
    | floats x y =>
      obtain ⟨z, found⟩ := exists_float arithmetic x y
      rw [found, Option.getD_some]
      exact .float x y z
    | strings joins t u =>
      subst joins
      exact .joined rfl t u
  · rw [arithmetic?_other takes, Option.getD_none]
    exact .mismatch takes

end Answers

namespace Answer

variable {a b v : Value}

theorem kinds (answer : op.Answer a b (.ok v)) :
    a.typeName = b.typeName ∧ v.typeName = a.typeName := by
  cases answer with
  | integers pair _ kind _ => exact ⟨pair.typeName, kind.typeName⟩
  | float | joined => exact ⟨rfl, rfl⟩

theorem divides (answer : op.Answer a b (.error .divisionByZero)) :
    (op = div ∨ op = mod) ∧ ∃ x, a.Integers b x 0 := by
  cases answer with
  | zero divides pair => exact ⟨divides, _, pair⟩

end Answer

end StrictOp

section Rebuilding

open StrictOp (apply_eq arithmetic?_integers)

/-- `(a / b) * b + a % b == a`. -/
def Expr.rebuilt (span : Span) (a b : Expr) : Expr :=
  let combine (op : StrictOp) (l r : Expr) : Expr := .binary span (.strict op) l r
  combine .eq (combine .add (combine .mul (combine .div a b) b) (combine .mod a b)) a

variable {s : Store} {a b : Value} {x y : Int}

theorem Value.Integers.rebuild (pair : a.Integers b x y) (some : y ≠ 0) : ∃ q p r,
    StrictOp.div.apply s a b = .ok q ∧ StrictOp.mul.apply s q b = .ok p ∧
      StrictOp.mod.apply s a b = .ok r ∧ StrictOp.add.apply s p r = .ok a := by
  have quotient : StrictOp.div.integral? x y = .some (x.tdiv y) := if_neg some
  have remainder : StrictOp.mod.integral? x y = .some (x.tmod y) := if_neg some
  have product (m n : Int) : StrictOp.mul.integral? m n = .some (m * n) := rfl
  have sum (m n : Int) : StrictOp.add.integral? m n = .some (m + n) := rfl
  obtain ⟨q, wq, divided, kindq, sameq⟩ := arithmetic?_integers pair quotient
  obtain ⟨p, wp, multiplied, kindp, samep⟩ :=
    arithmetic?_integers (kindq.trans pair) (product wq y)
  obtain ⟨r, wr, rest, kindr, samer⟩ := arithmetic?_integers pair remainder
  obtain ⟨t, wt, added, kindt, samet⟩ :=
    arithmetic?_integers ((kindp.trans kindq).trans kindr.symm) (sum wp wr)
  have total : wt ≡ x [ZMOD 2 ^ 64] := calc
    wt ≡ wp + wr [ZMOD 2 ^ 64] := samet
    _ ≡ wq * y + x.tmod y [ZMOD 2 ^ 64] := samep.add samer
    _ ≡ x.tdiv y * y + x.tmod y [ZMOD 2 ^ 64] := (sameq.mul_right y).add_right _
    _ = x := Int.tdiv_mul_add_tmod x y
  obtain rfl : t = a :=
    (kindt.trans (kindp.trans kindq)).unique (pair.trans pair.symm) total
  refine ⟨q, p, r, ?_, ?_, ?_, ?_⟩
  · rw [apply_eq (by decide), divided, Option.getD_some]
  · rw [apply_eq (by decide), multiplied, Option.getD_some]
  · rw [apply_eq (by decide), rest, Option.getD_some]
  · rw [apply_eq (by decide), added, Option.getD_some]

variable {enter : Enter} {lines : LineIndex} {frame : FrameId} {l r : Expr} {v : Value}

theorem Expr.runIn_strict {op : StrictOp} (span : Span)
    (left : (l.eval enter lines frame).runIn s = (.ok a, s))
    (right : (r.eval enter lines frame).runIn s = (.ok b, s)) (applied : op.apply s a b = .ok v) :
    ((Expr.binary span (.strict op) l r).eval enter lines frame).runIn s = (.ok v, s) := by
  rw [Expr.eval, Eval.runIn_bind_ok left]
  dsimp only
  rw [Eval.runIn_bind_ok right, Eval.runIn_bind_ok (Eval.runIn_read ..), applied]
  rfl

theorem Expr.runIn_rebuilt (span : Span) (pair : a.Integers b x y) (some : y ≠ 0)
    (left : (l.eval enter lines frame).runIn s = (.ok a, s))
    (right : (r.eval enter lines frame).runIn s = (.ok b, s)) :
    ((Expr.rebuilt span l r).eval enter lines frame).runIn s = (.ok (.bool true), s) := by
  obtain ⟨q, p, rest, divided, multiplied, reduced, added⟩ := pair.rebuild (s := s) some
  have same : StrictOp.eq.apply s a a = .ok (.bool true) :=
    Store.apply_eq_of_valuesEqual (Store.valuesEqual_self_iff.mpr pair.not_isNaN)
  have quotient := Expr.runIn_strict span left right divided
  have remainder := Expr.runIn_strict span left right reduced
  have product := Expr.runIn_strict span quotient right multiplied
  have sum := Expr.runIn_strict span product remainder added
  exact Expr.runIn_strict span sum left same

end Rebuilding

namespace StrictOp

/-- An arithmetic operator has a result on operands of one kind only, and of that kind: on integers
    the exact one up to multiples of `2 ^ 64`, unless they are divided by zero; on doubles; and on
    strings where they are joined. For all other operands it names their kinds. Quotient and
    remainder make up the dividend again, and a negative word is zero less the word. -/
theorem arithmetic_by_kinds {op : StrictOp} (arithmetic : op ∈ arithmeticOps) (s : Store) :
    (∀ a b, op.Answer a b (op.apply s a b)) ∧
    (∀ a b v, op.apply s a b = .ok v → a.typeName = b.typeName ∧ v.typeName = a.typeName) ∧
    (∀ a b, op.apply s a b = .error .divisionByZero ↔
      (op = div ∨ op = mod) ∧ ∃ x, a.Integers b x 0) ∧
    (∀ a b, ¬ op.Takes a b → ∃ fault, op.apply s a b = .error fault ∧
      fault.message = s!"type error: {a.typeName} {op.spelling} {b.typeName}") ∧
    (∀ (enter : Enter) (lines : LineIndex) (frame : FrameId) (span : Span) (l r : Expr)
      (a b : Value) (x y : Int), a.Integers b x y → y ≠ 0 →
      (l.eval enter lines frame).runIn s = (.ok a, s) →
      (r.eval enter lines frame).runIn s = (.ok b, s) →
      ((Expr.rebuilt span l r).eval enter lines frame).runIn s = (.ok (.bool true), s)) ∧
    ∀ n, UnOp.neg.apply (.int n) = sub.apply s (.int 0) (.int n) := by
  have answers (a b : Value) : op.Answer a b (op.apply s a b) := apply_answers arithmetic s a b
  refine ⟨answers, fun a b v ended => ?_, fun a b => ⟨fun failed => ?_, ?_⟩, fun a b other => ?_,
    fun _ _ _ _ _ _ _ _ _ _ pair some left right => Expr.runIn_rebuilt _ pair some left right,
    fun n => ?_⟩
  · have answer := answers a b
    rw [ended] at answer
    exact answer.kinds
  · have answer := answers a b
    rw [failed] at answer
    exact answer.divides
  · rintro ⟨divides, x, pair⟩
    rw [apply_eq arithmetic, arithmetic?_zero divides pair, Option.getD_some]
  · refine ⟨.wrongType (.operands op a.typeName b.typeName), ?_, rfl⟩
    rw [apply_eq arithmetic, arithmetic?_other other, Option.getD_none]
  · have difference : sub.apply s (.int 0) (.int n) = .ok (.int (0 - n)) := rfl
    rw [difference, Int64.zero_sub]
    rfl

/-- The quotient of the least word and -1 is no word, and is the least word again. -/
theorem arithmetic_by_kinds_least :
    div ∈ arithmeticOps ∧
    div.Answer (.int Int64.minValue) (.int (-1)) (.ok (.int Int64.minValue)) ∧
    (Value.int Int64.minValue).Integers (.int (-1)) (-2 ^ 63) (-1) ∧
    ((Expr.rebuilt default (.int default Int64.minValue) (.int default (-1))).eval enterFirst
      ⟨[]⟩ Store.globals).runIn .initial = (.ok (.bool true), .initial) := by
  have member : div ∈ arithmeticOps := by decide
  have pair : (Value.int Int64.minValue).Integers (.int (-1)) (-2 ^ 63) (-1) := .int ..
  obtain ⟨answers, -, -, -, rebuilt, -⟩ := arithmetic_by_kinds member .initial
  exact ⟨member, answers _ _, pair, rebuilt _ _ _ _ _ _ _ _ _ _ pair (by decide) rfl rfl⟩

end StrictOp

end MonkeyLang
