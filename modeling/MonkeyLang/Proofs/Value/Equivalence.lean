import MonkeyLang.Eval.ArrayMethod
import MonkeyLang.Proofs.Eval.Triple
import MonkeyLang.Proofs.Number.Packing
import MonkeyLang.Proofs.Value.Equality

namespace MonkeyLang

section Doubles

open Float.Model.UnpackedFloat (beq_iff_ne_notANumber_and_eq)

variable {x y z : Float}

theorem beq_symm (equal : (x == y) = true) : (y == x) = true := by
  obtain ⟨left, right, same⟩ := (beq_iff_ne_notANumber_and_eq (parts x) (parts y)).mp equal
  refine (beq_iff_ne_notANumber_and_eq (parts y) (parts x)).mpr ⟨right, left, ?_⟩
  rcases same with same | ⟨plus, minus⟩ | ⟨minus, plus⟩
  · exact .inl same.symm
  · exact .inr (.inr ⟨minus, plus⟩)
  · exact .inr (.inl ⟨plus, minus⟩)

theorem beq_trans (first : (x == y) = true) (second : (y == z) = true) : (x == z) = true := by
  obtain ⟨left, -, same⟩ := (beq_iff_ne_notANumber_and_eq (parts x) (parts y)).mp first
  obtain ⟨-, right, same'⟩ := (beq_iff_ne_notANumber_and_eq (parts y) (parts z)).mp second
  refine (beq_iff_ne_notANumber_and_eq (parts x) (parts z)).mpr ⟨left, right, ?_⟩
  rcases same with same | ⟨plus, minus⟩ | ⟨minus, plus⟩
  · rwa [same]
  · rw [plus]
    rw [minus] at same'
    rcases same' with same' | ⟨other, -⟩ | ⟨-, plus'⟩
    · exact .inr (.inl ⟨rfl, same'.symm⟩)
    · cases other
    · exact .inl plus'.symm
  · rw [minus]
    rw [plus] at same'
    rcases same' with same' | ⟨-, minus'⟩ | ⟨other, -⟩
    · exact .inr (.inr ⟨rfl, same'.symm⟩)
    · exact .inl minus'.symm
    · cases other

theorem beq_self_iff : (x == x) = true ↔ x.isNaN = false := by
  rw [isNaN_eq_false_iff]
  constructor
  · exact fun equal => ((beq_iff_ne_notANumber_and_eq (parts x) (parts x)).mp equal).1
  · exact fun some => (beq_iff_ne_notANumber_and_eq (parts x) (parts x)).mpr ⟨some, some, .inl rfl⟩

end Doubles

namespace Value

def isNaN : Value → Bool
  | float x => x.isNaN
  | returned value => value.isNaN
  | _ => false

inductive SameKind : Value → Value → Prop
  | int (m n : Int64) : SameKind (.int m) (.int n)
  | uint (m n : UInt64) : SameKind (.uint m) (.uint n)
  | float (x y : Float) : SameKind (.float x) (.float y)
  | str (t u : String) : SameKind (.str t) (.str u)
  | bool (b c : Bool) : SameKind (.bool b) (.bool c)

theorem sameKind_iff {a b : Value} : a.SameKind b ↔ (a.scalarsEqual? b).isSome = true := by
  constructor
  · rintro (_ | _ | _ | _ | _) <;> rfl
  · fun_cases scalarsEqual? a b with
    | case1 m n => exact fun _ => .int m n
    | case2 m n => exact fun _ => .uint m n
    | case3 x y => exact fun _ => .float x y
    | case4 t u => exact fun _ => .str t u
    | case5 b c => exact fun _ => .bool b c
    | case6 => simp

end Value

namespace Store

variable {s : Store}

section Laws

variable {R T : Value → Value → Prop}

theorem Agrees.swap {a b : Value} (agrees : s.Agrees R a b) :
    s.Agrees (fun x y => R y x) b a := by
  cases agrees with
  | int n => exact .int n
  | uint n => exact .uint n
  | float same => exact .float (beq_symm same)
  | str t => exact .str t
  | bool b => exact .bool b
  | nil => exact .nil
  | closure same => exact .closure same.symm
  | returned inner => exact .returned inner
  | sameArray id => exact .sameArray id
  | arrays members => exact .arrays members.flip

theorem IsEquality.swap (equality : s.IsEquality R) : s.IsEquality fun a b => R b a :=
  fun _ _ related => (equality _ _ related).swap

theorem forall₂_comp {xs ys zs : List Value} (first : List.Forall₂ R xs ys)
    (second : List.Forall₂ T ys zs) : List.Forall₂ (Relation.Comp R T) xs zs := by
  induction first generalizing zs with
  | nil =>
    cases second
    exact .nil
  | cons here _ ih =>
    cases second with
    | cons there later => exact .cons ⟨_, here, there⟩ (ih later)

/-- A step by way of a third value. An array on the way that is met with itself is passed over, so
    one of the two relations may be left alone then. -/
theorem Agrees.comp {a b c : Value} (first : s.Agrees R a b) (second : s.Agrees T b c) :
    s.Agrees (fun x y => R x y ∨ T x y ∨ Relation.Comp R T x y) a c := by
  cases first with
  | int n =>
    cases second
    exact .int n
  | uint n =>
    cases second
    exact .uint n
  | float same =>
    cases second with
    | float same' => exact .float (beq_trans same same')
  | str t =>
    cases second
    exact .str t
  | bool b =>
    cases second
    exact .bool b
  | nil =>
    cases second
    exact .nil
  | closure same =>
    cases second with
    | closure same' => exact .closure (same.trans same')
  | returned inner =>
    cases second with
    | returned inner' => exact .returned (.inr (.inr ⟨_, inner, inner'⟩))
  | sameArray id => exact second.mono fun _ _ related => .inr (.inl related)
  | arrays members =>
    cases second with
    | sameArray => exact .arrays (members.imp fun _ _ related => .inl related)
    | arrays members' =>
      exact .arrays ((forall₂_comp members members').imp fun _ _ related => .inr (.inr related))

theorem IsEquality.comp (first : s.IsEquality R) (second : s.IsEquality T) :
    s.IsEquality fun a b => R a b ∨ T a b ∨ Relation.Comp R T a b := by
  rintro a b (related | related | ⟨c, before, after⟩)
  · exact (first a b related).mono fun _ _ => .inl
  · exact (second a b related).mono fun _ _ related => .inr (.inl related)
  · exact (first a c before).comp (second c b after)

theorem isEquality_self (s : Store) : s.IsEquality fun a b => a = b ∧ a.isNaN = false := by
  rintro a _ ⟨rfl, number⟩
  cases a with
  | int n => exact .int n
  | uint n => exact .uint n
  | float x => exact .float (beq_self_iff.mpr number)
  | str t => exact .str t
  | bool b => exact .bool b
  | nil => exact .nil
  | array id => exact .sameArray id
  | closure c => exact .closure rfl
  | returned inner => exact .returned ⟨rfl, number⟩

end Laws

variable {a b c : Value}

theorem valuesEqual_symm (equal : s.valuesEqual a b = true) : s.valuesEqual b a = true :=
  (isEquality_valuesEqual s).swap.valuesEqual equal

theorem valuesEqual_comm (s : Store) (a b : Value) : s.valuesEqual a b = s.valuesEqual b a :=
  Bool.eq_iff_iff.mpr ⟨valuesEqual_symm, valuesEqual_symm⟩

theorem valuesEqual_trans (first : s.valuesEqual a b = true) (second : s.valuesEqual b c = true) :
    s.valuesEqual a c = true :=
  ((isEquality_valuesEqual s).comp (isEquality_valuesEqual s)).valuesEqual
    (.inr (.inr ⟨b, first, second⟩))

theorem valuesEqual_self_iff : s.valuesEqual a a = true ↔ a.isNaN = false := by
  constructor
  · intro equal
    induction a with
    | float x =>
      cases isEquality_valuesEqual s _ _ equal with
      | float same => exact beq_self_iff.mp same
    | returned value ih =>
      cases isEquality_valuesEqual s _ _ equal with
      | returned inner => exact ih inner
    | _ => rfl
  · exact fun number => (isEquality_self s).valuesEqual ⟨rfl, number⟩

theorem valuesEqual_congr (equal : s.valuesEqual a b = true) (member : Value) :
    s.valuesEqual member a = s.valuesEqual member b :=
  Bool.eq_iff_iff.mpr ⟨fun found => valuesEqual_trans found equal,
    fun found => valuesEqual_trans found (valuesEqual_symm equal)⟩

section Searching

variable (equal : s.valuesEqual a b = true) (id : ArrayId)

include equal

theorem position?_congr : ArrayMethod.position? s id a = ArrayMethod.position? s id b := by
  simp only [ArrayMethod.position?, valuesEqual_congr equal]

theorem occurrences_congr : ArrayMethod.occurrences s id a = ArrayMethod.occurrences s id b := by
  simp only [ArrayMethod.occurrences, valuesEqual_congr equal]

theorem isMember_congr : ArrayMethod.isMember s id a = ArrayMethod.isMember s id b := by
  simp only [ArrayMethod.isMember, valuesEqual_congr equal]

theorem search_congr (enter : Enter) (line : Nat) (scope : FrameId) {method : ArrayMethod}
    (searches : method ∈ [.count, .includes, .index]) :
    (method.run enter line scope id [a]).runIn s = (method.run enter line scope id [b]).runIn s := by
  simp only [List.mem_cons, List.not_mem_nil, or_false] at searches
  rcases searches with rfl | rfl | rfl
  · simp only [ArrayMethod.run, Eval.runIn_bind, Eval.runIn_read, List.headD_cons,
      occurrences_congr equal]
  · simp only [ArrayMethod.run, Eval.runIn_bind, Eval.runIn_read, List.headD_cons,
      isMember_congr equal]
  · simp only [ArrayMethod.run, Eval.runIn_bind, Eval.runIn_read, List.headD_cons,
      position?_congr equal]

end Searching

theorem valuesEqual_of_scalarsEqual? {equal : Bool} (found : a.scalarsEqual? b = some equal) :
    s.valuesEqual a b = equal := by
  simp [valuesEqual, allEqual, Value.comparison_of_scalarsEqual? found]

theorem apply_eq_of_valuesEqual {equal : Bool} (found : s.valuesEqual a b = equal) :
    StrictOp.eq.apply s a b = .ok (.bool equal) := by
  rw [StrictOp.apply, found]

theorem structurallyEqual_of_sameKind (same : a.SameKind b) :
    s.structurallyEqual a b = false := by
  cases same <;> rfl

theorem allEqual_congr {a' b' : Value} (same : a.comparison b = a'.comparison b')
    (visited : Std.HashSet (ArrayId × ArrayId)) (rest : List (Value × Value)) :
    s.allEqual visited ((a, b) :: rest) = s.allEqual visited ((a', b') :: rest) := by
  rw [allEqual, allEqual, same]

theorem structurallyEqual_of_not_sameKind (other : ¬ a.SameKind b) :
    s.structurallyEqual a b = s.valuesEqual a b := by
  rw [Value.sameKind_iff, Option.not_isSome_iff_eq_none] at other
  have compared := Value.comparison_of_not_scalars other
  rw [structurallyEqual, valuesEqual]
  cases seen : a.structuralComparison b with
  | settled equal => simp [allEqual, compared, seen]
  | arrays x y =>
    have same : (Value.array x).comparison (.array y) = a.comparison b :=
      (compared.trans seen).symm
    exact allEqual_congr same ∅ []

/-- In every store, equality is symmetric and transitive, and a value is equal to itself unless it
    is not a number. So equal values are found at the same places of all arrays. Structural equality
    is the same but for two scalars of one kind, which it takes for different. -/
theorem valuesEqual_equivalence (s : Store) :
    (∀ a b, s.valuesEqual a b = s.valuesEqual b a) ∧
    (∀ a b c, s.valuesEqual a b = true → s.valuesEqual b c = true → s.valuesEqual a c = true) ∧
    (∀ a, s.valuesEqual a a = true ↔ a.isNaN = false) ∧
    (∀ a b, s.valuesEqual a b = true → ∀ id,
      ArrayMethod.occurrences s id a = ArrayMethod.occurrences s id b ∧
      ArrayMethod.isMember s id a = ArrayMethod.isMember s id b ∧
      ArrayMethod.position? s id a = ArrayMethod.position? s id b ∧
      ∀ enter line scope, ∀ method ∈ [ArrayMethod.count, .includes, .index],
        (method.run enter line scope id [a]).runIn s =
          (method.run enter line scope id [b]).runIn s) ∧
    (∀ a b, a.SameKind b → s.structurallyEqual a b = false) ∧
    ∀ a b, ¬ a.SameKind b → s.structurallyEqual a b = s.valuesEqual a b := by
  refine ⟨valuesEqual_comm s, fun a b c => valuesEqual_trans, fun a => valuesEqual_self_iff,
    fun a b equal id => ?_, fun a b => structurallyEqual_of_sameKind,
    fun a b => structurallyEqual_of_not_sameKind⟩
  exact ⟨occurrences_congr equal id, isMember_congr equal id, position?_congr equal id,
    fun enter line scope method => search_congr equal id enter line scope⟩

end Store

end MonkeyLang
