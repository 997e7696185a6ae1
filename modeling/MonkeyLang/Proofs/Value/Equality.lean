import Mathlib.Data.List.Forall2
import MonkeyLang.Value.Equality

/-!
Equality of values as a relation. Arrays may contain themselves, so equality is no recursion on
values: it is the greatest relation whose pairs agree as far as they can be seen, the members of
arrays again being related. Main statement: the walk over pairs decides it.
-/

namespace MonkeyLang

namespace Store

inductive Agrees (s : Store) (R : Value → Value → Prop) : Value → Value → Prop
  | int (n : Int64) : Agrees s R (.int n) (.int n)
  | uint (n : UInt64) : Agrees s R (.uint n) (.uint n)
  | float {x y : Float} (same : (x == y) = true) : Agrees s R (.float x) (.float y)
  | str (t : String) : Agrees s R (.str t) (.str t)
  | bool (b : Bool) : Agrees s R (.bool b) (.bool b)
  | nil : Agrees s R .nil .nil
  | closure {c d : Closure} (same : c.id = d.id) : Agrees s R (.closure c) (.closure d)
  | returned {a b : Value} (inner : R a b) : Agrees s R (.returned a) (.returned b)
  | sameArray (id : ArrayId) : Agrees s R (.array id) (.array id)
  | arrays {x y : ArrayId}
      (members : List.Forall₂ R (s.members x).toList (s.members y).toList) :
      Agrees s R (.array x) (.array y)

def IsEquality (s : Store) (R : Value → Value → Prop) : Prop :=
  ∀ a b, R a b → s.Agrees R a b

theorem Agrees.imp {s t : Store} {R T : Value → Value → Prop} {a b : Value}
    (agrees : s.Agrees R a b)
    (inner : ∀ x y, a = .returned x → b = .returned y → R x y → T x y)
    (arrays : ∀ x y, a = .array x → b = .array y →
      List.Forall₂ R (s.members x).toList (s.members y).toList →
      List.Forall₂ T (t.members x).toList (t.members y).toList) : t.Agrees T a b := by
  cases agrees with
  | int n => exact .int n
  | uint n => exact .uint n
  | float same => exact .float same
  | str t => exact .str t
  | bool b => exact .bool b
  | nil => exact .nil
  | closure same => exact .closure same
  | returned related => exact .returned (inner _ _ rfl rfl related)
  | sameArray id => exact .sameArray id
  | arrays members => exact .arrays (arrays _ _ rfl rfl members)

theorem Agrees.mono {s : Store} {R T : Value → Value → Prop} (le : ∀ a b, R a b → T a b)
    {a b : Value} (agrees : s.Agrees R a b) : s.Agrees T a b :=
  agrees.imp (fun x y _ _ => le x y) fun _ _ _ _ members => members.imp le

end Store

/-- Whether a pair needs no further comparison, the pairs of arrays in `known` being equal. -/
def Value.Settled (known : ArrayId → ArrayId → Prop) (a b : Value) : Prop :=
  match a.comparison b with
  | .settled equal => equal = true
  | .arrays x y => x = y ∨ known x y

namespace Store

theorem agrees_of_scalarsEqual {s : Store} {R : Value → Value → Prop} {a b : Value}
    (same : a.scalarsEqual? b = some true) : s.Agrees R a b := by
  revert same
  fun_cases Value.scalarsEqual? a b with
  | case1 x y => exact fun same => eq_of_beq (Option.some.inj same) ▸ .int x
  | case2 x y => exact fun same => eq_of_beq (Option.some.inj same) ▸ .uint x
  | case3 x y => exact fun same => .float (Option.some.inj same)
  | case4 x y => exact fun same => eq_of_beq (Option.some.inj same) ▸ .str x
  | case5 x y => exact fun same => eq_of_beq (Option.some.inj same) ▸ .bool x
  | case6 => exact fun same => nomatch same

theorem isEquality_settled {s : Store} {known : ArrayId → ArrayId → Prop}
    (closed : ∀ x y, known x y →
      List.Forall₂ (Value.Settled known) (s.members x).toList (s.members y).toList) :
    s.IsEquality (Value.Settled known) := by
  intro a b settled
  cases scalars : a.scalarsEqual? b with
  | some equal =>
    rw [Value.Settled, Value.comparison_of_scalarsEqual? scalars] at settled
    exact agrees_of_scalarsEqual (scalars.trans (congrArg some settled))
  | none =>
    have seen := settled
    rw [Value.Settled, Value.comparison_of_not_scalars scalars] at seen
    revert seen settled
    fun_cases Value.structuralComparison a b with
    | case1 => exact fun _ _ => .nil
    | case2 x y =>
      rintro - (rfl | pair)
      · exact .sameArray x
      · exact .arrays (closed x y pair)
    | case3 c d => exact fun _ same => .closure (by simpa using same)
    | case4 x y | case5 x y => exact fun settled _ => .returned settled
    | case6 a b => exact fun _ same => nomatch same

/-- What the walk finds out when it does not stop: all pairs are settled by pairs of arrays whose
    members are settled in turn, if they were not visited before. -/
theorem settled_of_allEqual {s : Store} {visited : Std.HashSet (ArrayId × ArrayId)}
    {pairs : List (Value × Value)} (equal : s.allEqual visited pairs = true) :
    ∃ known : ArrayId → ArrayId → Prop,
      (∀ x y, (x, y) ∈ visited → known x y) ∧
      (∀ pair ∈ pairs, Value.Settled known pair.1 pair.2) ∧
      ∀ x y, known x y → (x, y) ∉ visited →
        List.Forall₂ (Value.Settled known) (s.members x).toList (s.members y).toList := by
  induction visited, pairs using allEqual.induct s with
  | case1 visited =>
    exact ⟨fun x y => (x, y) ∈ visited, fun _ _ h => h, by simp, fun x y h fresh => absurd h fresh⟩
  | case2 visited a b rest settled found ih =>
    rw [allEqual, found] at equal
    obtain ⟨known, old, here, closed⟩ := ih (Bool.and_eq_true_iff.mp equal).2
    refine ⟨known, old, ?_, closed⟩
    rw [List.forall_mem_cons]
    refine ⟨?_, here⟩
    simp only [Value.Settled, found]
    exact (Bool.and_eq_true_iff.mp equal).1
  | case3 visited a b rest x y found met ih =>
    rw [allEqual, found] at equal
    simp only [met, if_true] at equal
    obtain ⟨known, old, here, closed⟩ := ih equal
    refine ⟨known, old, ?_, closed⟩
    rw [List.forall_mem_cons]
    refine ⟨?_, here⟩
    simp only [Value.Settled, found]
    exact met.imp id (old x y)
  | case4 visited a b rest x y found fresh xs ys ih =>
    rw [allEqual, found] at equal
    simp only [fresh, if_false, Bool.and_eq_true, decide_eq_true_eq] at equal
    obtain ⟨known, old, here, closed⟩ := ih equal.2
    have sameLength : (s.members x).toList.length = (s.members y).toList.length := by
      simpa using equal.1
    have members : List.Forall₂ (Value.Settled known) (s.members x).toList (s.members y).toList :=
      List.forall₂_iff_zip.mpr ⟨sameLength, fun pair =>
        here _ (List.mem_append_left _ pair)⟩
    have pair : known x y := old x y (by simp)
    refine ⟨known, fun x' y' h => old x' y' (by simp [h]), ?_, ?_⟩
    · rw [List.forall_mem_cons]
      refine ⟨?_, fun pair h => here pair (List.mem_append_right _ h)⟩
      simp only [Value.Settled, found]
      exact .inr pair
    · intro x' y' pair' unvisited
      by_cases same : (x, y) = (x', y')
      · cases same
        exact members
      · exact closed x' y' pair' (by simp [same, unvisited])

theorem IsEquality.comparison {s : Store} {R : Value → Value → Prop} (equality : s.IsEquality R)
    (a b : Value) (related : R a b) :
    a.comparison b = .settled true ∨ ∃ x y, a.comparison b = .arrays x y ∧
      (x = y ∨ List.Forall₂ R (s.members x).toList (s.members y).toList) := by
  induction a generalizing b with
  | returned a ih =>
    cases equality _ _ related with
    | returned inner => exact ih _ inner
  | _ =>
    cases equality _ _ related <;>
      simp_all [Value.comparison, Value.scalarsEqual?, Value.structuralComparison]

theorem IsEquality.allEqual {s : Store} {R : Value → Value → Prop} (equality : s.IsEquality R)
    {visited : Std.HashSet (ArrayId × ArrayId)} {pairs : List (Value × Value)}
    (related : ∀ pair ∈ pairs, R pair.1 pair.2) : s.allEqual visited pairs = true := by
  induction visited, pairs using allEqual.induct s with
  | case1 visited => rw [Store.allEqual]
  | case2 visited a b rest settled found ih =>
    rw [List.forall_mem_cons] at related
    have same : settled = true := by
      rcases equality.comparison a b related.1 with here | ⟨x, y, here, _⟩
      · rw [found] at here
        exact Comparison.settled.inj here
      · rw [found] at here
        cases here
    rw [Store.allEqual, found]
    simp only [same, Bool.true_and]
    exact ih related.2
  | case3 visited a b rest x y found met ih =>
    rw [List.forall_mem_cons] at related
    rw [Store.allEqual, found]
    simp only [met, if_true]
    exact ih related.2
  | case4 visited a b rest x y found fresh xs ys ih =>
    rw [List.forall_mem_cons] at related
    have members : List.Forall₂ R (s.members x).toList (s.members y).toList := by
      rcases equality.comparison a b related.1 with here | ⟨x', y', here, agree⟩
      · rw [found] at here
        cases here
      · rw [found] at here
        cases here
        exact agree.resolve_left fun same => fresh (.inl same)
    have sameSize : (s.members x).size = (s.members y).size := by simpa using members.length_eq
    rw [Store.allEqual, found]
    simp only [fresh, if_false, sameSize, decide_true, Bool.true_and]
    refine ih fun pair h => ?_
    rcases List.mem_append.mp h with member | later
    · exact (List.forall₂_iff_zip.mp members).2 member
    · exact related.2 pair later

theorem IsEquality.valuesEqual {s : Store} {R : Value → Value → Prop} (equality : s.IsEquality R)
    {a b : Value} (related : R a b) : s.valuesEqual a b = true :=
  equality.allEqual (by simpa using related)

theorem isEquality_valuesEqual (s : Store) :
    s.IsEquality fun a b => s.valuesEqual a b = true := by
  intro a b equal
  obtain ⟨known, _, here, closed⟩ := settled_of_allEqual equal
  have equality : s.IsEquality (Value.Settled known) :=
    isEquality_settled fun x y pair => closed x y pair (by simp)
  have agrees := equality a b (here (a, b) (by simp))
  exact agrees.mono fun _ _ related => equality.valuesEqual related

/-- Two values are equal exactly if some equality relates them. -/
theorem valuesEqual_iff_related (s : Store) (a b : Value) :
    s.valuesEqual a b = true ↔ ∃ R, s.IsEquality R ∧ R a b := by
  constructor
  · intro equal
    exact ⟨_, isEquality_valuesEqual s, equal⟩
  · rintro ⟨R, equality, related⟩
    exact equality.valuesEqual related

end Store

end MonkeyLang
