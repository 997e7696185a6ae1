import MonkeyLang.Eval.ArrayMethod
import MonkeyLang.Eval.Builtin
import MonkeyLang.Proofs.Eval.Operators
import MonkeyLang.Proofs.Store.Places

namespace MonkeyLang

section Equality

namespace Value

variable (a b : Value)

theorem comparison_unplaced : a.unplaced.comparison b.unplaced = a.comparison b := by
  induction a generalizing b with
  | returned a ih =>
    cases b with
    | returned b => exact ih b
    | _ => rfl
  | _ => cases b <;> rfl

end Value

def unplacedPair (pair : Value × Value) : Value × Value := (pair.1.unplaced, pair.2.unplaced)

namespace Store

variable (s : Store)

theorem allEqual_unplaced (visited : Std.HashSet (ArrayId × ArrayId))
    (pairs : List (Value × Value)) :
    s.unplaced.allEqual visited (pairs.map unplacedPair) = s.allEqual visited pairs := by
  fun_induction Store.allEqual s visited pairs with
  | case1 visited => rw [List.map_nil, allEqual]
  | case2 visited a b rest equal settled ih =>
    simp only [List.map_cons, unplacedPair, allEqual, Value.comparison_unplaced, settled]
    exact congrArg (equal && ·) ih
  | case3 visited a b rest x y arrays met ih =>
    simp only [List.map_cons, unplacedPair, allEqual, Value.comparison_unplaced, arrays, met,
      if_true]
    exact ih
  | case4 visited a b rest x y arrays fresh xs ys ih =>
    have members : (s.unplaced.members x).toList.zip (s.unplaced.members y).toList ++
        rest.map unplacedPair = (xs.toList.zip ys.toList ++ rest).map unplacedPair := by
      simp only [members_toList_unplaced, List.map_append, List.zip_map]
      rfl
    have sizes : (s.unplaced.members x).size = (s.unplaced.members y).size ↔
        xs.size = ys.size := by
      simp only [members_unplaced, Array.size_map]
      rfl
    simp only [List.map_cons, unplacedPair, allEqual, Value.comparison_unplaced, arrays, fresh,
      if_false]
    rw [← ih, ← members]
    simp only [sizes]

@[simp] theorem valuesEqual_unplaced (a b : Value) :
    s.unplaced.valuesEqual a.unplaced b.unplaced = s.valuesEqual a b :=
  s.allEqual_unplaced ∅ [(a, b)]

end Store

end Equality

section Text

namespace Store

variable (s : Store)

theorem unfoldAll_unplaced (path : List ArrayId) (values : List Value) :
    s.unplaced.unfoldAll path (values.map Value.unplaced) = s.unfoldAll path values := by
  induction path, values using unfoldAll.induct s fun path value =>
    s.unplaced.unfoldIn path value.unplaced = s.unfoldIn path value with
  | case1 | case2 | case3 | case4 | case5 | case6 | case7 =>
    simp only [Value.unplaced, unfoldIn, Closure.unplaced]
  | case8 path inner ih => simp only [Value.unplaced, unfoldIn, ih]
  | case9 path id met => simp only [Value.unplaced, unfoldIn, met, if_true]
  | case10 path id fresh ih =>
    simp only [Value.unplaced, unfoldIn, fresh, if_false, members_toList_unplaced, ih]
  | case11 path => simp only [List.map_nil, unfoldAll]
  | case12 path value rest here later => simp only [List.map_cons, unfoldAll, here, later]

theorem unfold_unplaced (value : Value) : s.unplaced.unfold value.unplaced = s.unfold value := by
  have trees := s.unfoldAll_unplaced [] [value]
  simp only [List.map_cons, List.map_nil, unfoldAll, List.cons.injEq, and_true] at trees
  exact trees

@[simp] theorem text_unplaced (value : Value) : s.unplaced.text value.unplaced = s.text value := by
  rw [text, unfold_unplaced, text]

@[simp] theorem encode_unplaced (values : List Value) :
    s.unplaced.encode (values.map Value.unplaced) = s.encode values := by
  rw [encode, unfoldAll_unplaced, encode]

end Store

theorem Builtin.printAll_unplaced (s : Store) (args : List Value) :
    printAll s.unplaced (args.map Value.unplaced) = (printAll s args).unplaced := by
  unfold printAll
  induction args generalizing s with
  | nil => rfl
  | cons arg rest ih =>
    rw [List.map_cons, List.foldl_cons, List.foldl_cons, Store.text_unplaced,
      Store.print_unplaced]
    exact ih _

end Text

section Reading

namespace Json

theorem wholeValue_unplaced (n : Int) : (wholeValue n).unplaced = wholeValue n := by
  unfold wholeValue
  split <;> rfl

mutual

theorem load_unplaced (s : Store) (json : Json) :
    load s.unplaced json = (load s json).map fun read => (read.1.unplaced, read.2.unplaced) := by
  cases json with
  | null | bool | float | str | object => rfl
  | int n =>
    simp only [load, Except.map, wholeValue_unplaced]
  | list items =>
    simp only [load, loadAll_unplaced s items]
    cases loadAll s items with
    | error fault => rfl
    | ok read =>
      obtain ⟨members, t⟩ := read
      have made := t.alloc_unplaced members.toArray
      rw [List.map_toArray] at made
      simp only [Except.map, made]
      rfl

theorem loadAll_unplaced (s : Store) (items : List Json) :
    loadAll s.unplaced items =
      (loadAll s items).map fun read => (read.1.map Value.unplaced, read.2.unplaced) := by
  cases items with
  | nil => rfl
  | cons item rest =>
    simp only [loadAll, load_unplaced s item]
    cases load s item with
    | error fault => rfl
    | ok read =>
      obtain ⟨value, t⟩ := read
      simp only [Except.map, loadAll_unplaced t rest]
      cases loadAll t rest with
      | error fault => rfl
      | ok others => rfl

end

end Json

theorem Store.decode_unplaced (s : Store) (text : List Char) :
    s.unplaced.decode text = (s.decode text).map fun read => (read.1, read.2.unplaced) := by
  have made (u : Store) (members : List Value) := u.alloc_unplaced members.toArray
  simp only [List.map_toArray] at made
  unfold decode
  cases Json.ofText text with
  | error e => rfl
  | ok json =>
    cases json with
    | null => exact congrArg Except.ok (made s [])
    | list items =>
      simp only [Json.loadAll_unplaced]
      cases Json.loadAll s items with
      | error fault => rfl
      | ok read => exact congrArg Except.ok (made read.2 read.1)
    | _ => rfl

end Reading

section Operators

variable (s : Store) (a b : Value)

theorem Value.order?_unplaced : a.unplaced.order? b.unplaced = a.order? b := by
  cases a <;> cases b <;> rfl

theorem Value.unplaced_of_flat {v : Value} {tree : Unfolding} (alone : v.flat? = some tree) :
    v.unplaced = v := by
  cases v with
  | closure | returned => cases alone
  | _ => rfl

theorem OperatorOutcome.unplaced {result : Except Fault Value} (outcome : OperatorOutcome result) :
    result.map Value.unplaced = result := by
  cases outcome with
  | flat alone => exact congrArg Except.ok (Value.unplaced_of_flat alone)
  | divisionByZero | wrongType => rfl

theorem StrictOp.arithmetic?_unplaced (op : StrictOp) :
    op.arithmetic? a.unplaced b.unplaced = (op.arithmetic? a b).map (·.map Value.unplaced) := by
  have scalars : op.arithmetic? a b = (op.arithmetic? a b).map (·.map Value.unplaced) := by
    cases found : op.arithmetic? a b with
    | none => rfl
    | some result => exact congrArg some (arithmetic_outcome found).unplaced.symm
  cases a with
  | closure | returned => cases op <;> rfl
  | _ =>
    cases b with
    | closure | returned => cases op <;> rfl
    | _ => exact scalars

theorem StrictOp.apply_unplaced (op : StrictOp) :
    op.apply s.unplaced a.unplaced b.unplaced = (op.apply s a b).map Value.unplaced := by
  cases op with
  | eq | ne => simp only [apply, Store.valuesEqual_unplaced, Except.map, Value.unplaced]
  | lt | gt | le | ge =>
    simp only [apply, Value.order?_unplaced, Value.typeName_unplaced]
    cases a.order? b <;> rfl
  | add | sub | mul | div | mod =>
    simp only [apply, arithmetic?_unplaced, Value.typeName_unplaced]
    split
    · rename_i result found
      obtain ⟨old, same, rfl⟩ := Option.map_eq_some_iff.mp found
      rw [same]
    · rename_i found
      rw [Option.map_eq_none_iff.mp found]
      rfl

theorem UnOp.apply_unplaced (op : UnOp) : op.apply a.unplaced = (op.apply a).map Value.unplaced := by
  cases op with
  | neg => cases a <;> rfl
  | not =>
    simp only [apply, Value.truthy_unplaced]
    rfl

theorem Store.index_unplaced :
    s.unplaced.index a.unplaced b.unplaced = (s.index a b).map Value.unplaced := by
  cases a with
  | array id =>
    cases b with
    | int i =>
      simp only [Value.unplaced, index, Except.map, getD_unplaced]
      simp only [members_unplaced, Array.size_map]
      split <;> rfl
    | _ => rfl
  | _ => cases b <;> rfl

end Operators

namespace ArrayMethod

section Searching

variable (s : Store) (id : ArrayId) (needle : Value)

theorem position?_unplaced :
    position? s.unplaced id needle.unplaced = position? s id needle := by
  rw [position?, Store.members_unplaced, position?, Array.findIdx?_map]
  simp only [Function.comp_def, Store.valuesEqual_unplaced]

theorem occurrences_unplaced :
    occurrences s.unplaced id needle.unplaced = occurrences s id needle := by
  rw [occurrences, Store.members_unplaced, occurrences, Array.countP_map]
  simp only [Function.comp_def, Store.valuesEqual_unplaced]

theorem isMember_unplaced : isMember s.unplaced id needle.unplaced = isMember s id needle := by
  rw [isMember, Store.members_unplaced, isMember, Array.any_map]
  simp only [Function.comp_def, Store.valuesEqual_unplaced]

end Searching

theorem remove_unplaced (s : Store) (id : ArrayId) (position : Nat) :
    remove s.unplaced id position =
      ((remove s id position).1.unplaced, (remove s id position).2.unplaced) := by
  unfold remove
  rw [Store.getD_unplaced]
  refine Prod.ext rfl (s.modify_unplaced id _ _ fun values => ?_)
  simp only [Array.size_map]
  split
  · exact Array.map_pop.symm
  · simp only [Array.eraseIdxIfInBounds_eq, Array.size_map]
    split
    · refine Array.ext_getElem? fun i => ?_
      simp only [Array.getElem?_eraseIdx, Array.getElem?_map]
      split <;> rfl
    · rfl

section Arguments

variable (method : ArrayMethod)

theorem integerArg_unplaced (args : List Value) :
    method.integerArg (args.map Value.unplaced) = method.integerArg args := by
  cases args with
  | nil => rfl
  | cons arg rest => cases arg <;> rfl

theorem callbackArg_unplaced (params : Nat) (arg : Value) :
    method.callbackArg params arg.unplaced =
      (method.callbackArg params arg).map Closure.unplaced := by
  cases arg with
  | closure c =>
    by_cases same : c.arity = params
    · simp only [callbackArg, Value.unplaced, Closure.arity_unplaced, same, if_true, Except.map]
    · simp only [callbackArg, Value.unplaced, Closure.arity_unplaced, same, if_false, Except.map,
        describeCallback]
  | _ => rfl

end Arguments

end ArrayMethod

end MonkeyLang
