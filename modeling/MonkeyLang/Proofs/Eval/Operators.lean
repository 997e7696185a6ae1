import MonkeyLang.Eval.ArrayMethod
import MonkeyLang.Proofs.Store.Unfolding

namespace MonkeyLang

inductive OperatorOutcome : Except Fault Value → Prop
  | flat {v : Value} {tree : Unfolding} (alone : v.flat? = some tree) : OperatorOutcome (.ok v)
  | divisionByZero : OperatorOutcome (.error .divisionByZero)
  | wrongType (fault : TypeFault) : OperatorOutcome (.error (.wrongType fault))

theorem StrictOp.arithmetic_outcome {op : StrictOp} {a b : Value} {result : Except Fault Value}
    (found : op.arithmetic? a b = some result) : OperatorOutcome result := by
  revert found
  fun_cases StrictOp.arithmetic? op a b
  all_goals
    intro found
    cases found
  all_goals first
    | exact .flat rfl
    | split
      · exact .divisionByZero
      · exact .flat rfl

theorem StrictOp.apply_outcome (s : Store) (op : StrictOp) (a b : Value) :
    OperatorOutcome (op.apply s a b) := by
  cases op with
  | eq | ne => exact .flat rfl
  | lt | gt | le | ge =>
    unfold apply
    cases found : a.order? b with
    | none => exact .wrongType _
    | some order => exact .flat rfl
  | add | sub | mul | div | mod =>
    unfold apply
    dsimp only
    split
    · rename_i result found
      exact arithmetic_outcome found
    · exact .wrongType _

theorem UnOp.apply_outcome (op : UnOp) (a : Value) : OperatorOutcome (op.apply a) := by
  fun_cases UnOp.apply op a with
  | case1 | case2 | case4 => exact .flat rfl
  | case3 => exact .wrongType _

theorem Store.index_outcome (s : Store) (a b : Value) :
    (∃ id i, s.index a b = .ok ((s.members id).getD i .nil)) ∨ OperatorOutcome (s.index a b) := by
  fun_cases Store.index s a b with
  | case1 id i members position =>
    split
    · exact .inr (.flat rfl)
    · exact .inl ⟨id, _, rfl⟩
  | case2 | case3 => exact .inr (.wrongType _)

namespace ArrayMethod

inductive ArgumentFault : Fault → Prop
  | kind (callee : String) (expected : Expectation) (got : String) :
      ArgumentFault (.argumentKind callee expected got)
  | range (index : Int) : ArgumentFault (.indexOutOfRange index)

variable {method : ArrayMethod} {fault : Fault}

theorem integerArg_fault {args : List Value} (failed : method.integerArg args = .error fault) :
    ArgumentFault fault := by
  revert failed
  fun_cases integerArg method args with
  | case1 | case2 => exact fun failed => nomatch failed
  | case3 =>
    rintro ⟨⟩
    exact .kind ..

theorem callbackArg_eq_ok {params : Nat} {arg : Value} {block : Closure}
    (given : method.callbackArg params arg = .ok block) :
    arg = .closure block ∧ block.arity = params := by
  cases arg with
  | closure c =>
    simp only [callbackArg] at given
    split at given
    · rename_i same
      cases given
      exact ⟨rfl, same⟩
    · cases given
  | _ => cases given

theorem callbackArg_fault {params : Nat} {arg : Value}
    (failed : method.callbackArg params arg = .error fault) : ArgumentFault fault := by
  revert failed
  fun_cases callbackArg method params arg with
  | case1 => exact fun failed => nomatch failed
  | case2 mismatch c other | case3 mismatch other =>
    intro failed
    cases Except.error.inj failed
    exact .kind ..

theorem popPosition_fault {size : Nat} {index : Option Int}
    (failed : popPosition size index = .error fault) : ArgumentFault fault := by
  revert failed
  fun_cases popPosition size index with
  | case1 | case4 =>
    rintro ⟨⟩
    exact .range ..
  | case2 | case3 => exact fun failed => nomatch failed

theorem shiftPosition_fault {size : Nat} {index : Option Int}
    (failed : shiftPosition size index = .error fault) : ArgumentFault fault := by
  revert failed
  fun_cases shiftPosition size index with
  | case1 | case2 => exact fun failed => nomatch failed
  | case3 =>
    rintro ⟨⟩
    exact .range ..

end ArrayMethod

namespace Closure

theorem of_mem_numbered {values : List Value} {binding : Nat × Value}
    (member : binding ∈ numbered values) : binding.1 < values.length ∧ binding.2 ∈ values := by
  obtain ⟨⟨v, i⟩, found, rfl⟩ := List.mem_map.mp member
  exact ⟨List.snd_lt_of_mem_zipIdx found, List.fst_mem_of_mem_zipIdx found⟩

theorem numbered_declared {c : Closure} {values : List Value} (enough : values.length = c.arity) :
    ∀ binding ∈ numbered values, binding.1 < c.arity :=
  fun _ member => enough ▸ (of_mem_numbered member).1

end Closure

end MonkeyLang
