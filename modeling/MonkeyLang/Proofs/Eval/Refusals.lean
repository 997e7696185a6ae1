import MonkeyLang.Proofs.Eval.Callbacks
import MonkeyLang.Proofs.Eval.ArrayCalls
import MonkeyLang.Proofs.Eval.Machine

namespace MonkeyLang

def Expectation.holds : Expectation → Value → Bool
  | integer, .int _ | string, .str _ | array, .array _ | stringOrArray, .str _
  | stringOrArray, .array _ => true
  | callback params, .closure c => c.arity = params
  | _, _ => false

def Expectation.found : Expectation → Value → String
  | callback _, .closure c => s!"function of {c.arity} parameter(s)"
  | _, value => value.typeName

namespace ArrayMethod

section Checks

variable (method : ArrayMethod) (args : List Value)

def expected? : ArrayMethod → Option Expectation
  | pop | shift => some .integer
  | merge => some .array
  | filter | map => some (.callback 1)
  | reduce => some (.callback 2)
  | _ => none

def countFault? : Option Fault :=
  if method.arity.accepts args.length then none
  else some (.argumentCount method.arity args.length)

def kindFault? : Option Fault := do
  let expected ← method.expected?
  let arg ← args.head?
  if expected.holds arg then none else some (.argumentKind method.name expected (expected.found arg))

/-- What is wrong with the index of a member to be removed. That of `pop` is counted from the end
    if it is negative, and without one there has to be a member. -/
def indexFault? (size : Nat) : Option Fault :=
  match method, args.head? with
  | pop, none => if size = 0 then some (.indexOutOfRange (-1)) else none
  | pop, some (.int i) => outside (fromEnd i.toInt size)
  | shift, some (.int i) => outside i.toInt
  | _, _ => none
where
  outside (i : Int) : Option Fault :=
    if 0 ≤ i ∧ i < size then none else some (.indexOutOfRange i)

end Checks

/-- The first thing that is wrong with a call. -/
def refusal? (s : Store) (name : String) (receiver : ArrayId) (args : List Value) : Option Fault :=
  match ofName? name with
  | none => some (.noMethod name "array")
  | some method =>
    (method.countFault? args).or
      ((method.kindFault? args).or (method.indexFault? args (s.members receiver).size))

end ArrayMethod

namespace Eval

/-- The computation is refused on the line and leaves the store as it is, or it ends in a value if
    nothing is wrong. -/
def Settles (c : Eval Value) (s : Store) (line : Nat) : Option Fault → Prop
  | some fault => c.runIn s = (.error ⟨fault, line⟩, s)
  | none => ∃ v t, c.runIn s = (.ok v, t)

namespace Settles

variable {α : Type} {s : Store} {line : Nat} {refused : Option Fault}

theorem ok {c : Eval Value} {v : Value} {t : Store} (ran : c.runIn s = (.ok v, t)) :
    c.Settles s line none :=
  ⟨v, t, ran⟩

theorem read {f : Store → α} {g : α → Eval Value} (next : (g (f s)).Settles s line refused) :
    (Eval.read f >>= g).Settles s line refused :=
  next

theorem check {result : Except Fault α} {a : α} {g : α → Eval Value} {first : Option Fault}
    (same : result = first.elim (.ok a) .error)
    (next : first = none → (g a).Settles s line refused) :
    (Eval.ofExcept line result >>= g).Settles s line (first.or refused) := by
  subst same
  cases first with
  | some fault => rfl
  | none => exact next rfl

theorem lastCheck {result : Except Fault α} {a : α} {g : α → Eval Value}
    (same : result = refused.elim (.ok a) .error)
    (next : refused = none → (g a).Settles s line none) :
    (Eval.ofExcept line result >>= g).Settles s line refused := by
  have settles := check same next
  cases refused <;> exact settles

end Settles

end Eval

namespace ArrayMethod

section Arguments

variable {method : ArrayMethod} {args rest : List Value} {arg : Value} {fault : Fault}
  {expected : Expectation}

theorem kindFault?_nil (method : ArrayMethod) : method.kindFault? [] = none := by
  cases method <;> rfl

theorem kindFault?_cons (takes : method.expected? = some expected) :
    method.kindFault? (arg :: rest) =
      if expected.holds arg then none
      else some (.argumentKind method.name expected (expected.found arg)) := by
  rw [kindFault?, takes]
  rfl

def index? : List Value → Option Int
  | .int i :: _ => some i.toInt
  | _ => none

theorem integerArg_eq (takes : method.expected? = some .integer) :
    method.integerArg args = (method.kindFault? args).elim (.ok (index? args)) .error := by
  cases args with
  | nil =>
    rw [kindFault?_nil]
    rfl
  | cons arg rest =>
    rw [kindFault?_cons takes]
    cases arg <;> rfl

theorem indexFault?.ite_eq {α : Type} (size : Nat) (i : Int) (a : α) :
    (if 0 ≤ i ∧ i < size then .ok a else .error (.indexOutOfRange i)) =
      (outside size i).elim (.ok a) Except.error := by
  unfold outside
  by_cases inside : 0 ≤ i ∧ i < size
  · rw [if_pos inside, if_pos inside]
    rfl
  · rw [if_neg inside, if_neg inside]
    rfl

theorem popPosition_eq (size : Nat) (right : pop.kindFault? args = none) :
    ∃ position, popPosition size (index? args) =
      (pop.indexFault? args size).elim (.ok position) .error := by
  cases args with
  | nil =>
    refine ⟨size - 1, ?_⟩
    change (if size = 0 then _ else _) = Option.elim (if size = 0 then _ else _) _ _
    by_cases empty : size = 0
    · rw [if_pos empty, if_pos empty]
      rfl
    · rw [if_neg empty, if_neg empty]
      rfl
  | cons arg rest =>
    cases arg with
    | int i =>
      refine ⟨(fromEnd i.toInt size).toNat, ?_⟩
      exact indexFault?.ite_eq ..
    | _ => cases right

theorem shiftPosition_eq (size : Nat) (right : shift.kindFault? args = none) :
    ∃ position, shiftPosition size (index? args) =
      (shift.indexFault? args size).elim (.ok position) .error := by
  cases args with
  | nil => exact ⟨_, rfl⟩
  | cons arg rest =>
    cases arg with
    | int i => exact ⟨some i.toInt.toNat, indexFault?.ite_eq ..⟩
    | _ => cases right

theorem callbackArg_refused {params : Nat} (takes : method.expected? = some (.callback params))
    (refused : method.kindFault? args = some fault) :
    method.callbackArg params (args.headD .nil) = .error fault := by
  cases args with
  | nil =>
    rw [kindFault?_nil] at refused
    cases refused
  | cons arg rest =>
    rw [kindFault?_cons takes] at refused
    cases arg with
    | closure c =>
      by_cases right : c.arity = params
      · simp [Expectation.holds, right] at refused
      · simp only [Expectation.holds, right, decide_false, Bool.false_eq_true, if_false] at refused
        cases refused
        exact if_neg right
    | _ => cases refused; rfl

theorem closure_of_kindFault? {params : Nat} (takes : method.expected? = some (.callback params))
    (right : method.kindFault? (arg :: rest) = none) : ∃ c, arg = .closure c ∧ c.arity = params := by
  rw [kindFault?_cons takes] at right
  cases arg with
  | closure c =>
    by_cases same : c.arity = params
    · exact ⟨c, rfl, same⟩
    · simp [Expectation.holds, same] at right
  | _ => cases right

theorem exists_callback (called : method.callsBack = true)
    (accepts : method.arity.accepts args.length = true) (right : method.kindFault? args = none) :
    ∃ c others, args = .closure c :: others ∧ method.expected? = some (.callback c.arity) := by
  cases args with
  | nil =>
    cases method with
    | filter | map | reduce => cases accepts
    | _ => cases called
  | cons arg rest =>
    cases method with
    | filter | map | reduce =>
      obtain ⟨c, rfl, same⟩ := closure_of_kindFault? rfl right
      exact ⟨c, rest, rfl, by rw [same]; rfl⟩
    | _ => cases called

theorem indexFault?_of_calls (called : method.callsBack = true) (size : Nat) :
    method.indexFault? args size = none := by
  cases method with
  | filter | map | reduce => rfl
  | _ => cases called

section Refusal

variable {s : Store} {name : String} {receiver : ArrayId}

theorem refusal?_some (refused : refusal? s name receiver args = some fault) :
    ofName? name = none ∧ fault = .noMethod name "array" ∨
      ∃ method, ofName? name = some method ∧
        (method.arity.accepts args.length = false ∧
            fault = .argumentCount method.arity args.length ∨
          method.arity.accepts args.length = true ∧
            (method.kindFault? args).or (method.indexFault? args (s.members receiver).size) =
              some fault) := by
  unfold refusal? at refused
  cases named : ofName? name with
  | none =>
    rw [named] at refused
    cases refused
    exact .inl ⟨rfl, rfl⟩
  | some method =>
    rw [named] at refused
    dsimp only at refused
    refine .inr ⟨method, rfl, ?_⟩
    cases accepts : method.arity.accepts args.length with
    | false =>
      rw [countFault?, accepts] at refused
      cases refused
      exact .inl ⟨rfl, rfl⟩
    | true =>
      rw [countFault?, accepts] at refused
      exact .inr ⟨rfl, refused⟩

theorem refusal?_none (right : refusal? s name receiver args = none) :
    ∃ method, ofName? name = some method ∧ method.arity.accepts args.length = true ∧
      method.kindFault? args = none ∧
      method.indexFault? args (s.members receiver).size = none := by
  unfold refusal? at right
  cases named : ofName? name with
  | none =>
    rw [named] at right
    cases right
  | some method =>
    rw [named] at right
    dsimp only at right
    refine ⟨method, rfl, ?_⟩
    cases accepts : method.arity.accepts args.length with
    | false =>
      rw [countFault?, accepts] at right
      cases right
    | true =>
      rw [countFault?, accepts] at right
      exact ⟨rfl, Option.or_eq_none_iff.mp right⟩

end Refusal

end Arguments

section Run

variable {enter : Enter} {line : Nat} {scope : FrameId} {s : Store} {receiver : ArrayId}
  {args : List Value} {method : ArrayMethod} {fault : Fault}

theorem run_settles (uncalled : method.callsBack = false)
    (accepts : method.arity.accepts args.length = true) :
    (method.run enter line scope receiver args).Settles s line
      ((method.kindFault? args).or (method.indexFault? args (s.members receiver).size)) := by
  cases method with
  | pop =>
    refine .read (.check (integerArg_eq rfl) fun right => ?_)
    obtain ⟨position, same⟩ := popPosition_eq (s.members receiver).size right
    exact .lastCheck same fun _ => .ok rfl
  | shift =>
    refine .read (.check (integerArg_eq rfl) fun right => ?_)
    obtain ⟨position, same⟩ := shiftPosition_eq (s.members receiver).size right
    refine .lastCheck same fun _ => ?_
    cases position <;> exact .ok rfl
  | merge =>
    refine .read ?_
    cases args with
    | nil => cases accepts
    | cons arg rest => cases arg <;> first | exact .ok rfl | rfl
  | tail =>
    refine .read ?_
    dsimp only
    split <;> exact .ok rfl
  | index =>
    refine .read (.read ?_)
    split <;> exact .ok rfl
  | filter | map | reduce => cases uncalled
  | _ => exact .ok rfl

theorem run_refused (called : method.callsBack = true)
    (refused : method.kindFault? args = some fault) :
    (method.run enter line scope receiver args).runIn s = (.error ⟨fault, line⟩, s) := by
  cases method with
  | filter | map | reduce =>
    have given := callbackArg_refused rfl refused
    simp only [run, given]
    rfl
  | _ => cases called

theorem callsBack_of_mem {name : String} (calling : name ∈ callingNames)
    (named : ofName? name = some method) : method.callsBack = true := by
  have all : ∀ name ∈ callingNames, (ofName? name).all callsBack = true := by decide
  have called := all name calling
  rwa [named] at called

/-- The first argument is called for one of the members after the other, each time in the store that
    the call before left, and the last call fails; from a seed on, or from the first member on, it is
    given the result of the call before too. -/
inductive Raised (enter : Enter) (scope : FrameId) (s : Store) :
    List Value → List Value → RuntimeError → Store → Prop
  | each {c : Closure} {members results : List Value} {e : RuntimeError} {t : Store}
      (calls : Calls (fun _ v => c.applied enter scope [v]) .nil s members results (some e) t) :
      Raised enter scope s members [.closure c] e t
  | seeded {c : Closure} {seed : Value} {members results : List Value} {e : RuntimeError} {t : Store}
      (calls : Calls (fun acc v => c.applied enter scope [acc, v]) seed s members results (some e)
        t) : Raised enter scope s members [.closure c, seed] e t
  | unseeded {c : Closure} {first : Value} {rest results : List Value} {e : RuntimeError} {t : Store}
      (calls : Calls (fun acc v => c.applied enter scope [acc, v]) first s rest results (some e) t) :
      Raised enter scope s (first :: rest) [.closure c] e t

variable {c : Closure} {e : RuntimeError} {t : Store} {members : List Value}

theorem raised_of_collect {loop : Eval (List Value)} {results values : List Value}
    {stop : Option RuntimeError} {u : Store}
    (calls : Calls (fun _ v => c.applied enter scope [v]) .nil s members results stop u)
    (ran : loop.runIn s = (Calls.ending stop values, u))
    (failed : (loop >>= fun values => Eval.newArray values.toArray).runIn s = (.error e, t)) :
    Raised enter scope s members [.closure c] e t := by
  obtain ⟨fails, gives⟩ := runIn_collect ran
  cases stop with
  | none =>
    obtain ⟨_, _, made, _⟩ := gives rfl
    cases failed.symm.trans made
  | some e' =>
    cases failed.symm.trans (fails e' rfl)
    exact .each calls

theorem calls_of_fold {seed : Value} (double : c.arity = 2)
    (failed : (foldCalls (fun acc v => c.invoke enter scope [(0, acc), (1, v)]) seed
      members).runIn s = (.error e, t)) :
    ∃ results,
      Calls (fun acc v => c.applied enter scope [acc, v]) seed s members results (some e) t := by
  obtain ⟨results, stop, u, calls, folded⟩ :=
    Calls.exists_folded enter scope s seed members double
  have same := failed.symm.trans folded
  cases stop with
  | none => cases same
  | some e' =>
    cases same
    exact ⟨results, calls⟩

end Run

section Dispatch

variable {enter : Enter} {line : Nat} {scope : FrameId} {s t : Store} {name : String}
  {receiver : ArrayId} {args : List Value} {fault : Fault}

theorem dispatch_refused (refused : refusal? s name receiver args = some fault) :
    (dispatch enter line scope name receiver args).runIn s = (.error ⟨fault, line⟩, s) := by
  obtain ⟨named, rfl⟩ | ⟨method, named, ⟨accepts, rfl⟩ | ⟨accepts, refused⟩⟩ :=
    refusal?_some refused
  · rw [dispatch, named]
    rfl
  · simp only [dispatch, named, accepts]
    rfl
  · simp only [dispatch, named, accepts, if_true]
    cases called : method.callsBack with
    | false =>
      have settles : (method.run enter line scope receiver args).Settles s line _ :=
        run_settles called accepts
      rw [refused] at settles
      exact settles
    | true =>
      rw [indexFault?_of_calls called, Option.or_none] at refused
      exact run_refused called refused

theorem dispatch_plain (right : refusal? s name receiver args = none)
    (plain : name ∉ callingNames) :
    ∃ v t, (dispatch enter line scope name receiver args).runIn s = (.ok v, t) := by
  obtain ⟨method, named, accepts, kind, index⟩ := refusal?_none right
  simp only [dispatch, named, accepts, if_true]
  have settles : (method.run enter line scope receiver args).Settles s line _ :=
    run_settles ((ofName?_eq plain).2 method named) accepts
  rw [kind, index] at settles
  exact settles

theorem raised_of_dispatch {e : RuntimeError} (right : refusal? s name receiver args = none)
    (calling : name ∈ callingNames)
    (failed : (dispatch enter line scope name receiver args).runIn s = (.error e, t)) :
    Raised enter scope s (s.members receiver).toList args e t := by
  obtain ⟨method, named, accepts, kind, -⟩ := refusal?_none right
  have called := callsBack_of_mem calling named
  obtain ⟨c, rest, rfl, takes⟩ := exists_callback called accepts kind
  cases method with
  | filter =>
    have single : c.arity = 1 := (Expectation.callback.inj (Option.some.inj takes)).symm
    obtain rfl : rest = [] := by simpa [arity, Arity.accepts] using accepts
    obtain ⟨results, stop, u, calls, -, filters⟩ :=
      Calls.exists_each enter scope s (s.members receiver).toList single
    rw [runIn_filter named single] at failed
    exact raised_of_collect calls filters failed
  | map =>
    have single : c.arity = 1 := (Expectation.callback.inj (Option.some.inj takes)).symm
    obtain rfl : rest = [] := by simpa [arity, Arity.accepts] using accepts
    obtain ⟨results, stop, u, calls, maps, -⟩ :=
      Calls.exists_each enter scope s (s.members receiver).toList single
    rw [runIn_map named single] at failed
    exact raised_of_collect calls maps failed
  | reduce =>
    have double : c.arity = 2 := (Expectation.callback.inj (Option.some.inj takes)).symm
    cases rest with
    | nil =>
      rw [runIn_reduce named double] at failed
      cases members : (s.members receiver).toList with
      | nil =>
        rw [members] at failed
        cases failed
      | cons first others =>
        rw [members] at failed
        obtain ⟨results, calls⟩ := calls_of_fold double failed
        exact .unseeded calls
    | cons seed rest =>
      obtain rfl : rest = [] := by simpa [arity, Arity.accepts] using accepts
      rw [runIn_reduce_seeded named seed double] at failed
      obtain ⟨results, calls⟩ := calls_of_fold double failed
      exact .seeded calls
  | _ => cases called

end Dispatch

end ArrayMethod

namespace Machine

section Dispatch

variable {m : Machine} {line : Nat} {scope : FrameId} {name : String} {receiver : ArrayId}
  {args : List Value} {method : ArrayMethod} {fault : Fault}

theorem finish_eq {c : Eval Value} {result : Except RuntimeError Value} {t : Store}
    (ran : c.runIn m.store = (result, t)) :
    m.finish c = { m with store := t, control := .done result } := by
  rw [finish, ran]

theorem exists_startLoop (called : method.callsBack = true) (m : Machine) (line : Nat)
    (scope : FrameId) (receiver : ArrayId) (args : List Value) :
    ∃ params gathered members, method.expected? = some (.callback params) ∧
      m.runMethod line scope receiver args method =
        m.startLoop line scope (method.callbackArg params (args.headD .nil)) gathered members := by
  cases method with
  | filter | map => exact ⟨1, _, _, rfl, rfl⟩
  | reduce =>
    rw [runMethod]
    split <;> exact ⟨2, _, _, rfl, rfl⟩
  | _ => cases called

theorem dispatch_refused
    (refused : ArrayMethod.refusal? m.store name receiver args = some fault) :
    m.dispatch line scope name receiver args =
      { m with control := .done (.error ⟨fault, line⟩) } := by
  -- The machine has loops of its own for the methods that call functions, so the run of the method
  -- says nothing of these.
  by_cases calling : name ∈ ArrayMethod.callingNames
  swap
  · rw [dispatch_plain calling noCalls]
    exact finish_eq (ArrayMethod.dispatch_refused refused)
  obtain ⟨named, rfl⟩ | ⟨method, named, ⟨accepts, rfl⟩ | ⟨accepts, refused⟩⟩ :=
    ArrayMethod.refusal?_some refused
  · rw [dispatch, named]
    rfl
  · simp only [dispatch, named, accepts]
    rfl
  · have called := ArrayMethod.callsBack_of_mem calling named
    rw [ArrayMethod.indexFault?_of_calls called, Option.or_none] at refused
    obtain ⟨params, gathered, members, takes, starts⟩ :=
      exists_startLoop called m line scope receiver args
    simp only [dispatch, named, accepts, if_true]
    rw [starts, ArrayMethod.callbackArg_refused takes refused]
    rfl

theorem exists_loop (right : ArrayMethod.refusal? m.store name receiver args = none)
    (calling : name ∈ ArrayMethod.callingNames) :
    ∃ loop, m.dispatch line scope name receiver args = m.goto (.loop loop) := by
  obtain ⟨method, named, accepts, kind, -⟩ := ArrayMethod.refusal?_none right
  have called := ArrayMethod.callsBack_of_mem calling named
  obtain ⟨params, gathered, members, takes, starts⟩ :=
    exists_startLoop called m line scope receiver args
  obtain ⟨c, rest, rfl, same⟩ := ArrayMethod.exists_callback called accepts kind
  obtain rfl : c.arity = params := by
    cases same.symm.trans takes
    rfl
  simp only [dispatch, named, accepts, if_true]
  rw [starts, List.headD_cons, ArrayMethod.callbackArg_closure method rfl]
  exact ⟨_, rfl⟩

end Dispatch

end Machine

namespace ArrayMethod

/-- The first thing that is wrong with a call, in the order of the name, the number of arguments,
    the kind of the first one and the index, is its error, on the line of the call, and the store
    and the registers are as before. If nothing is wrong, a method ends in a value, or else it calls
    a function, has done nothing before the first call, and fails only if a call fails. -/
theorem refused_before_calls (enter : Enter) (line : Nat) (scope : FrameId) (name : String)
    (receiver : ArrayId) (args : List Value) (s : Store) :
    let ran := (dispatch enter line scope name receiver args).runIn s
    match refusal? s name receiver args with
    | some fault => ran = (.error ⟨fault, line⟩, s) ∧
        ∀ m : Machine, m.store = s →
          m.dispatch line scope name receiver args =
            { m with control := .done (.error ⟨fault, line⟩) }
    | none =>
      if name ∈ callingNames then
        (∀ m : Machine, m.store = s →
          ∃ loop, m.dispatch line scope name receiver args = m.goto (.loop loop)) ∧
        ∀ e t, ran = (.error e, t) →
          Raised enter scope s (s.members receiver).toList args e t
      else ∃ v t, ran = (.ok v, t) ∧
        ∀ m : Machine, m.store = s →
          m.dispatch line scope name receiver args =
            { m with store := t, control := .done (.ok v) } := by
  intro ran
  cases refused : refusal? s name receiver args with
  | some fault =>
    refine ⟨dispatch_refused refused, ?_⟩
    rintro m rfl
    exact Machine.dispatch_refused refused
  | none =>
    dsimp only
    by_cases calling : name ∈ callingNames
    · rw [if_pos calling]
      refine ⟨?_, fun e t failed => raised_of_dispatch refused calling failed⟩
      rintro m rfl
      exact Machine.exists_loop refused calling
    · rw [if_neg calling]
      obtain ⟨v, t, ended⟩ := dispatch_plain refused calling
      refine ⟨v, t, ended, ?_⟩
      rintro m rfl
      exact (Machine.dispatch_plain calling enter).trans (Machine.finish_eq ended)

example :
    let s := (Store.initial.alloc #[]).2
    refusal? s "pop" ⟨0⟩ [.str "x"] = some (.argumentKind "pop" .integer "string") ∧
      refusal? s "pop" ⟨0⟩ [] = some (.indexOutOfRange (-1)) :=
  ⟨rfl, rfl⟩

end ArrayMethod

end MonkeyLang
