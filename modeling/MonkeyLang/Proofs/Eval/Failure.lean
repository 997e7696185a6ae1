import MonkeyLang.Proofs.Eval.ArrayMethod
import MonkeyLang.Proofs.Eval.Builtin
import MonkeyLang.Proofs.Eval.Loops
import MonkeyLang.Proofs.Eval.Task

namespace MonkeyLang

namespace Eval

variable {α β : Type} {s t : Store} {e : RuntimeError}

/-- The computation fails on the line only, and never because there are too many open bodies. -/
def FailsOn (line : Nat) (c : Eval α) : Prop :=
  Triple (fun _ => True) c (fun _ _ => True) fun e _ => e.line = line ∧ e.fault ≠ .stackOverflow

namespace FailsOn

variable {line : Nat} {c : Eval α}

theorem error (fails : FailsOn line c) (failed : c.runIn s = (.error e, t)) :
    e.line = line ∧ e.fault ≠ .stackOverflow :=
  Triple.error fails trivial failed

theorem pure {a : α} : FailsOn line (Pure.pure a) := Triple.pure fun _ _ => trivial

theorem fail {fault : Fault} (other : fault ≠ .stackOverflow) :
    FailsOn line (Eval.fail line fault : Eval α) :=
  Triple.fail fun _ _ => ⟨rfl, other⟩

theorem bind {f : α → Eval β} (first : FailsOn line c) (next : ∀ a, FailsOn line (f a)) :
    FailsOn line (c >>= f) :=
  Triple.bind first fun a => Triple.mono (next a) (fun _ _ h => h) fun _ _ h => h

theorem read {f : Store → α} : FailsOn line (Eval.read f) := Triple.read fun _ _ => trivial

theorem change {f : Store → Store} : FailsOn line (Eval.change f) :=
  Triple.change fun _ _ => trivial

theorem update {f : Store → α × Store} : FailsOn line (Eval.update f) :=
  Triple.update fun _ _ => trivial

theorem ofExcept {result : Except Fault α} (other : result ≠ .error .stackOverflow) :
    FailsOn line (Eval.ofExcept line result) :=
  Triple.ofExcept (fun _ _ _ _ => trivial) fun _ _ _ same =>
    ⟨rfl, fun overflow => other (overflow ▸ same)⟩

theorem newArray {values : Array Value} : FailsOn line (Eval.newArray values) :=
  .bind .update fun _ => .pure

end FailsOn

end Eval

section Lines

variable {line : Nat}

theorem OperatorOutcome.failsOn {result : Except Fault Value} (outcome : OperatorOutcome result) :
    Eval.FailsOn line (Eval.ofExcept line result) := by
  refine .ofExcept fun same => ?_
  subst same
  cases outcome

theorem Store.index_failsOn (s : Store) (a b : Value) :
    Eval.FailsOn line (Eval.ofExcept line (s.index a b)) := by
  rcases s.index_outcome a b with ⟨id, i, member⟩ | outcome
  · rw [member]
    exact .pure
  · exact outcome.failsOn

theorem Builtin.runOn_failsOn (arg : Value) (builtin : Builtin) :
    Eval.FailsOn line (builtin.runOn line arg) := by
  fun_cases runOn line arg builtin with
  | case1 | case2 | case5 => exact .pure
  | case3 => exact .bind .read fun _ => .pure
  | case4 | case7 | case9 => exact .fail (by simp)
  | case6 id =>
    refine .bind .read fun written => ?_
    cases written with
    | ok text => exact .pure
    | error fault => exact .fail (by simp)
  | case8 text =>
    refine .bind .read fun read => ?_
    cases read with
    | ok loaded => exact .bind .change fun _ => .pure
    | error fault => exact .fail (by simp)

theorem Builtin.run_failsOn (args : List Value) (builtin : Builtin) :
    Eval.FailsOn line (builtin.run line args) := by
  fun_cases run line args builtin with
  | case1 => exact .bind .change fun _ => .pure
  | case2 _ arg => exact runOn_failsOn arg builtin
  | case3 => exact .fail (by simp)

namespace ArrayMethod

theorem ArgumentFault.ne_overflow {fault : Fault} (argument : ArgumentFault fault) :
    fault ≠ .stackOverflow := by
  cases argument <;> simp

theorem run_failsOn {method : ArrayMethod} (alone : method.callsBack = false) (enter : Enter)
    (scope : FrameId) (receiver : ArrayId) (args : List Value) :
    Eval.FailsOn line (method.run enter line scope receiver args) := by
  intro s _
  have outcome := run_outcome alone enter line scope receiver args s
  generalize (method.run enter line scope receiver args).runIn s = ended at outcome ⊢
  cases outcome with
  | flat | member | made | edited => trivial
  | refused argument => exact ⟨rfl, argument.ne_overflow⟩

end ArrayMethod

end Lines

/-- The place that errors of the expression itself are told by: a method call is told by the name
    of its method. -/
def Expr.faultPlace : Expr → Span
  | .method _ _ _ nameSpan _ => nameSpan
  | e => e.span

namespace Task

def Fails (task : Task) (s : Store) (e : RuntimeError) (t : Store) : Prop :=
  task.eval.runIn s = (.error e, t)

def PartFails (task : Task) (s : Store) (e : RuntimeError) (t : Store) : Prop :=
  ∃ part u, task.Starts s part u ∧ part.Fails u e t

def Raises : Task → RuntimeError → Prop
  | expr site e, error =>
    error.line = site.lines.lineOf e.faultPlace.start ∧ error.fault ≠ .stackOverflow
  | call _ line _ _, error | method _ line _ _ _ _, error =>
    error.line = line ∧ error.fault ≠ .stackOverflow
  | invoke room c _ _, error =>
    room = 0 ∧ error = ⟨.stackOverflow, c.lines.lineOf c.body.span.start⟩
  | params c _ bound, _ => ∃ binding ∈ bound, c.arity ≤ binding.1
  | args _ _, _ | stmt _ _, _ | body _ _, _ => False

variable {s t u : Store} {e : RuntimeError} {room line : Nat} {scope : FrameId} {name : String}
  {id : ArrayId} {values : List Value} {block : Closure}

section Methods

theorem eval_filter (named : ArrayMethod.ofName? name = some .filter) (enough : values.length = 1)
    (given : ArrayMethod.filter.callbackArg 1 (values.headD .nil) = .ok block) :
    (method room line scope name id values).eval.runIn s =
      (ArrayMethod.filterCalls (fun v => (invoke room block scope [(0, v)]).eval)
        (s.members id).toList >>= fun kept => Eval.newArray kept.toArray).runIn s := by
  have accepts : ArrayMethod.filter.arity.accepts values.length = true := decide_eq_true enough
  simp only [eval, ArrayMethod.dispatch, named, accepts, if_true, ArrayMethod.run, given]
  rfl

theorem eval_map (named : ArrayMethod.ofName? name = some .map) (enough : values.length = 1)
    (given : ArrayMethod.map.callbackArg 1 (values.headD .nil) = .ok block) :
    (method room line scope name id values).eval.runIn s =
      (ArrayMethod.mapCalls (fun v => (invoke room block scope [(0, v)]).eval)
        (s.members id).toList >>= fun results => Eval.newArray results.toArray).runIn s := by
  have accepts : ArrayMethod.map.arity.accepts values.length = true := decide_eq_true enough
  simp only [eval, ArrayMethod.dispatch, named, accepts, if_true, ArrayMethod.run, given]
  rfl

theorem eval_reduce (named : ArrayMethod.ofName? name = some .reduce)
    (enough : values.length = 1 ∨ values.length = 2)
    (given : ArrayMethod.reduce.callbackArg 2 (values.headD .nil) = .ok block) :
    (method room line scope name id values).eval.runIn s =
      (match folded? values (s.members id).toList with
        | some (seed, visited) => ArrayMethod.foldCalls
          (fun acc v => (invoke room block scope [(0, acc), (1, v)]).eval) seed visited
        | none => pure .nil : Eval Value).runIn s := by
  have accepts : ArrayMethod.reduce.arity.accepts values.length = true := by
    simpa [ArrayMethod.arity, Arity.accepts] using enough
  simp only [eval, ArrayMethod.dispatch, named, accepts, if_true, ArrayMethod.run, given]
  rw [Eval.runIn_bind, Eval.runIn_read]
  simp only [Eval.ofExcept, pure_bind]
  unfold folded?
  generalize values.drop 1 = others
  generalize (s.members id).toList = members
  cases others with
  | cons first _ => rfl
  | nil => cases members <;> rfl

theorem Fails.filter (failed : (method room line scope name id values).Fails s e t)
    (named : ArrayMethod.ofName? name = some .filter) (enough : values.length = 1)
    (given : ArrayMethod.filter.callbackArg 1 (values.headD .nil) = .ok block) :
    (method room line scope name id values).PartFails s e t := by
  rw [Fails, eval_filter named enough given] at failed
  rcases Eval.runIn_bind_failed failed with ran | ⟨kept, w, _, later⟩
  · obtain ⟨before, member, after, done, u, split, ran, here⟩ :=
      (ArrayMethod.loops_filterCalls _).failed ran
    exact ⟨_, u, .filtered named enough given split ran, here⟩
  · cases later

theorem Fails.map (failed : (method room line scope name id values).Fails s e t)
    (named : ArrayMethod.ofName? name = some .map) (enough : values.length = 1)
    (given : ArrayMethod.map.callbackArg 1 (values.headD .nil) = .ok block) :
    (method room line scope name id values).PartFails s e t := by
  rw [Fails, eval_map named enough given] at failed
  rcases Eval.runIn_bind_failed failed with ran | ⟨results, w, _, later⟩
  · obtain ⟨before, member, after, done, u, split, ran, here⟩ :=
      (ArrayMethod.loops_mapCalls _).failed ran
    exact ⟨_, u, .mapped named enough given split ran, here⟩
  · cases later

theorem Fails.reduce (failed : (method room line scope name id values).Fails s e t)
    (named : ArrayMethod.ofName? name = some .reduce)
    (enough : values.length = 1 ∨ values.length = 2)
    (given : ArrayMethod.reduce.callbackArg 2 (values.headD .nil) = .ok block) :
    (method room line scope name id values).PartFails s e t := by
  rw [Fails, eval_reduce named enough given] at failed
  cases seeded : folded? values (s.members id).toList with
  | some start =>
    rw [seeded] at failed
    obtain ⟨before, member, after, acc, u, split, ran, here⟩ := ArrayMethod.foldCalls_failed failed
    exact ⟨_, u, .reduced named enough given seeded split ran, here⟩
  | none =>
    rw [seeded] at failed
    cases failed

theorem Fails.method (failed : (method room line scope name id values).Fails s e t) :
    (Task.method room line scope name id values).PartFails s e t ∨
      (Task.method room line scope name id values).Raises e := by
  have ran := failed
  rw [Fails, eval, ArrayMethod.dispatch] at ran
  cases named : ArrayMethod.ofName? name with
  | none =>
    rw [named] at ran
    cases ran
    exact .inr ⟨rfl, by simp⟩
  | some found =>
    rw [named] at ran
    dsimp only at ran
    by_cases accepts : found.arity.accepts values.length = true
    · rw [if_pos accepts] at ran
      -- All methods but those that call a function are done at once, and have errors of their own.
      by_cases alone : found.callsBack = false
      · exact .inr ((ArrayMethod.run_failsOn alone _ _ _ _).error ran)
      cases found with
      | filter =>
        cases given : ArrayMethod.filter.callbackArg 1 (values.headD .nil) with
        | error fault =>
          simp only [ArrayMethod.run, given] at ran
          cases ran
          exact .inr ⟨rfl, (ArrayMethod.callbackArg_fault given).ne_overflow⟩
        | ok block => exact .inl (failed.filter named (of_decide_eq_true accepts) given)
      | map =>
        cases given : ArrayMethod.map.callbackArg 1 (values.headD .nil) with
        | error fault =>
          simp only [ArrayMethod.run, given] at ran
          cases ran
          exact .inr ⟨rfl, (ArrayMethod.callbackArg_fault given).ne_overflow⟩
        | ok block => exact .inl (failed.map named (of_decide_eq_true accepts) given)
      | reduce =>
        have enough : values.length = 1 ∨ values.length = 2 := by
          simpa [ArrayMethod.arity, Arity.accepts] using accepts
        cases given : ArrayMethod.reduce.callbackArg 2 (values.headD .nil) with
        | error fault =>
          simp only [ArrayMethod.run, given] at ran
          cases ran
          exact .inr ⟨rfl, (ArrayMethod.callbackArg_fault given).ne_overflow⟩
        | ok block => exact .inl (failed.reduce named enough given)
      | _ => exact absurd rfl alone
    · rw [if_neg accepts] at ran
      cases ran
      exact .inr ⟨rfl, by simp⟩

end Methods

theorem Starts.fails {task part : Task} (starts : task.Starts s part u) (failed : part.Fails u e t) :
    task.Fails s e t := by
  unfold Fails at failed ⊢
  cases starts with
  | members | left | operand | receiver | target =>
    rw [eval, Expr.eval]
    exact Eval.runIn_bind_error failed
  | methodArgs before | position before =>
    rw [eval, Expr.eval]
    exact (Eval.runIn_bind_ok before).trans (Eval.runIn_bind_error failed)
  | @right _ _ _ _ op _ _ a before needed =>
    rw [eval, Expr.eval]
    refine (Eval.runIn_bind_ok before).trans ?_
    cases op with
    | strict op => exact Eval.runIn_bind_error failed
    | logic op =>
      cases op with
      | and =>
        have holds : a.truthy = true := needed
        dsimp only
        rw [if_pos holds]
        exact failed
      | or =>
        have fails : a.truthy = false := by simpa [needsRight] using needed
        dsimp only
        rw [fails]
        exact failed
  | @test _ _ _ _ _ alternative =>
    cases alternative <;> rw [eval, Expr.eval] <;> exact Eval.runIn_bind_error failed
  | @consequence _ _ _ _ _ _ alternative _ before holds =>
    cases alternative <;> rw [eval, Expr.eval] <;> refine (Eval.runIn_bind_ok before).trans ?_ <;>
      rw [holds] <;> exact failed
  | alternative before fails =>
    rw [eval, Expr.eval]
    refine (Eval.runIn_bind_ok before).trans ?_
    rw [fails]
    exact failed
  | block =>
    rw [eval, Expr.eval]
    exact failed
  | builtinArgs found =>
    rw [eval, Expr.eval, Eval.runIn_bind, Eval.runIn_read]
    simp only [found]
    exact Eval.runIn_bind_error failed
  | callee other =>
    rw [eval, Expr.eval, Eval.runIn_bind, Eval.runIn_read]
    simp only [other]
    exact Eval.runIn_bind_error failed
  | callArgs other before =>
    rw [eval, Expr.eval, Eval.runIn_bind, Eval.runIn_read]
    simp only [other]
    exact (Eval.runIn_bind_ok before).trans (Eval.runIn_bind_error failed)
  | call other before given =>
    rw [eval, Expr.eval, Eval.runIn_bind, Eval.runIn_read]
    simp only [other]
    exact (Eval.runIn_bind_ok before).trans ((Eval.runIn_bind_ok given).trans failed)
  | method before given =>
    rw [eval, Expr.eval]
    exact (Eval.runIn_bind_ok before).trans ((Eval.runIn_bind_ok given).trans failed)
  | firstArg =>
    rw [eval, evalArgs]
    exact Eval.runIn_bind_error failed
  | laterArgs before =>
    rw [eval, evalArgs]
    exact (Eval.runIn_bind_ok before).trans (Eval.runIn_bind_error failed)
  | bound | returned =>
    rw [eval, Stmt.eval]
    exact Eval.runIn_bind_error failed
  | alone =>
    rw [eval, Stmt.eval]
    exact failed
  | @firstStmt _ _ first rest =>
    cases rest with
    | nil =>
      rw [eval, evalBody]
      exact failed
    | cons next rest =>
      rw [eval, evalBody]
      · exact Eval.runIn_bind_error failed
      · exact List.cons_ne_nil _ _
  | laterStmts before goesOn =>
    rw [eval, evalBody]
    · refine (Eval.runIn_bind_ok before).trans ?_
      rw [goesOn]
      exact failed
    · exact List.cons_ne_nil _ _
  | invoked enough =>
    rw [eval, Closure.call, if_pos enough]
    exact failed
  | params => exact (Eval.runIn_bind_ok rfl).trans (Eval.runIn_bind_error failed)
  | laterParams declared =>
    rw [eval, Closure.bindParams, declared]
    exact failed
  | entered before =>
    exact (Eval.runIn_bind_ok before).trans (Eval.runIn_bind_error failed)
  | filtered named enough given split ran =>
    rw [eval_filter named enough given, split]
    exact Eval.runIn_bind_error ((ArrayMethod.loops_filterCalls _).fails ran failed)
  | mapped named enough given split ran =>
    rw [eval_map named enough given, split]
    exact Eval.runIn_bind_error ((ArrayMethod.loops_mapCalls _).fails ran failed)
  | reduced named enough given seeded split ran =>
    rw [eval_reduce named enough given, seeded, split]
    exact ArrayMethod.foldCalls_fails ran failed

section Causes

variable {site : Site}

theorem Fails.binary {span : Span} {op : BinOp} {left right : Expr}
    (failed : (expr site (.binary span op left right)).Fails s e t) :
    (expr site (.binary span op left right)).PartFails s e t ∨
      (expr site (.binary span op left right)).Raises e := by
  rw [Fails, eval, Expr.eval] at failed
  rcases Eval.runIn_bind_failed failed with first | ⟨a, u, before, later⟩
  · exact .inl ⟨_, s, .left, first⟩
  have rightPart (needed : needsRight a op = true) (fails : (Task.expr site right).Fails u e t) :
      (Task.expr site (.binary span op left right)).PartFails s e t :=
    ⟨_, u, .right before needed, fails⟩
  cases op with
  | logic op =>
    cases op with
    | and =>
      by_cases holds : a.truthy = true
      · simp only [holds, if_true] at later
        exact .inl (rightPart holds later)
      · simp only [holds, Bool.false_eq_true, if_false] at later
        cases later
    | or =>
      by_cases holds : a.truthy = true
      · simp only [holds, if_true] at later
        cases later
      · simp only [holds, Bool.false_eq_true, if_false] at later
        exact .inl (rightPart (by simpa [needsRight] using holds) later)
  | strict op =>
    rcases Eval.runIn_bind_failed later with second | ⟨b, w, _, applied⟩
    · exact .inl (rightPart rfl second)
    · rw [Eval.runIn_bind, Eval.runIn_read] at applied
      exact .inr ((op.apply_outcome w a b).failsOn.error applied)

theorem Fails.expr {ex : Expr} (failed : (expr site ex).Fails s e t) :
    (expr site ex).PartFails s e t ∨ (expr site ex).Raises e := by
  rw [Fails, eval] at failed
  cases ex with
  | int | uint | float | str | bool | nil => cases failed
  | var span name =>
    rw [Expr.eval, Eval.runIn_bind, Eval.runIn_read] at failed
    cases found : s.get? site.frame name with
    | some v =>
      rw [found] at failed
      cases failed
    | none =>
      rw [found] at failed
      cases failed
      exact .inr ⟨rfl, by simp⟩
  | array span members =>
    rw [Expr.eval] at failed
    rcases Eval.runIn_bind_failed failed with first | ⟨values, u, _, later⟩
    · exact .inl ⟨_, s, .members, first⟩
    · cases later
  | binary span op left right => exact Fails.binary failed
  | unary span op operand =>
    rw [Expr.eval] at failed
    rcases Eval.runIn_bind_failed failed with first | ⟨a, u, _, applied⟩
    · exact .inl ⟨_, s, .operand, first⟩
    · exact .inr ((op.apply_outcome a).failsOn.error applied)
  | cond span test consequence alternative =>
    cases alternative with
    | none =>
      rw [Expr.eval] at failed
      rcases Eval.runIn_bind_failed failed with first | ⟨a, u, before, later⟩
      · exact .inl ⟨_, s, .test, first⟩
      by_cases holds : a.truthy = true
      · rw [if_pos holds] at later
        exact .inl ⟨_, u, .consequence before holds, later⟩
      · rw [if_neg holds] at later
        cases later
    | some other =>
      rw [Expr.eval] at failed
      rcases Eval.runIn_bind_failed failed with first | ⟨a, u, before, later⟩
      · exact .inl ⟨_, s, .test, first⟩
      by_cases holds : a.truthy = true
      · rw [if_pos holds] at later
        exact .inl ⟨_, u, .consequence before holds, later⟩
      · rw [if_neg holds] at later
        exact .inl ⟨_, u, .alternative before (eq_false_of_ne_true holds), later⟩
  | block span body =>
    rw [Expr.eval] at failed
    exact .inl ⟨_, s, .block, failed⟩
  | function span params body => cases failed
  | call span callee args =>
    rw [Expr.eval, Eval.runIn_bind, Eval.runIn_read] at failed
    cases found : s.builtin? site.frame callee with
    | some builtin =>
      simp only [found] at failed
      rcases Eval.runIn_bind_failed failed with first | ⟨values, u, _, later⟩
      · exact .inl ⟨_, s, .builtinArgs found, first⟩
      · exact .inr ((builtin.run_failsOn values).error later)
    | none =>
      simp only [found] at failed
      rcases Eval.runIn_bind_failed failed with first | ⟨f, u, before, later⟩
      · exact .inl ⟨_, s, .callee found, first⟩
      rcases Eval.runIn_bind_failed later with second | ⟨values, w, given, called⟩
      · exact .inl ⟨_, u, .callArgs found before, second⟩
      cases f with
      | closure c => exact .inl ⟨_, w, .call found before given, called⟩
      | _ =>
        cases called
        exact .inr ⟨rfl, by simp⟩
  | method span receiver name nameSpan args =>
    rw [Expr.eval] at failed
    rcases Eval.runIn_bind_failed failed with first | ⟨target, u, before, later⟩
    · exact .inl ⟨_, s, .receiver, first⟩
    rcases Eval.runIn_bind_failed later with second | ⟨values, w, given, called⟩
    · exact .inl ⟨_, u, .methodArgs before, second⟩
    cases target with
    | array id => exact .inl ⟨_, w, .method before given, called⟩
    | _ =>
      cases called
      exact .inr ⟨rfl, by simp⟩
  | index span target position =>
    rw [Expr.eval] at failed
    rcases Eval.runIn_bind_failed failed with first | ⟨a, u, before, later⟩
    · exact .inl ⟨_, s, .target, first⟩
    rcases Eval.runIn_bind_failed later with second | ⟨b, w, _, applied⟩
    · exact .inl ⟨_, u, .position before, second⟩
    · rw [Eval.runIn_bind, Eval.runIn_read] at applied
      exact .inr ((w.index_failsOn a b).error applied)

theorem Fails.args {es : List Expr} (failed : (args site es).Fails s e t) :
    (args site es).PartFails s e t := by
  rw [Fails, eval] at failed
  cases es with
  | nil => cases failed
  | cons first rest =>
    rw [evalArgs] at failed
    rcases Eval.runIn_bind_failed failed with here | ⟨v, u, before, later⟩
    · exact ⟨_, s, .firstArg, here⟩
    rcases Eval.runIn_bind_failed later with others | ⟨values, w, _, done⟩
    · exact ⟨_, u, .laterArgs before, others⟩
    · cases done

theorem Fails.stmt {item : Stmt} (failed : (stmt site item).Fails s e t) :
    (stmt site item).PartFails s e t := by
  rw [Fails, eval] at failed
  cases item with
  | bind span name value =>
    rw [Stmt.eval] at failed
    rcases Eval.runIn_bind_failed failed with here | ⟨v, u, _, later⟩
    · exact ⟨_, s, .bound, here⟩
    · by_cases returned : v.isReturned = true
      · rw [if_pos returned] at later
        cases later
      · rw [if_neg returned] at later
        cases later
  | result span value =>
    cases value with
    | none => cases failed
    | some value =>
      rw [Stmt.eval] at failed
      rcases Eval.runIn_bind_failed failed with here | ⟨v, u, _, later⟩
      · exact ⟨_, s, .returned, here⟩
      · cases later
  | expr span value =>
    rw [Stmt.eval] at failed
    exact ⟨_, s, .alone, failed⟩

theorem Fails.body {items : List Stmt} (failed : (body site items).Fails s e t) :
    (body site items).PartFails s e t := by
  rw [Fails, eval] at failed
  match items with
  | [] => cases failed
  | [last] =>
    rw [evalBody] at failed
    exact ⟨_, s, .firstStmt, failed⟩
  | first :: next :: rest =>
    rw [evalBody] at failed
    · rcases Eval.runIn_bind_failed failed with here | ⟨v, u, before, later⟩
      · exact ⟨_, s, .firstStmt, here⟩
      by_cases returned : v.isReturned = true
      · rw [if_pos returned] at later
        cases later
      · rw [if_neg returned] at later
        exact ⟨_, u, .laterStmts before (eq_false_of_ne_true returned), later⟩
    · exact List.cons_ne_nil _ _

theorem Fails.call {c : Closure} (failed : (call room line c values).Fails s e t) :
    (call room line c values).PartFails s e t ∨ (call room line c values).Raises e := by
  rw [Fails, eval, Closure.call] at failed
  by_cases enough : values.length = c.arity
  · rw [if_pos enough] at failed
    exact .inl ⟨_, s, .invoked enough, failed⟩
  · rw [if_neg enough] at failed
    cases failed
    exact .inr ⟨rfl, by simp⟩

theorem Fails.params {c : Closure} {frame : FrameId} {bound : List (Nat × Value)}
    (failed : (params c frame bound).Fails s e t) :
    (params c frame bound).PartFails s e t ∨ (params c frame bound).Raises e := by
  rw [Fails, eval] at failed
  cases bound with
  | nil => cases failed
  | cons binding rest =>
    obtain ⟨index, v⟩ := binding
    rw [Closure.bindParams] at failed
    cases named : c.params[index]? with
    | none =>
      exact .inr ⟨_, List.mem_cons_self, List.getElem?_eq_none_iff.mp named⟩
    | some name =>
      rw [named] at failed
      exact .inl ⟨_, _, .laterParams named, failed⟩

theorem Fails.invoke {c : Closure} {bound : List (Nat × Value)}
    (failed : (invoke room c scope bound).Fails s e t) :
    (invoke room c scope bound).PartFails s e t ∨ (invoke room c scope bound).Raises e := by
  rw [Fails, eval, Closure.invoke, Eval.runIn_bind, Eval.runIn_update] at failed
  rcases Eval.runIn_bind_failed failed with first | ⟨⟨⟩, u, before, later⟩
  · exact .inl ⟨_, _, .params, first⟩
  rcases Eval.runIn_bind_failed later with entered | ⟨v, w, _, done⟩
  · cases room with
    | zero =>
      cases entered
      exact .inr ⟨rfl, rfl⟩
    | succ room => exact .inl ⟨_, u, .entered before, entered⟩
  · cases done

/-- A task fails in a part, with the error of that part, or it raises the error itself. -/
theorem Fails.cause {task : Task} (failed : task.Fails s e t) :
    task.PartFails s e t ∨ task.Raises e := by
  cases task with
  | expr => exact failed.expr
  | args => exact .inl failed.args
  | stmt => exact .inl failed.stmt
  | body => exact .inl failed.body
  | call => exact failed.call
  | invoke => exact failed.invoke
  | params => exact failed.params
  | method => exact failed.method

end Causes

end Task

end MonkeyLang
