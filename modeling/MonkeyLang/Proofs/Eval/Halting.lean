import MonkeyLang.Proofs.Eval.Machine
import MonkeyLang.Proofs.Eval.Measure
import MonkeyLang.Proofs.Eval.Operators
import MonkeyLang.Session

namespace MonkeyLang

namespace Machine

section Reaching

theorem after_add (k n : Nat) (m : Machine) : after (k + n) m = (after k m).bind (after n) := by
  induction k generalizing m with
  | zero => rw [Nat.zero_add, after, Option.bind_some]
  | succ k ih =>
    rw [Nat.succ_add, after, after, Option.bind_assoc]
    congr 1
    exact funext ih

def Reaches (m t : Machine) : Prop := ∃ n, after n m = some t

theorem Reaches.refl (m : Machine) : Reaches m m := ⟨0, rfl⟩

theorem Reaches.trans {m t u : Machine} (first : Reaches m t) (later : Reaches t u) :
    Reaches m u := by
  obtain ⟨k, reached⟩ := first
  obtain ⟨n, reached'⟩ := later
  exact ⟨k + n, by rw [after_add, reached, Option.bind_some, reached']⟩

theorem Reaches.step {m next t : Machine} (steps : m.step = some next) (later : Reaches next t) :
    Reaches m t := by
  obtain ⟨n, reached⟩ := later
  exact ⟨n + 1, by rw [after, steps, Option.bind_some, reached]⟩

end Reaching

def Ends (lines : LineIndex) (depth : Nat) (pending : List Pending) (s : Store) (m : Machine)
    (c : Eval Value) : Prop :=
  Reaches m ⟨(c.runIn s).2, lines, depth, pending, .done (c.runIn s).1⟩

/-- From the control on, the machine gets to the end of the computation, whatever waits for it. -/
def Does (lines : LineIndex) (depth : Nat) (control : Control) (c : Eval Value) : Prop :=
  ∀ pending s, Ends lines depth pending s ⟨s, lines, depth, pending, control⟩ c

namespace Ends

variable {lines : LineIndex} {depth : Nat} {pending : List Pending} {s : Store} {m : Machine}
  {c : Eval Value} {control : Control}

theorem done {v : Value} :
    Ends lines depth pending s ⟨s, lines, depth, pending, .done (.ok v)⟩ (pure v) :=
  .refl _

theorem finish :
    Ends lines depth pending s ((Machine.mk s lines depth pending control).finish c) c :=
  .refl _

theorem step {next : Machine} (steps : m.step = some next)
    (later : Ends lines depth pending s next c) : Ends lines depth pending s m c :=
  Reaches.step steps later

theorem read {α : Type} {f : Store → α} {g : α → Eval Value}
    (later : Ends lines depth pending s m (g (f s))) :
    Ends lines depth pending s m (Eval.read f >>= g) :=
  later

theorem update {α : Type} {f : Store → α × Store} {g : α → Eval Value}
    (later : Ends lines depth pending (f s).2 m (g (f s).1)) :
    Ends lines depth pending s m (Eval.update f >>= g) :=
  later

theorem bind {first : Control} {waiting : Pending} {f : Value → Eval Value}
    (inside : ∀ m : Machine, m.unwind waiting = m) (does : Does lines depth first c)
    (next : ∀ v t control, Ends lines depth pending t
      ((Machine.mk t lines depth pending control).resume v waiting) (f v)) :
    Ends lines depth pending s ⟨s, lines, depth, waiting :: pending, first⟩ (c >>= f) := by
  refine Reaches.trans (does (waiting :: pending) s) ?_
  rcases ran : c.runIn s with ⟨result, t⟩
  cases result with
  | ok v =>
    rw [Eval.runIn_bind_ok ran]
    exact .step rfl (next v t _)
  | error e =>
    rw [Eval.runIn_bind_error ran]
    refine .step rfl ?_
    rw [inside]
    exact .refl _

end Ends

def Entering (enter : Enter) (depth : Nat) : Prop :=
  ∀ lines c frame, Does lines depth (.enter c frame) do return (← enter c frame).unwrap

variable {enter : Enter} {lines : LineIndex} {depth : Nat}

section Calls

theorem bindAll?_eq {c : Closure} {bound : List (Nat × Value)}
    (declared : ∀ binding ∈ bound, binding.1 < c.arity) (frame : FrameId) (s : Store) :
    ∃ t, bindAll? c frame bound s = some t ∧ (c.bindParams frame bound).runIn s = (.ok (), t) := by
  induction bound generalizing s with
  | nil => exact ⟨s, rfl, rfl⟩
  | cons binding rest ih =>
    obtain ⟨index, v⟩ := binding
    rw [List.forall_mem_cons] at declared
    obtain ⟨name, named⟩ : ∃ name, c.params[index]? = some name :=
      ⟨_, List.getElem?_eq_getElem declared.1⟩
    obtain ⟨t, same, ran⟩ := ih declared.2 (s.define frame name v)
    refine ⟨t, ?_, ?_⟩
    · rw [bindAll?, named]
      exact same
    · rw [Closure.bindParams, named]
      exact ran

theorem invoke_does (entering : Entering enter depth) {c : Closure} {bound : List (Nat × Value)}
    (declared : ∀ binding ∈ bound, binding.1 < c.arity) (scope : FrameId) :
    Does lines depth (.invoke c scope bound) (c.invoke enter scope bound) := by
  intro pending s
  obtain ⟨t, same, ran⟩ := bindAll?_eq declared (s.child scope).1 (s.child scope).2
  have steps : step ⟨s, lines, depth, pending, .invoke c scope bound⟩ =
      some ⟨t, lines, depth, pending, .enter c (s.child scope).1⟩ := by
    change (bindAll? c (s.child scope).1 bound (s.child scope).2).map _ = _
    rw [same]
    rfl
  refine .step steps (.update ?_)
  unfold Ends
  rw [Eval.runIn_bind_ok ran]
  exact entering lines c (s.child scope).1 pending t

theorem call_does (entering : Entering enter depth) (line : Nat) (c : Closure)
    (values : List Value) : Does lines depth (.call line c values) (c.call enter line values) := by
  intro pending s
  unfold Closure.call
  by_cases enough : values.length = c.arity
  · rw [if_pos enough]
    refine .step (if_pos enough) ?_
    exact invoke_does entering (Closure.numbered_declared enough) c.scope pending s
  · rw [if_neg enough]
    exact .step (if_neg enough) .finish

end Calls

section Methods

variable (entering : Entering enter depth) {block : Closure} {scope : FrameId}

include entering in
theorem filter_does (one : block.arity = 1) (kept members : List Value) :
    Does lines depth (.loop ⟨block, scope, .kept kept, members⟩)
      (ArrayMethod.filterCalls (fun v => block.invoke enter scope [(0, v)]) members >>= fun more =>
        Eval.newArray (kept.reverse ++ more).toArray) := by
  induction members generalizing kept with
  | nil =>
    intro pending s
    rw [ArrayMethod.filterCalls, pure_bind, List.append_nil]
    exact .step rfl .finish
  | cons member rest ih =>
    intro pending s
    simp only [ArrayMethod.filterCalls, bind_assoc, pure_bind]
    have declared : ∀ binding ∈ [(0, member)], binding.1 < block.arity := by simp [one]
    refine .step rfl (.bind (fun _ => rfl) (invoke_does entering declared scope) ?_)
    intro v t control
    have same (more : List Value) :
        kept.reverse ++ (if v.truthy then member :: more else more) =
          (if v.truthy then member :: kept else kept).reverse ++ more := by split <;> simp
    simp only [same]
    exact ih _ pending t

include entering in
theorem map_does (one : block.arity = 1) (results members : List Value) :
    Does lines depth (.loop ⟨block, scope, .results results, members⟩)
      (ArrayMethod.mapCalls (fun v => block.invoke enter scope [(0, v)]) members >>= fun more =>
        Eval.newArray (results.reverse ++ more).toArray) := by
  induction members generalizing results with
  | nil =>
    intro pending s
    rw [ArrayMethod.mapCalls, pure_bind, List.append_nil]
    exact .step rfl .finish
  | cons member rest ih =>
    intro pending s
    simp only [ArrayMethod.mapCalls, bind_assoc, pure_bind]
    have declared : ∀ binding ∈ [(0, member)], binding.1 < block.arity := by simp [one]
    refine .step rfl (.bind (fun _ => rfl) (invoke_does entering declared scope) ?_)
    intro v t control
    have same (more : List Value) :
        results.reverse ++ v :: more = (v :: results).reverse ++ more := by simp
    simp only [same]
    exact ih _ pending t

include entering in
theorem fold_does (two : block.arity = 2) (acc : Value) (members : List Value) :
    Does lines depth (.loop ⟨block, scope, .folded acc, members⟩)
      (ArrayMethod.foldCalls (fun acc v => block.invoke enter scope [(0, acc), (1, v)]) acc
        members) := by
  induction members generalizing acc with
  | nil => exact fun pending s => .step rfl .finish
  | cons member rest ih =>
    intro pending s
    rw [ArrayMethod.foldCalls]
    have declared : ∀ binding ∈ [(0, acc), (1, member)], binding.1 < block.arity := by simp [two]
    refine .step rfl (.bind (fun _ => rfl) (invoke_does entering declared scope) ?_)
    exact fun v t control => ih v pending t

theorem startLoop_ends {pending : List Pending} {s : Store} {control : Control} {line params : Nat}
    {method : ArrayMethod} {arg : Value} {gathered : Gathered} {members : List Value}
    {c : Closure → Eval Value}
    (does : ∀ block : Closure, block.arity = params →
      Does lines depth (.loop ⟨block, scope, gathered, members⟩) (c block)) :
    Ends lines depth pending s
      ((Machine.mk s lines depth pending control).startLoop line scope
        (method.callbackArg params arg) gathered members)
      (Eval.ofExcept line (method.callbackArg params arg) >>= c) := by
  cases given : method.callbackArg params arg with
  | ok block => exact does block ((ArrayMethod.callbackArg_eq_ok given).2) pending s
  | error fault => exact .finish

include entering in
theorem runMethod_ends (pending : List Pending) (s : Store) (control : Control) (line : Nat)
    (scope : FrameId) (receiver : ArrayId) (values : List Value) (method : ArrayMethod) :
    Ends lines depth pending s
      ((Machine.mk s lines depth pending control).runMethod line scope receiver values method)
      (method.run enter line scope receiver values) := by
  cases method with
  | filter => exact .read (startLoop_ends fun block one => filter_does entering one [] _)
  | map => exact .read (startLoop_ends fun block one => map_does entering one [] _)
  | reduce =>
    refine .read ?_
    unfold runMethod
    dsimp only
    cases values.drop 1 with
    | cons seed rest => exact startLoop_ends fun block two => fold_does entering two seed _
    | nil =>
      cases (s.members receiver).toList with
      | cons seed rest => exact startLoop_ends fun block two => fold_does entering two seed rest
      | nil => exact startLoop_ends fun block two => fold_does entering two .nil []
  | _ => exact .finish

include entering in
theorem dispatch_ends (pending : List Pending) (s : Store) (control : Control) (line : Nat)
    (scope : FrameId) (name : String) (receiver : ArrayId) (values : List Value) :
    Ends lines depth pending s
      ((Machine.mk s lines depth pending control).dispatch line scope name receiver values)
      (ArrayMethod.dispatch enter line scope name receiver values) := by
  unfold dispatch ArrayMethod.dispatch
  cases ArrayMethod.ofName? name with
  | none => exact .finish
  | some method =>
    dsimp only
    split
    · exact runMethod_ends entering pending s control line scope receiver values method
    · exact .finish

end Methods

section Syntax

variable {frame : FrameId}

mutual

theorem expr_does (entering : Entering enter depth) (e : Expr) :
    Does lines depth (.expr e frame) (e.eval enter lines frame) := by
  intro pending s
  cases e with
  | int _ _ | uint _ _ | float _ _ | str _ _ | bool _ _ | nil _ =>
    rw [Expr.eval]
    exact .step rfl .done
  | var span name =>
    rw [Expr.eval]
    refine .step rfl (.read ?_)
    unfold stepExpr
    dsimp only
    cases s.get? frame name with
    | some v => exact .done
    | none => exact .finish
  | array _ members =>
    rw [Expr.eval]
    exact .step rfl (args_does entering members [] (fun _ _ _ => .finish) s)
  | binary span op left right =>
    rw [Expr.eval]
    refine .step rfl (.bind (fun _ => rfl) (expr_does entering left) fun a t control => ?_)
    cases op with
    | logic op =>
      unfold resume
      cases op <;> dsimp only <;> split
      · exact expr_does entering right pending t
      · exact .done
      · exact .done
      · exact expr_does entering right pending t
    | strict op =>
      exact .bind (fun _ => rfl) (expr_does entering right) fun b u control => .read .finish
  | unary span op operand =>
    rw [Expr.eval]
    exact .step rfl (.bind (fun _ => rfl) (expr_does entering operand) fun a t control => .finish)
  | cond _ test consequence alternative =>
    cases alternative with
    | none =>
      rw [Expr.eval]
      refine .step rfl (.bind (fun _ => rfl) (expr_does entering test) fun a t control => ?_)
      unfold resume
      dsimp only
      split
      · exact expr_does entering consequence pending t
      · exact .done
    | some other =>
      rw [Expr.eval]
      refine .step rfl (.bind (fun _ => rfl) (expr_does entering test) fun a t control => ?_)
      unfold resume
      dsimp only
      split
      · exact expr_does entering consequence pending t
      · exact expr_does entering other pending t
  | block _ items =>
    rw [Expr.eval]
    exact .step rfl (body_does entering items pending s)
  | function _ params body =>
    rw [Expr.eval]
    exact .step rfl .finish
  | call span callee args =>
    rw [Expr.eval]
    refine .step rfl (.read ?_)
    unfold stepExpr
    dsimp only
    cases s.builtin? frame callee with
    | some builtin => exact args_does entering args [] (fun _ _ _ => .finish) s
    | none =>
      refine .bind (fun _ => rfl) (expr_does entering callee) fun f t control => ?_
      refine args_does entering args [] (fun values u control => ?_) t
      cases f with
      | closure c => exact call_does entering _ c values pending u
      | _ => exact .finish
  | method _ receiver name nameSpan args =>
    rw [Expr.eval]
    refine .step rfl (.bind (fun _ => rfl) (expr_does entering receiver) fun v t control => ?_)
    refine args_does entering args [] (fun values u control => ?_) t
    cases v with
    | array id => exact dispatch_ends entering pending u control _ frame name id values
    | _ => exact .finish
  | index span target position =>
    rw [Expr.eval]
    refine .step rfl (.bind (fun _ => rfl) (expr_does entering target) fun a t control => ?_)
    exact .bind (fun _ => rfl) (expr_does entering position) fun b u control => .read .finish

theorem args_does (entering : Entering enter depth) (es : List Expr) {use : Use}
    {c : List Value → Eval Value} {pending : List Pending} (values : List Value)
    (uses : ∀ more t control, Ends lines depth pending t
      ((Machine.mk t lines depth pending control).apply (values.reverse ++ more) use) (c more))
    (s : Store) :
    Ends lines depth pending s ⟨s, lines, depth, pending, .args use values es frame⟩
      (evalArgs enter lines frame es >>= c) := by
  cases es with
  | nil =>
    rw [evalArgs, pure_bind]
    have used := uses [] s (.args use values [] frame)
    rw [List.append_nil] at used
    exact .step rfl used
  | cons e rest =>
    simp only [evalArgs, bind_assoc, pure_bind]
    refine .step rfl (.bind (fun _ => rfl) (expr_does entering e) fun v t control => ?_)
    refine args_does entering rest (v.unwrap :: values) (fun more u control => ?_) t
    rw [List.reverse_cons, List.append_assoc]
    exact uses (v.unwrap :: more) u control

theorem stmt_does (entering : Entering enter depth) (item : Stmt) :
    Does lines depth (.stmt item frame) (item.eval enter lines frame) := by
  intro pending s
  cases item with
  | bind _ name e =>
    rw [Stmt.eval]
    refine .step rfl (.bind (fun _ => rfl) (expr_does entering e) fun v t control => ?_)
    unfold resume
    dsimp only
    split
    · exact .done
    · exact .refl _
  | result _ value =>
    cases value with
    | none =>
      rw [Stmt.eval]
      exact .step rfl .done
    | some e =>
      rw [Stmt.eval]
      exact .step rfl (.bind (fun _ => rfl) (expr_does entering e) fun v t control => .done)
  | expr _ e =>
    rw [Stmt.eval]
    exact .step rfl (expr_does entering e pending s)

theorem body_does (entering : Entering enter depth) (items : List Stmt) :
    Does lines depth (.body items frame) (evalBody enter lines frame items) := by
  intro pending s
  match items with
  | [] =>
    rw [evalBody]
    exact .step rfl .done
  | [last] =>
    rw [evalBody]
    exact .step rfl (stmt_does entering last pending s)
  | item :: next :: rest =>
    rw [evalBody]
    · refine .step rfl (.bind (fun _ => rfl) (stmt_does entering item) fun v t control => ?_)
      unfold resume
      dsimp only
      split
      · exact .done
      · exact body_does entering (next :: rest) pending t
    · exact fun same => nomatch same

end

end Syntax

/-- A body may have any size: at a call only the number of bodies that may be open goes down. -/
theorem enterWithin_entering (depth : Nat) : Entering (enterWithin (maxDepth - depth)) depth := by
  generalize left : maxDepth - depth = room
  induction room generalizing depth with
  | zero =>
    intro lines c frame pending s
    have full : maxDepth < depth + 1 := by omega
    exact .step (if_pos full) .finish
  | succ room ih =>
    intro lines c frame pending s
    have free : ¬maxDepth < depth + 1 := by omega
    have entering : Entering (enterWithin room) (depth + 1) := ih (depth + 1) (by omega)
    have inside : Does c.lines (depth + 1) (.expr c.body frame)
        (c.body.eval (enterWithin room) c.lines frame) := expr_does entering c.body
    refine .step (if_neg free) (.trans (inside (.leave lines :: pending) s) ?_)
    rw [enterWithin]
    rcases ran : (c.body.eval (enterWithin room) c.lines frame).runIn s with ⟨result, t⟩
    cases result with
    | ok v =>
      rw [Eval.runIn_bind_ok ran]
      exact .step rfl (.refl _)
    | error e =>
      rw [Eval.runIn_bind_error ran]
      exact .step rfl (.refl _)

theorem Does.halts {lines : LineIndex} {depth : Nat} {control : Control} {c : Eval Value}
    (does : Does lines depth control c) (pending : List Pending) (s : Store) :
    ∃ n result t, after n ⟨s, lines, depth, pending, control⟩ =
      some ⟨t, lines, depth, pending, .done result⟩ ∧ c.runIn s = (result, t) := by
  obtain ⟨n, reached⟩ := does pending s
  exact ⟨n, (c.runIn s).1, (c.runIn s).2, reached, rfl⟩

theorem program_halts (lines : LineIndex) (s : Store) (program : Program) : ∃ n result t,
    after n ⟨s, lines, 0, [], .body program.body Store.globals⟩ =
      some ⟨t, lines, 0, [], .done result⟩ ∧
    (program.eval lines).runIn s = (result.map Value.unwrap, t) := by
  have does : Does lines 0 (.body program.body Store.globals)
      (evalBody enterFirst lines Store.globals program.body) :=
    body_does (enterWithin_entering 0) program.body
  obtain ⟨n, result, t, reached, ran⟩ := does.halts [] s
  refine ⟨n, result, t, reached, ?_⟩
  unfold Program.eval
  cases result with
  | ok v => rw [Eval.runIn_bind_ok ran]; rfl
  | error e => rw [Eval.runIn_bind_error ran]; rfl

/-- From every store, a program comes to an end in a finite number of steps, with the result of
    evaluation, and so does an expression in any frame or a call, whatever bodies are open. What a
    task starts is smaller than the task in the number of bodies that may still be opened, or else
    in what is left of the syntax or of the call. -/
theorem evaluation_halts (lines : LineIndex) (s : Store) :
    (∀ program : Program, ∃ n result t,
      after n ⟨s, lines, 0, [], .body program.body Store.globals⟩ =
        some ⟨t, lines, 0, [], .done result⟩ ∧
      (program.eval lines).runIn s = (result.map Value.unwrap, t)) ∧
    (∀ depth pending e frame, ∃ n result t,
      after n ⟨s, lines, depth, pending, .expr e frame⟩ =
        some ⟨t, lines, depth, pending, .done result⟩ ∧
      (e.eval (enterWithin (maxDepth - depth)) lines frame).runIn s = (result, t)) ∧
    (∀ depth pending line c values, ∃ n result t,
      after n ⟨s, lines, depth, pending, .call line c values⟩ =
        some ⟨t, lines, depth, pending, .done result⟩ ∧
      (c.call (enterWithin (maxDepth - depth)) line values).runIn s = (result, t)) ∧
    WellFounded Task.Less ∧
    ∀ (task part : Task) (t : Store), task.Starts s part t → part.Less task := by
  refine ⟨program_halts lines s, fun depth pending e frame => ?_,
    fun depth pending line c values => ?_, Task.less_wellFounded,
    fun task part t starts => starts.less⟩
  · exact (expr_does (enterWithin_entering depth) e).halts pending s
  · exact (call_does (enterWithin_entering depth) line c values).halts pending s

end Machine

end MonkeyLang
