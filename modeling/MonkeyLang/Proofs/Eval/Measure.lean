import MonkeyLang.Proofs.Eval.Task
import MonkeyLang.Proofs.Eval.Triple

namespace MonkeyLang

namespace Task

def room : Task → Nat
  | expr site _ | args site _ | stmt site _ | body site _ => site.room
  | call room .. | invoke room .. | method room .. => room
  | params .. => 0

noncomputable def size : Task → Nat
  | expr _ e => sizeOf e
  | args _ es => sizeOf es
  | stmt _ item => sizeOf item
  | body _ items => sizeOf items
  | method .. => 4
  | call _ _ _ values => values.length + 2
  | invoke _ _ _ bound => bound.length + 1
  | params _ _ bound => bound.length

/-- Fewer bodies may be open in the first task, or as many and less is left of it. -/
def Less (part task : Task) : Prop :=
  Prod.Lex (· < ·) (· < ·) (part.room, part.size) (task.room, task.size)

theorem less_wellFounded : WellFounded Less :=
  InvImage.wf (fun task : Task => (task.room, task.size))
    (Prod.lex Nat.lt_wfRel Nat.lt_wfRel).wf

theorem evalArgs_length {enter : Enter} {lines : LineIndex} {frame : FrameId} {es : List Expr}
    {values : List Value} {s t : Store}
    (ran : (evalArgs enter lines frame es).runIn s = (.ok values, t)) :
    values.length = es.length := by
  induction es generalizing values s t with
  | nil =>
    rw [evalArgs] at ran
    cases ran
    rfl
  | cons e rest ih =>
    rw [evalArgs] at ran
    obtain ⟨v, u, _, ran⟩ := Eval.runIn_bind_succeeded ran
    obtain ⟨others, w, later, ran⟩ := Eval.runIn_bind_succeeded ran
    cases ran
    rw [List.length_cons, List.length_cons, ih later]

theorem length_lt_sizeOf (es : List Expr) : es.length < sizeOf es := by
  induction es with
  | nil => simp
  | cons e rest ih =>
    rw [List.length_cons, List.cons.sizeOf_spec]
    omega

theorem Starts.less {task part : Task} {s t : Store} (starts : task.Starts s part t) :
    part.Less task := by
  have inside {part task : Task} (same : part.room = task.room) (less : part.size < task.size) :
      part.Less task := by
    unfold Less
    rw [same]
    exact Prod.Lex.right _ less
  cases starts with
  | members | left | right | operand | test | consequence | alternative | block | builtinArgs
  | callee | callArgs | receiver | methodArgs | target | position | firstArg | laterArgs | bound
  | returned | alone | firstStmt | laterStmts =>
    refine inside rfl ?_
    simp [size]
    try omega
  | @call site span _ _ _ callee es _ values _ _ given =>
    have length := evalArgs_length given
    have longer := length_lt_sizeOf es
    obtain ⟨start, stop⟩ := span
    refine inside rfl ?_
    simp only [size, Expr.call.sizeOf_spec, Span.mk.sizeOf_spec]
    omega
  | @method site span nameSpan _ _ _ receiver name es _ values _ given =>
    have some : 0 < sizeOf receiver := by cases receiver <;> simp +arith
    have longer := length_lt_sizeOf es
    obtain ⟨start, stop⟩ := span
    obtain ⟨start', stop'⟩ := nameSpan
    refine inside rfl ?_
    simp only [size, Expr.method.sizeOf_spec, Span.mk.sizeOf_spec]
    omega
  | invoked => exact inside rfl (by simp [size, Closure.numbered])
  | @params room _ _ _ bound =>
    rcases Nat.eq_zero_or_pos room with rfl | some
    · exact inside rfl (Nat.lt_succ_self _)
    · exact Prod.Lex.left _ _ some
  | laterParams => exact inside rfl (Nat.lt_succ_self _)
  | entered => exact Prod.Lex.left _ _ (Nat.lt_succ_self _)
  | filtered | mapped | reduced => exact inside rfl (by simp [size])

end Task

end MonkeyLang
