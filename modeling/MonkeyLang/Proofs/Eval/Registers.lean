import MonkeyLang.Proofs.Eval.Failure
import MonkeyLang.Proofs.Eval.Halting

namespace MonkeyLang

namespace Machine

def Pending.isLeave : Pending → Bool
  | .leave _ => true
  | _ => false

theorem Pending.isLeave_iff {pending : Pending} :
    pending.isLeave = true ↔ ∃ lines, pending = .leave lines := by
  cases pending <;> simp [isLeave]

theorem unwind_of_inside (m : Machine) {pending : Pending} (inside : pending.isLeave = false) :
    m.unwind pending = m := by
  cases pending <;> first | rfl | cases inside

/-- The number of bodies that are open: the machine still has to come to their ends. -/
def openBodies (m : Machine) : Nat := m.pending.countP Pending.isLeave

def Control.error? : Control → Option RuntimeError
  | .done (.error e) => some e
  | _ => none

def Overflows (m next : Machine) : Prop :=
  (∀ result, m.control ≠ .done result) ∧
    ∃ line, next.control = .done (.error ⟨.stackOverflow, line⟩)

structure Quiet (m next : Machine) : Prop where
  lines : next.lines = m.lines
  depth : next.depth = m.depth
  bodies : next.openBodies = m.openBodies
  within : ∀ e, next.control.error? = some e → e.fault ≠ .stackOverflow

namespace Quiet

variable {m : Machine}

theorem goto {control : Control} (goes : control.error? = none) : Quiet m (m.goto control) where
  lines := rfl
  depth := rfl
  bodies := rfl
  within e ended := by cases goes.symm.trans ended

theorem wait {pending : Pending} {control : Control} (stays : pending.isLeave = false)
    (goes : control.error? = none) : Quiet m (m.wait pending control) where
  lines := rfl
  depth := rfl
  bodies := List.countP_cons_of_neg (by simp [stays])
  within e ended := by cases goes.symm.trans ended

theorem behind {next : Machine} {pending : Pending} {rest : List Pending}
    (inside : m.pending = pending :: rest) (stays : pending.isLeave = false)
    (quiet : Quiet { m with pending := rest } next) : Quiet m next where
  lines := quiet.lines
  depth := quiet.depth
  bodies := by
    rw [quiet.bodies, openBodies, openBodies, inside, List.countP_cons_of_neg (by simp [stays])]
  within := quiet.within

theorem finish {line : Nat} {c : Eval Value} (fails : Eval.FailsOn line c) :
    Quiet m (m.finish c) where
  lines := rfl
  depth := rfl
  bodies := rfl
  within e ended := by
    rcases ran : c.runIn m.store with ⟨result, t⟩
    cases result with
    | ok v => simp [Machine.finish, ran, Control.error?] at ended
    | error e' =>
      obtain rfl : e' = e := by simpa [Machine.finish, ran, Control.error?] using ended
      exact (fails.error ran).2

theorem fail {line : Nat} {fault : Fault} (other : fault ≠ .stackOverflow) :
    Quiet m (m.finish (Eval.fail line fault)) :=
  .finish (.fail other)

end Quiet

theorem Gathered.finish_failsOn (gathered : Gathered) : Eval.FailsOn 0 gathered.finish := by
  cases gathered with
  | kept | results => exact .newArray
  | folded => exact .pure

section Steps

variable (m : Machine)

theorem startLoop_quiet {params : Nat} {method : ArrayMethod} (line : Nat) (scope : FrameId)
    (arg : Value) (gathered : Gathered) (members : List Value) :
    Quiet m (m.startLoop line scope (method.callbackArg params arg) gathered members) := by
  cases given : method.callbackArg params arg with
  | ok block => exact .goto rfl
  | error fault => exact .fail (ArrayMethod.callbackArg_fault given).ne_overflow

theorem runMethod_quiet (line : Nat) (scope : FrameId) (receiver : ArrayId) (values : List Value)
    (method : ArrayMethod) : Quiet m (m.runMethod line scope receiver values method) := by
  cases method with
  | filter | map => exact m.startLoop_quiet ..
  | reduce =>
    unfold runMethod
    dsimp only
    split <;> exact m.startLoop_quiet ..
  | _ => exact .finish (ArrayMethod.run_failsOn rfl noCalls scope receiver values)

theorem dispatch_quiet (line : Nat) (scope : FrameId) (name : String) (receiver : ArrayId)
    (values : List Value) : Quiet m (m.dispatch line scope name receiver values) := by
  unfold dispatch
  cases ArrayMethod.ofName? name with
  | none => exact .fail (by simp)
  | some method =>
    dsimp only
    split
    · exact m.runMethod_quiet ..
    · exact .fail (by simp)

theorem apply_quiet (values : List Value) (use : Use) : Quiet m (m.apply values use) := by
  cases use with
  | members => exact .finish (Eval.FailsOn.newArray : Eval.FailsOn 0 _)
  | builtin line builtin => exact .finish (builtin.run_failsOn values)
  | call line callee =>
    cases callee with
    | closure c => exact .goto rfl
    | _ => exact .fail (by simp)
  | method name nameSpan receiver frame =>
    cases receiver with
    | array id => exact m.dispatch_quiet ..
    | _ => exact .fail (by simp)

theorem stepExpr_quiet (frame : FrameId) (e : Expr) : Quiet m (m.stepExpr frame e) := by
  cases e with
  | int | uint | float | str | bool | nil | array | block => exact .goto rfl
  | binary | unary | cond | method | index => exact .wait rfl rfl
  | var span name =>
    unfold stepExpr
    dsimp only
    cases m.store.get? frame name with
    | some v => exact .goto rfl
    | none => exact .fail (by simp)
  | function => exact .finish (Eval.FailsOn.bind .update fun _ => .pure : Eval.FailsOn 0 _)
  | call span callee args =>
    unfold stepExpr
    dsimp only
    cases m.store.builtin? frame callee with
    | some builtin => exact .goto rfl
    | none => exact .wait rfl rfl

theorem stepStmt_quiet (frame : FrameId) (item : Stmt) : Quiet m (m.stepStmt frame item) := by
  fun_cases stepStmt m frame item with
  | case1 | case3 => exact .wait rfl rfl
  | case2 | case4 => exact .goto rfl

theorem resume_quiet (v : Value) {pending : Pending} (inside : pending.isLeave = false) :
    Quiet m (m.resume v pending) := by
  fun_cases resume m v pending with
  | case5 | case14 => exact .wait rfl rfl
  | case6 line op left => exact .finish (op.apply_outcome m.store left v).failsOn
  | case7 line op => exact .finish (op.apply_outcome v).failsOn
  | case15 line target => exact .finish (m.store.index_failsOn target v)
  | case17 => exact ⟨rfl, rfl, rfl, by simp [Control.error?]⟩
  | case22 => cases inside
  | _ => exact .goto rfl

end Steps

inductive Turn (m next : Machine) : Prop
  | quiet (stays : Quiet m next)
  | opens (c : Closure) (frame : FrameId) (entering : m.control = .enter c frame)
      (free : m.depth < maxDepth)
      (goes : next = { m with
        lines := c.lines
        depth := m.depth + 1
        pending := .leave m.lines :: m.pending
        control := .expr c.body frame })
  | refuses (c : Closure) (frame : FrameId) (entering : m.control = .enter c frame)
      (full : maxDepth ≤ m.depth)
      (goes : next = m.finish (Eval.fail (c.lines.lineOf c.body.span.start) .stackOverflow))
  | leaves (lines : LineIndex) (rest : List Pending) (result : Except RuntimeError Value)
      (ended : m.control = .done result) (inside : m.pending = .leave lines :: rest)
      (goes : next = { m with
        lines
        depth := m.depth - 1
        pending := rest
        control := .done (result.map Value.unwrap) })
  | passes (e : RuntimeError) (pending : Pending) (rest : List Pending)
      (failed : m.control = .done (.error e)) (inside : m.pending = pending :: rest)
      (stays : pending.isLeave = false) (goes : next = { m with pending := rest })

theorem step_turn {m next : Machine} (steps : m.step = some next) : Turn m next := by
  unfold step at steps
  split at steps
  case h_1 e frame _ =>
    cases steps
    exact .quiet (m.stepExpr_quiet frame e)
  case h_2 use values frame _ =>
    cases steps
    exact .quiet (m.apply_quiet _ use)
  case h_4 item frame _ =>
    cases steps
    exact .quiet (m.stepStmt_quiet frame item)
  case h_8 line c values _ =>
    split at steps
    · cases steps
      exact .quiet (.goto rfl)
    · cases steps
      exact .quiet (.fail (by simp))
  case h_9 c scope bound _ =>
    obtain ⟨t, _, rfl⟩ := Option.map_eq_some_iff.mp steps
    exact .quiet ⟨rfl, rfl, rfl, by simp [Control.error?]⟩
  case h_10 c frame entering =>
    split at steps
    · rename_i full
      cases steps
      exact .refuses c frame entering (by omega) rfl
    · rename_i free
      cases steps
      exact .opens c frame entering (by omega) rfl
  case h_11 gathered _ =>
    cases steps
    exact .quiet (.finish gathered.finish_failsOn)
  case h_13 result ended =>
    split at steps
    · cases steps
    · rename_i pending rest inside
      split at steps
      · rename_i v
        cases steps
        cases leaving : pending.isLeave with
        | true =>
          obtain ⟨lines, rfl⟩ := Pending.isLeave_iff.mp leaving
          exact .leaves lines rest (.ok v) ended inside rfl
        | false => exact .quiet (.behind inside leaving (resume_quiet _ v leaving))
      · rename_i e
        cases steps
        cases leaving : pending.isLeave with
        | true =>
          obtain ⟨lines, rfl⟩ := Pending.isLeave_iff.mp leaving
          exact .leaves lines rest (.error e) ended inside (by rw [unwind, ended]; rfl)
        | false =>
          exact .passes e pending rest ended inside leaving (unwind_of_inside _ leaving)
  case h_3 | h_12 =>
    cases steps
    exact .quiet (.wait rfl rfl)
  case h_7 =>
    cases steps
    exact .quiet (.wait rfl rfl)
  case h_5 | h_6 =>
    cases steps
    exact .quiet (.goto rfl)

structure Counted (m : Machine) : Prop where
  depth : m.depth = m.openBodies
  within : m.openBodies ≤ maxDepth

theorem Counted.step {m next : Machine} (counted : Counted m) (steps : m.step = some next) :
    Counted next := by
  have depth := counted.depth
  have within := counted.within
  cases step_turn steps with
  | quiet stays => exact ⟨by rw [stays.depth, stays.bodies, depth], stays.bodies ▸ within⟩
  | opens c frame entering free goes =>
    have opened : next.openBodies = m.openBodies + 1 := by
      rw [goes]
      exact List.countP_cons_of_pos rfl
    exact ⟨by rw [opened, goes, ← depth], by omega⟩
  | refuses c frame entering full goes =>
    rw [goes]
    exact ⟨depth, within⟩
  | leaves lines rest result ended inside goes =>
    have left : m.openBodies = next.openBodies + 1 := by
      rw [goes, openBodies, inside]
      exact List.countP_cons_of_pos rfl
    have lower : next.depth = m.depth - 1 := by rw [goes]
    exact ⟨by omega, by omega⟩
  | passes e pending rest failed inside stays goes =>
    have same : next.openBodies = m.openBodies := by
      rw [goes, openBodies, openBodies, inside, List.countP_cons_of_neg (by simp [stays])]
    exact ⟨by rw [same, goes, ← depth], by omega⟩

theorem Counted.after {m next : Machine} (counted : Counted m) {k : Nat}
    (reached : after k m = some next) : Counted next := by
  induction k generalizing m with
  | zero =>
    cases reached
    exact counted
  | succ k ih =>
    obtain ⟨between, steps, later⟩ := Option.bind_eq_some_iff.mp reached
    exact ih (counted.step steps) later

/-- Nothing but a body that is refused overflows, and one is refused exactly where as many are open
    as there may be. -/
theorem Counted.overflows_iff {m next : Machine} (counted : Counted m)
    (steps : m.step = some next) :
    m.Overflows next ↔ (∃ c frame, m.control = .enter c frame) ∧ m.openBodies = maxDepth := by
  have depth := counted.depth
  have within := counted.within
  constructor
  · rintro ⟨going, line, failed⟩
    cases step_turn steps with
    | quiet stays => exact absurd rfl (stays.within _ (by rw [failed]; rfl))
    | opens c frame entering free goes =>
      rw [goes] at failed
      cases failed
    | refuses c frame entering full goes => exact ⟨⟨c, frame, entering⟩, by omega⟩
    | leaves lines rest result ended => exact absurd ended (going result)
    | passes e pending rest ended => exact absurd ended (going (.error e))
  · rintro ⟨⟨c, frame, entering⟩, full⟩
    have refused : m.step = some
        (m.finish (Eval.fail (c.lines.lineOf c.body.span.start) .stackOverflow)) := by
      rw [Machine.step, entering]
      exact if_pos (by omega)
    obtain rfl := Option.some.inj (refused.symm.trans steps)
    refine ⟨fun result ended => ?_, _, rfl⟩
    cases entering.symm.trans ended

theorem Counted.opens {m : Machine} (counted : Counted m) {c : Closure} {frame : FrameId}
    (entering : m.control = .enter c frame) (free : m.openBodies ≠ maxDepth) :
    m.step = some ⟨m.store, c.lines, m.depth + 1, .leave m.lines :: m.pending,
      .expr c.body frame⟩ := by
  have depth := counted.depth
  have within := counted.within
  rw [Machine.step, entering]
  exact if_neg (by omega)

end Machine

end MonkeyLang
