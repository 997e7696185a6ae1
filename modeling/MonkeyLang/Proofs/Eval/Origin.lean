import MonkeyLang.Proofs.Eval.Failure
import MonkeyLang.Proofs.Eval.Measure

namespace MonkeyLang

namespace Task

variable {s t u : Store} {e : RuntimeError} {room : Nat} {scope : FrameId}

section Within

variable {task middle part : Task}

theorem Less.trans {first second third : Task} (less : first.Less second)
    (less' : second.Less third) : first.Less third := by
  unfold Less at *
  rw [Prod.lex_def] at *
  omega

theorem Within.trans (outer : task.Within s middle u) (inner : middle.Within u part t) :
    task.Within s part t := by
  induction inner with
  | self => exact outer
  | part _ starts ih => exact .part ih starts

theorem Within.less (within : task.Within s part t) :
    part = task ∧ t = s ∨ part.Less task := by
  induction within with
  | self => exact .inl ⟨rfl, rfl⟩
  | part _ starts ih =>
    rcases ih with ⟨rfl, rfl⟩ | less
    · exact .inr starts.less
    · exact .inr (starts.less.trans less)

theorem Within.fails (within : task.Within s part u) (failed : part.Fails u e t) :
    task.Fails s e t := by
  induction within with
  | self => exact failed
  | part _ starts ih => exact ih (starts.fails failed)

def isSyntax : Task → Bool
  | expr .. | args .. | stmt .. | body .. => true
  | _ => false

theorem Fails.exists_expr (failed : task.Fails s e t) (syntactic : task.isSyntax = true) :
    ∃ site ex u, task.Within s (Task.expr site ex) u ∧ (Task.expr site ex).Fails u e t := by
  induction task using less_wellFounded.induction generalizing s with
  | _ task ih =>
    have of_part (fails : task.PartFails s e t)
        (parts : ∀ part u, task.Starts s part u → part.isSyntax = true) :
        ∃ site ex u, task.Within s (Task.expr site ex) u ∧ (Task.expr site ex).Fails u e t := by
      obtain ⟨part, u, starts, fails⟩ := fails
      obtain ⟨site, ex, w, within, inside⟩ := ih part starts.less fails (parts part u starts)
      exact ⟨site, ex, w, (Within.self.part starts).trans within, inside⟩
    cases task with
    | expr site ex => exact ⟨site, ex, s, .self, failed⟩
    | args => exact of_part failed.args fun part u starts => by cases starts <;> rfl
    | stmt => exact of_part failed.stmt fun part u starts => by cases starts <;> rfl
    | body => exact of_part failed.body fun part u starts => by cases starts <;> rfl
    | _ => cases syntactic

end Within

def Untroubled (task : Task) (s : Store) : Prop :=
  ∀ site ex u, task.Within s (Task.expr site ex) u → ∀ e t, ¬ (Task.expr site ex).Fails u e t

theorem Untroubled.part {task part : Task} (untroubled : task.Untroubled s)
    (starts : task.Starts s part u) : part.Untroubled u :=
  fun site ex w within => untroubled site ex w ((Within.self.part starts).trans within)

/-- The expression fails, and no part of it has an expression that does. -/
structure Origin (site : Site) (ex : Expr) (s : Store) (e : RuntimeError) (t : Store) : Prop where
  fails : (Task.expr site ex).Fails s e t
  alone : ∀ part u, (Task.expr site ex).Starts s part u → part.Untroubled u

section Origins

variable {site : Site} {ex : Expr}

theorem Fails.exists_origin (failed : (Task.expr site ex).Fails s e t) :
    ∃ site' ex' u, (Task.expr site ex).Within s (Task.expr site' ex') u ∧
      Origin site' ex' u e t := by
  generalize same : Task.expr site ex = task at failed
  induction task using less_wellFounded.induction generalizing s site ex with
  | _ task ih =>
    subst same
    by_cases alone : ∀ part u, (Task.expr site ex).Starts s part u → part.Untroubled u
    · exact ⟨site, ex, s, .self, failed, alone⟩
    · simp only [Untroubled, Classical.not_forall, Classical.not_not] at alone
      obtain ⟨part, u, starts, site', ex', w, within, e', t', fails⟩ := alone
      have inside := (Within.self.part starts).trans within
      -- There is one end to the evaluation, so what fails inside fails with the same error.
      have whole := inside.fails fails
      rw [Fails, failed] at whole
      cases whole
      have less : (Task.expr site' ex').Less (Task.expr site ex) := by
        rcases within.less with ⟨same, _⟩ | less
        · exact same ▸ starts.less
        · exact less.trans starts.less
      obtain ⟨site'', ex'', x, within', origin⟩ := ih _ less rfl fails
      exact ⟨site'', ex'', x, inside.trans within', origin⟩

theorem Fails.undeclared {c : Closure} {frame : FrameId} {bound : List (Nat × Value)}
    (failed : (Task.params c frame bound).Fails s e t) :
    ∃ binding ∈ bound, c.arity ≤ binding.1 := by
  induction bound generalizing s with
  | nil => cases failed
  | cons binding rest ih =>
    rcases failed.cause with ⟨part, u, starts, fails⟩ | raised
    · cases starts with
      | laterParams =>
        obtain ⟨other, member, beyond⟩ := ih fails
        exact ⟨other, List.mem_cons_of_mem _ member, beyond⟩
    · exact raised

theorem Fails.unopened {c : Closure} {bound : List (Nat × Value)}
    (failed : (Task.invoke room c scope bound).Fails s e t)
    (declared : ∀ binding ∈ bound, binding.1 < c.arity)
    (untroubled : (Task.invoke room c scope bound).Untroubled s) :
    (Task.invoke room c scope bound).Raises e := by
  rcases failed.cause with ⟨part, u, starts, fails⟩ | raised
  · have quiet := untroubled.part starts
    cases starts with
    | params =>
      obtain ⟨binding, member, beyond⟩ := fails.undeclared
      exact absurd (declared binding member) (by omega)
    | entered => exact absurd fails (quiet _ _ _ .self _ _)
  · exact raised

theorem Starts.declared {task : Task} {room : Nat} {c : Closure} {scope : FrameId}
    {bound : List (Nat × Value)} (starts : task.Starts s (.invoke room c scope bound) t) :
    ∀ binding ∈ bound, binding.1 < c.arity := by
  cases starts with
  | invoked enough => exact Closure.numbered_declared enough
  | filtered _ _ given | mapped _ _ given | reduced _ _ given =>
    have arity := (ArrayMethod.callbackArg_eq_ok given).2
    simp [arity]

def isCall : Task → Bool
  | call .. | method .. => true
  | _ => false

theorem Starts.invokes {task part : Task} (starts : task.Starts s part t)
    (calls : task.isCall = true) : ∃ room c scope bound, part = Task.invoke room c scope bound := by
  cases starts with
  | invoked | filtered | mapped | reduced => exact ⟨_, _, _, _, rfl⟩
  | _ => cases calls

/-- What an origin of an error is told by: its own place, or the body that could not be opened. -/
theorem Origin.told (origin : Origin site ex s e t) :
    (Task.expr site ex).Raises e ∨ ∃ room c scope bound u,
      (Task.expr site ex).Within s (Task.invoke room c scope bound) u ∧
        (Task.invoke room c scope bound).Fails u e t ∧
          (Task.invoke room c scope bound).Raises e := by
  rcases origin.fails.cause with ⟨part, u, starts, fails⟩ | raised
  · have quiet := origin.alone part u starts
    have within := Within.self.part starts
    have syntactic (here : part.isSyntax = true) : False := by
      obtain ⟨site', ex', w, within', inside⟩ := fails.exists_expr here
      exact quiet site' ex' w within' e t inside
    cases starts with
    | call | method =>
      rcases fails.cause with ⟨called, w, starts', inside⟩ | raised
      · obtain ⟨room, c, scope, bound, rfl⟩ := starts'.invokes rfl
        exact .inr ⟨room, c, scope, bound, w, within.part starts', inside,
          inside.unopened starts'.declared (quiet.part starts')⟩
      · exact .inl raised
    | _ => exact (syntactic rfl).elim
  · exact .inl raised

end Origins

end Task

end MonkeyLang
