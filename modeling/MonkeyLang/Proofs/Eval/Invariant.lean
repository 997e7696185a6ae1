import MonkeyLang.Proofs.Eval.Loops
import MonkeyLang.Proofs.Eval.Operators
import MonkeyLang.Proofs.Eval.Task
import MonkeyLang.Proofs.Store.Corpus

namespace MonkeyLang

namespace Task

structure Invariant where
  corpus : Corpus
  /-- What holds of the values in stores and of those that are given to functions and methods. -/
  value : Value → Prop
  /-- What holds of the values that syntax ends in. -/
  result : Value → Prop
  closure : ∀ c, result (.closure c) → value (.closure c)
  entered : ∀ c, value (.closure c) → corpus.has c.lines c.body

namespace Invariant

def Given (I : Invariant) : Task → Prop
  | expr site e => I.corpus.has site.lines e
  | args site es => I.corpus.HasAll site.lines es
  | stmt site item => I.corpus.HasAll site.lines item.parts
  | body site items => I.corpus.HasBody site.lines items
  | call _ _ c values => I.value (.closure c) ∧ ∀ v ∈ values, I.value v
  | invoke _ c _ bound => I.value (.closure c) ∧ ∀ binding ∈ bound, I.value binding.2
  | params _ _ bound => ∀ binding ∈ bound, I.value binding.2
  | method _ _ _ _ _ values => ∀ v ∈ values, I.value v

def Good (I : Invariant) : (task : Task) → task.Output → Prop
  | expr .. | stmt .. | body .. => I.result
  | args .. => fun values => ∀ v ∈ values, I.value v
  | params .. => fun _ => True
  | call .. | invoke .. | method .. => I.value

def Kept (I : Invariant) : Prop :=
  ∀ (task : Task) (s t : Store) (output : task.Output), task.Ends s output t → I.Given task →
    s.Holds I.value → I.Good task output ∧ t.Holds I.value

variable {I : Invariant}

theorem folded?_holds {P : Value → Prop} {values members visited : List Value} {seed : Value}
    (found : folded? values members = some (seed, visited)) (given : ∀ v ∈ values, P v)
    (inside : ∀ v ∈ members, P v) : P seed ∧ ∀ v ∈ visited, P v := by
  revert found
  unfold folded?
  split
  · rename_i seed' rest dropped
    rintro ⟨⟩
    have member : seed ∈ values.drop 1 := dropped ▸ List.mem_cons_self
    exact ⟨given seed (List.mem_of_mem_drop member), inside⟩
  · rintro ⟨⟩
    exact List.forall_mem_cons.mp inside
  · simp

theorem holds_of_split {P : Value → Prop} {values before after : List Value} {member : Value}
    (split : values = before ++ member :: after) (inside : ∀ v ∈ values, P v) :
    (∀ v ∈ before, P v) ∧ P member := by
  rw [split] at inside
  exact ⟨fun v visited => inside v (List.mem_append_left _ visited), inside member (by simp)⟩

theorem callback_holds {P : Value → Prop} {method : ArrayMethod} {params : Nat}
    {values : List Value} {block : Closure}
    (given : method.callbackArg params (values.headD .nil) = .ok block)
    (inside : ∀ v ∈ values, P v) : P (.closure block) := by
  have same := (ArrayMethod.callbackArg_eq_ok given).1
  cases values with
  | nil => cases same
  | cons first rest => exact same ▸ inside first List.mem_cons_self

theorem Kept.starts (kept : I.Kept) {task part : Task} {s t : Store}
    (starts : task.Starts s part t) (given : I.Given task) (holds : s.Holds I.value) :
    I.Given part ∧ t.Holds I.value := by
  have written {site : Site} {e part : Expr} (whole : I.Given (expr site e))
      (inside : part ∈ e.parts) : I.Given (expr site part) :=
    I.corpus.parts _ e whole part inside
  have writtenAll {site : Site} {e : Expr} {es : List Expr} (whole : I.Given (expr site e))
      (inside : ∀ part ∈ es, part ∈ e.parts) : I.Given (args site es) :=
    fun part member => I.corpus.parts _ e whole part (inside part member)
  have calls (room : Nat) {block : Closure} (callback : I.value (.closure block))
      (scope : FrameId) (v : Value) (value : I.value v) (s : Store) (a : Value) (t : Store)
      (before : s.Holds I.value) (ends : (invoke room block scope [(0, v)]).Ends s a t) :
      t.Holds I.value :=
    (kept (invoke room block scope [(0, v)]) s t a ends ⟨callback, by simpa using value⟩ before).2
  -- A part starts in the store that the parts before it left, and these have ended.
  cases starts with
  | members => exact ⟨writtenAll given fun _ member => member, holds⟩
  | left | operand | test | callee | receiver | target =>
    exact ⟨written given (by simp [Expr.parts]), holds⟩
  | right before | consequence before | alternative before | position before =>
    exact ⟨written given (by simp [Expr.parts]),
      (kept _ _ _ _ before (written given (by simp [Expr.parts])) holds).2⟩
  | block => exact ⟨Corpus.hasBody_of_block given, holds⟩
  | builtinArgs => exact ⟨writtenAll given (by simp +contextual [Expr.parts]), holds⟩
  | callArgs _ before | methodArgs before =>
    exact ⟨writtenAll given (by simp +contextual [Expr.parts]),
      (kept _ _ _ _ before (written given (by simp [Expr.parts])) holds).2⟩
  | call _ before values =>
    obtain ⟨callee, between⟩ :=
      kept _ _ _ _ before (written given (by simp [Expr.parts])) holds
    obtain ⟨values, after⟩ :=
      kept _ _ _ _ values (writtenAll given (by simp +contextual [Expr.parts])) between
    exact ⟨⟨I.closure _ callee, values⟩, after⟩
  | method before values =>
    obtain ⟨_, between⟩ := kept _ _ _ _ before (written given (by simp [Expr.parts])) holds
    exact kept _ _ _ _ values (writtenAll given (by simp +contextual [Expr.parts])) between
  | firstArg | bound | returned | alone => exact ⟨given _ (by simp [Stmt.parts]), holds⟩
  | laterArgs before =>
    obtain ⟨first, others⟩ := Corpus.HasAll.cons given
    exact ⟨others, (kept _ _ _ _ before first holds).2⟩
  | firstStmt => exact ⟨(Corpus.HasBody.cons given).1, holds⟩
  | laterStmts before =>
    obtain ⟨first, others⟩ := Corpus.HasBody.cons given
    exact ⟨others, (kept _ _ _ _ before first holds).2⟩
  | invoked =>
    exact ⟨⟨given.1, fun _ member => given.2 _ (Closure.of_mem_numbered member).2⟩, holds⟩
  | params => exact ⟨given.2, holds.child _⟩
  | laterParams =>
    obtain ⟨here, others⟩ := List.forall_mem_cons.mp given
    exact ⟨others, holds.define here _ _⟩
  | entered before =>
    exact ⟨I.entered _ given.1, (kept _ _ _ _ before given.2 (holds.child _)).2⟩
  | @filtered room _ _ _ scope _ _ _ _ _ _ block _ _ _ callback split ran =>
    have known := callback_holds callback given
    obtain ⟨earlier, here⟩ := holds_of_split split fun v => holds.mem_toList
    exact ⟨⟨known, by simpa using here⟩,
      (ArrayMethod.loops_filterCalls _).keeps (calls room known scope) earlier holds ran⟩
  | @mapped room _ _ _ scope _ _ _ _ _ _ block _ _ _ callback split ran =>
    have known := callback_holds callback given
    obtain ⟨earlier, here⟩ := holds_of_split split fun v => holds.mem_toList
    exact ⟨⟨known, by simpa using here⟩,
      (ArrayMethod.loops_mapCalls _).keeps (calls room known scope) earlier holds ran⟩
  | @reduced room _ _ _ scope _ _ _ _ _ _ block _ _ _ _ _ callback seeded split ran =>
    have known := callback_holds callback given
    obtain ⟨start, inside⟩ := folded?_holds seeded given fun v => holds.mem_toList
    obtain ⟨earlier, here⟩ := holds_of_split split inside
    have folds (acc v : Value) (first : I.value acc) (second : I.value v) (s : Store) (a : Value)
        (t : Store) (before : s.Holds I.value)
        (ends : (invoke room block scope [(0, acc), (1, v)]).Ends s a t) :=
      kept (invoke room block scope [(0, acc), (1, v)]) s t a ends
        ⟨known, by simp [first, second]⟩ before
    obtain ⟨last, after⟩ := ArrayMethod.foldCalls_keeps folds start earlier holds ran
    exact ⟨⟨known, by simp [last, here]⟩, after⟩

theorem Kept.within (kept : I.Kept) {task part : Task} {s t : Store}
    (within : task.Within s part t) (given : I.Given task) (holds : s.Holds I.value) :
    I.Given part ∧ t.Holds I.value := by
  induction within with
  | self => exact ⟨given, holds⟩
  | part _ starts ih => exact kept.starts starts ih.1 ih.2

end Invariant

end Task

end MonkeyLang
