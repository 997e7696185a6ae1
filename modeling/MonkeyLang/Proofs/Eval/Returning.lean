import MonkeyLang.Proofs.Session.Registers
import MonkeyLang.Proofs.Value.Equivalence

namespace MonkeyLang

section Operands

variable {s : Store} {op : StrictOp} {a b v : Value}

def StrictOp.onReturn (s : Store) (a b : Value) : StrictOp → Except Fault Value
  | .eq => .ok (.bool (s.valuesEqual a b))
  | .ne => .ok (.bool (!s.valuesEqual a b))
  | op => .error (.wrongType (.operands op a.typeName b.typeName))

theorem Value.order?_of_isReturned (wrapped : a.isReturned = true ∨ b.isReturned = true) :
    a.order? b = none := by
  rcases wrapped with left | right
  · cases a with
    | returned => rfl
    | _ => cases left
  · cases b with
    | returned => cases a <;> rfl
    | _ => cases right

theorem StrictOp.arithmetic?_of_isReturned (wrapped : a.isReturned = true ∨ b.isReturned = true) :
    op.arithmetic? a b = none := by
  cases found : op.arithmetic? a b with
  | none => rfl
  | some result =>
    revert found
    fun_cases StrictOp.arithmetic? op a b with
    | case17 =>
      intro found
      cases found
    | _ => rcases wrapped with h | h <;> cases h

theorem StrictOp.apply_eq_onReturn (wrapped : a.isReturned = true ∨ b.isReturned = true) :
    op.apply s a b = op.onReturn s a b := by
  cases op with
  | eq | ne => rfl
  | lt | gt | le | ge => rw [apply, Value.order?_of_isReturned wrapped]; rfl
  | add | sub | mul | div | mod => rw [apply, arithmetic?_of_isReturned wrapped]; rfl

theorem Store.valuesEqual_returned_iff :
    s.valuesEqual (.returned v) b = true ↔ ∃ w, b = .returned w ∧ s.valuesEqual v w = true := by
  constructor
  · intro equal
    cases isEquality_valuesEqual s _ _ equal with
    | returned inner => exact ⟨_, rfl, inner⟩
  · rintro ⟨w, rfl, equal⟩
    exact (allEqual_congr (Value.comparison_returned v w) ∅ []).trans equal

end Operands

namespace Machine

/-- A `return` is executed: its value is there. The frames are what waits for it. -/
inductive Returns (m : Machine) (v : Value) (waiting : List Pending) : Prop
  | bare (span : Span) (frame : FrameId) (control : m.control = .stmt (.result span none) frame)
      (nothing : v = .nil) (behind : m.pending = waiting)
  | value (w : Value) (control : m.control = .done (.ok w)) (unwrapped : v = w.unwrap)
      (behind : m.pending = .result :: waiting)

/-- Hands on a `return` with the value: a binding, another `return`, the rest of a block, and a left
    operand that makes the right one needless. -/
def Pending.passes (v : Value) : Pending → Bool
  | .bind .. | .result | .body .. => true
  | .right _ op _ _ => !Task.needsRight v op
  | _ => false

/-- Asks only whether the value is true: a condition, and a left operand that makes the right one
    the result. -/
def Pending.tests (v : Value) : Pending → Bool
  | .branch .. => true
  | .right _ (.logic op) _ _ => Task.needsRight v (.logic op)
  | _ => false

/-- Takes a `return` for the value that it waits for, without a look at it. -/
def Pending.takes : Pending → Bool
  | .right _ (.strict _) _ _ | .strict .. | .unary .. | .callee .. | .receiver .. | .position ..
  | .index .. => true
  | _ => false

def Pending.isLoop : Pending → Bool
  | .loop .. => true
  | _ => false

/-- What is next where a `return` with the value is taken for what was waited for. An operand that
    is not the last one waits for the others. -/
inductive Taken (m : Machine) (v : Value) : Pending → Machine → Prop
  | left (line : Nat) (op : StrictOp) (right : Expr) (frame : FrameId) :
      Taken m v (.right line (.strict op) right frame)
        (m.wait (.strict line op (.returned v)) (.expr right frame))
  | right (line : Nat) (op : StrictOp) (left : Value) :
      Taken m v (.strict line op left)
        (m.goto (.done ((op.onReturn m.store left (.returned v)).mapError (⟨·, line⟩))))
  | negated (line : Nat) :
      Taken m v (.unary line .neg)
        (m.goto (.done (.error ⟨.wrongType (.negation "return"), line⟩)))
  | denied (line : Nat) : Taken m v (.unary line .not) (m.goto (.done (.ok (.bool !v.truthy))))
  | callee (line : Nat) (args : List Expr) (frame : FrameId) :
      Taken m v (.callee line args frame) (m.goto (.args (.call line (.returned v)) [] args frame))
  | receiver (name : String) (nameSpan : Span) (args : List Expr) (frame : FrameId) :
      Taken m v (.receiver name nameSpan args frame)
        (m.goto (.args (.method name nameSpan (.returned v) frame) [] args frame))
  | target (line : Nat) (position : Expr) (frame : FrameId) :
      Taken m v (.position line position frame)
        (m.wait (.index line (.returned v)) (.expr position frame))
  | position (line : Nat) (id : ArrayId) :
      Taken m v (.index line (.array id))
        (m.goto (.done (.error ⟨.wrongType (.position "return"), line⟩)))
  | positionOf (line : Nat) (target : Value) (other : ∀ id, target ≠ .array id) :
      Taken m v (.index line target)
        (m.goto (.done (.error ⟨.wrongType (.target target.typeName), line⟩)))

/-- What an operand that is a `return` with the value comes to when the last of the others is
    there. -/
inductive Spent (m : Machine) (v : Value) : Machine → Machine → Prop
  | left (line : Nat) (op : StrictOp) (right : Value) :
      Spent m v (m.wait (.strict line op (.returned v)) (.done (.ok right)))
        (m.goto (.done ((op.onReturn m.store (.returned v) right).mapError (⟨·, line⟩))))
  | callee (line : Nat) (values : List Value) (frame : FrameId) :
      Spent m v (m.goto (.args (.call line (.returned v)) values [] frame))
        (m.goto (.done (.error ⟨.notCallable "return", line⟩)))
  | receiver (name : String) (nameSpan : Span) (scope : FrameId) (values : List Value)
      (frame : FrameId) :
      Spent m v (m.goto (.args (.method name nameSpan (.returned v) scope) values [] frame))
        (m.goto (.done (.error ⟨.noMethod name "return", m.lineOf nameSpan⟩)))
  | target (line : Nat) (position : Value) :
      Spent m v (m.wait (.index line (.returned v)) (.done (.ok position)))
        (m.goto (.done (.error ⟨.wrongType (.target "return"), line⟩)))

section Resume

variable (m : Machine) {v : Value} {p : Pending} {before : Machine}

theorem resume_of_passes (passes : p.passes v = true) :
    m.resume (.returned v) p = m.goto (.done (.ok (.returned v))) := by
  cases p with
  | right line op right frame =>
    have needless : Task.needsRight v op = false := by simpa [Pending.passes] using passes
    match op with
    | .logic .and => exact if_neg (by simpa [Value.truthy, Task.needsRight] using needless)
    | .logic .or => exact if_pos (by simpa [Value.truthy, Task.needsRight] using needless)
    | .strict op => cases needless
  | bind | result | body => rfl
  | _ => cases passes

theorem resume_of_tests (tests : p.tests v = true) (control : Control) :
    m.resume (.returned v) p = (m.goto control).resume v p := by
  cases p with
  | right line op right frame =>
    match op with
    | .logic .and =>
      have holds : v.truthy = true := tests
      simp [resume, goto, Value.truthy, holds]
    | .logic .or =>
      have fails : v.truthy = false := by simpa [Pending.tests, Task.needsRight] using tests
      simp [resume, goto, Value.truthy, fails]
    | .strict op => cases tests
  | branch => rfl
  | _ => cases tests

theorem finish_ofExcept (line : Nat) (result : Except Fault Value) :
    m.finish (Eval.ofExcept line result) = m.goto (.done (result.mapError (⟨·, line⟩))) := by
  cases result <;> rfl

theorem resume_taken (takes : p.takes = true) : Taken m v p (m.resume (.returned v) p) := by
  cases p with
  | right line op right frame =>
    match op with
    | .strict op => exact .left line op right frame
    | .logic op => cases takes
  | strict line op left =>
    rw [resume, StrictOp.apply_eq_onReturn (.inr rfl), finish_ofExcept]
    exact .right line op left
  | unary line op =>
    cases op with
    | neg => exact .negated line
    | not => exact .denied line
  | callee line args frame => exact .callee line args frame
  | receiver name nameSpan args frame => exact .receiver name nameSpan args frame
  | position line position frame => exact .target line position frame
  | index line target =>
    cases target with
    | array id => exact .position line id
    | _ => exact .positionOf line _ (by simp)
  | _ => cases takes

theorem Spent.step {next : Machine} (spent : Spent m v before next) : before.step = some next := by
  cases spent with
  | left line op right =>
    have refused : op.apply m.store (.returned v) right = op.onReturn m.store (.returned v) right :=
      StrictOp.apply_eq_onReturn (.inl rfl)
    exact congrArg some ((congrArg (fun r => m.finish (Eval.ofExcept line r)) refused).trans
      (m.finish_ofExcept line _))
  | callee | receiver | target => rfl

end Resume

section Loops

variable {m next : Machine}

/-- Between two things that wait, one behind the other: a loop waits for whole bodies only. -/
def Pending.Before (p q : Pending) : Prop := q.isLoop = true → p.isLeave = true

theorem Pending.Before.single {p q : Pending} (before : p.Before q) (stays : p.isLeave = false) :
    q.isLoop = false := by
  cases loops : q.isLoop with
  | false => rfl
  | true => cases stays.symm.trans (before loops)

theorem Pending.before_of_single {p q : Pending} (single : q.isLoop = false) : p.Before q :=
  fun loops => nomatch single.symm.trans loops

def Control.calls : Control → Bool
  | .invoke .. | .enter .. | .done _ => true
  | _ => false

-- A loop is on top only while its callback starts or when a result of that is there, so nothing is
-- pushed on a loop but the end of a body.
structure LoopsWait (m : Machine) : Prop where
  chain : m.pending.IsChain Pending.Before
  top : ∀ p ∈ m.pending.head?, p.isLoop = true → m.control.calls = true

def Stacks (m next : Machine) : Prop :=
  next.pending = m.pending ∨ ∃ p, p.isLoop = false ∧ next.pending = p :: m.pending

theorem startLoop_pending (line : Nat) (scope : FrameId) (block : Except Fault Closure)
    (gathered : Gathered) (members : List Value) :
    (m.startLoop line scope block gathered members).pending = m.pending := by
  cases block <;> rfl

theorem apply_pending (values : List Value) (use : Use) :
    (m.apply values use).pending = m.pending := by
  cases use with
  | members | builtin => rfl
  | call line callee => cases callee <;> rfl
  | method name nameSpan receiver frame =>
    cases receiver with
    | array id =>
      simp only [apply, dispatch, runMethod]
      repeat' split
      all_goals first | exact startLoop_pending .. | rfl
    | _ => rfl

variable (m) in
theorem stepExpr_stacks (frame : FrameId) (e : Expr) : Stacks m (m.stepExpr frame e) := by
  fun_cases stepExpr m frame e
  all_goals first | exact .inl rfl | exact .inr ⟨_, rfl, rfl⟩

variable (m) in
theorem stepStmt_stacks (frame : FrameId) (item : Stmt) : Stacks m (m.stepStmt frame item) := by
  fun_cases stepStmt m frame item with
  | case1 | case3 => exact .inr ⟨_, rfl, rfl⟩
  | case2 | case4 => exact .inl rfl

variable (m) in
theorem resume_stacks (v : Value) (p : Pending) : Stacks m (m.resume v p) := by
  fun_cases resume m v p with
  | case5 | case14 => exact .inr ⟨_, rfl, rfl⟩
  | _ => exact .inl rfl

namespace LoopsWait

theorem of_empty (empty : m.pending = []) : LoopsWait m := by
  refine ⟨?_, ?_⟩ <;> simp [empty]

variable (waits : LoopsWait m)

include waits

theorem top_of_busy (busy : m.control.calls = false) : ∀ p ∈ m.pending.head?, p.isLoop = false :=
  fun p first => eq_false_of_ne_true fun loops => by cases busy.symm.trans (waits.top p first loops)

theorem of_stacks (busy : m.control.calls = false) (goes : Stacks m next) : LoopsWait next := by
  have free := waits.top_of_busy busy
  rcases goes with same | ⟨q, other, pushed⟩
  · refine ⟨same ▸ waits.chain, fun p first loops => ?_⟩
    cases (free p (same ▸ first)).symm.trans loops
  · constructor <;> rw [pushed]
    · exact List.isChain_cons.mpr
        ⟨fun p first => Pending.before_of_single (free p first), waits.chain⟩
    · rintro p ⟨⟩ loops
      cases other.symm.trans loops

theorem rest {p : Pending} {rest : List Pending} (inside : m.pending = p :: rest) :
    rest.IsChain Pending.Before := by
  have chain := waits.chain
  rw [inside] at chain
  exact (List.isChain_cons.mp chain).2

theorem second {p : Pending} {rest : List Pending} (inside : m.pending = p :: rest)
    (stays : p.isLeave = false) : ∀ q ∈ rest.head?, q.isLoop = false := by
  have chain := waits.chain
  rw [inside] at chain
  exact fun q first => ((List.isChain_cons.mp chain).1 q first).single stays

theorem of_resume {v : Value} {p : Pending} {rest : List Pending} (inside : m.pending = p :: rest)
    (stays : p.isLeave = false) : LoopsWait ({ m with pending := rest }.resume v p) := by
  have free := waits.second inside stays
  have stripped : LoopsWait { m with pending := rest, control := .body [] ⟨0⟩ } :=
    ⟨waits.rest inside, fun q first loops => (nomatch (free q first).symm.trans loops)⟩
  exact stripped.of_stacks rfl (resume_stacks { m with pending := rest } v p)

theorem step (steps : m.step = some next) : LoopsWait next := by
  unfold Machine.step at steps
  split at steps
  case h_1 e frame here =>
    cases steps
    exact waits.of_stacks (by rw [here]; rfl) (m.stepExpr_stacks frame e)
  case h_2 use values frame here =>
    cases steps
    exact waits.of_stacks (by rw [here]; rfl) (.inl (apply_pending values.reverse use))
  case h_4 item frame here =>
    cases steps
    exact waits.of_stacks (by rw [here]; rfl) (m.stepStmt_stacks frame item)
  case h_8 line c values here =>
    split at steps <;> cases steps <;> exact waits.of_stacks (by rw [here]; rfl) (.inl rfl)
  case h_9 c scope bound _ =>
    obtain ⟨t, _, rfl⟩ := Option.map_eq_some_iff.mp steps
    exact ⟨waits.chain, fun _ _ _ => rfl⟩
  case h_10 c frame _ =>
    split at steps <;> cases steps
    · exact ⟨waits.chain, fun _ _ _ => rfl⟩
    · refine ⟨List.isChain_cons.mpr ⟨fun _ _ _ => rfl, waits.chain⟩, ?_⟩
      rintro p ⟨⟩ ⟨⟩
  case h_12 block scope gathered member rest here =>
    cases steps
    have free := waits.top_of_busy (by rw [here]; rfl)
    exact ⟨List.isChain_cons.mpr
      ⟨fun p first => Pending.before_of_single (free p first), waits.chain⟩, fun _ _ _ => rfl⟩
  case h_13 result here =>
    split at steps
    · cases steps
    · rename_i p rest inside
      split at steps <;> cases steps
      · cases leaving : p.isLeave with
        | true =>
          obtain ⟨lines, rfl⟩ := Pending.isLeave_iff.mp leaving
          exact ⟨waits.rest inside, fun _ _ _ => rfl⟩
        | false => exact waits.of_resume inside leaving
      · cases p <;> exact ⟨waits.rest inside, fun _ _ _ => congrArg Control.calls here⟩
  all_goals
    rename_i here
    cases steps
    exact waits.of_stacks (by rw [here]; rfl) (by first | exact .inl rfl | exact .inr ⟨_, rfl, rfl⟩)

theorem reaches (reached : Reaches m next) : LoopsWait next := by
  obtain ⟨n, reached⟩ := reached
  induction n generalizing m with
  | zero => exact Option.some.inj reached ▸ waits
  | succ n ih =>
    obtain ⟨t, steps, later⟩ := Option.bind_eq_some_iff.mp reached
    exact ih (waits.step steps) later

theorem of_returns {v : Value} {waiting : List Pending} (returns : m.Returns v waiting) :
    waiting.IsChain Pending.Before ∧ ∀ p ∈ waiting.head?, p.isLoop = false := by
  cases returns with
  | bare span frame control _ behind =>
    exact behind ▸ ⟨waits.chain, waits.top_of_busy (by rw [control]; rfl)⟩
  | value w control _ behind => exact ⟨waits.rest behind, waits.second behind rfl⟩

end LoopsWait

/-- What does not hand a `return` on and is not the end of the body. -/
def Pending.stops (v : Value) (p : Pending) : Prop :=
  (∃ use values more frame, p = .arg use values more frame) ∨ p.tests v = true ∨ p.takes = true

theorem Pending.place_cases (v : Value) {p : Pending} (single : p.isLoop = false) :
    p.passes v = true ∨ (∃ callers, p = .leave callers) ∨ p.stops v := by
  cases p with
  | right line op right frame =>
    match op with
    | .strict op => exact .inr (.inr (.inr (.inr rfl)))
    | .logic op =>
      cases needs : Task.needsRight v (.logic op) <;> simp [passes, stops, tests, needs]
  | loop => cases single
  | _ => simp [passes, stops, tests, takes]

theorem exists_place (v : Value) {waiting : List Pending} (chain : waiting.IsChain Pending.Before)
    (free : ∀ p ∈ waiting.head?, p.isLoop = false) :
    (∀ p ∈ waiting, p.passes v = true) ∨ ∃ inner p outer, waiting = inner ++ p :: outer ∧
      (∀ q ∈ inner, q.passes v = true) ∧ ((∃ callers, p = .leave callers) ∨ p.stops v) := by
  induction waiting with
  | nil => exact .inl (by simp)
  | cons p rest ih =>
    obtain ⟨behind, later⟩ := List.isChain_cons.mp chain
    rcases Pending.place_cases v (free p rfl) with passes | place
    · have stays : p.isLeave = false := by
        cases p <;> first | rfl | cases passes
      have free' : ∀ q ∈ rest.head?, q.isLoop = false := fun q first =>
        (behind q first).single stays
      rcases ih later free' with all | ⟨inner, q, outer, split, before, here⟩
      · exact .inl (List.forall_mem_cons.mpr ⟨passes, all⟩)
      · exact .inr ⟨p :: inner, q, outer, by rw [split]; rfl,
          List.forall_mem_cons.mpr ⟨passes, before⟩, here⟩
    · exact .inr ⟨[], p, rest, rfl, by simp, place⟩

end Loops

section Run

variable {m : Machine} {v : Value} {inner rest : List Pending}

theorem Returns.step (returns : m.Returns v rest) :
    m.step = some { m with pending := rest, control := .done (.ok (.returned v)) } := by
  cases returns with
  | bare span frame control nothing behind =>
    unfold Machine.step
    rw [control, ← behind, nothing]
    rfl
  | value w control unwrapped behind =>
    unfold Machine.step
    rw [control, behind, unwrapped]
    rfl

theorem after_passing (m : Machine) (passes : ∀ p ∈ inner, p.passes v = true) {k : Nat}
    (within : k ≤ inner.length) :
    after k { m with pending := inner ++ rest, control := .done (.ok (.returned v)) } =
      some { m with pending := inner.drop k ++ rest, control := .done (.ok (.returned v)) } := by
  induction inner generalizing k with
  | nil =>
    obtain rfl : k = 0 := Nat.le_zero.mp within
    rfl
  | cons p inner ih =>
    obtain ⟨first, others⟩ := List.forall_mem_cons.mp passes
    cases k with
    | zero => rfl
    | succ k =>
      have steps : Machine.step
          { m with pending := p :: inner ++ rest, control := .done (.ok (.returned v)) } =
          some { m with pending := inner ++ rest, control := .done (.ok (.returned v)) } :=
        congrArg some (resume_of_passes _ first)
      rw [after, steps]
      exact ih others (Nat.le_of_succ_le_succ within)

theorem Returns.after (returns : m.Returns v (inner ++ rest))
    (passes : ∀ p ∈ inner, p.passes v = true) {k : Nat} (within : k ≤ inner.length) :
    after (k + 1) m =
      some { m with pending := inner.drop k ++ rest, control := .done (.ok (.returned v)) } := by
  rw [Machine.after, returns.step]
  exact after_passing m passes within

theorem Returns.resumes {p : Pending} (returns : m.Returns v (inner ++ p :: rest))
    (passes : ∀ p ∈ inner, p.passes v = true) :
    Machine.after (inner.length + 2) m = some
      (Machine.resume { m with pending := rest, control := .done (.ok (.returned v)) }
        (.returned v) p) := by
  have through := returns.after passes (Nat.le_refl _)
  rw [List.drop_length, List.nil_append] at through
  rw [after_add (inner.length + 1) 1, through]
  rfl

theorem Does.runIn_eq {lines lines' : LineIndex} {depth depth' : Nat} {control : Control}
    {c : Eval Value} {s t : Store} {result : Except RuntimeError Value}
    (does : Does lines depth control c)
    (reached : Reaches ⟨s, lines, depth, [], control⟩ ⟨t, lines', depth', [], .done result⟩) :
    c.runIn s = (result, t) := by
  have same := (does [] s).unique (step_of_ended ⟨rfl, rfl⟩) reached (step_of_ended ⟨rfl, rfl⟩)
  injection same with stores _ _ _ results
  injection results with results
  rw [← stores, ← results]

theorem program_runIn {lines lines' : LineIndex} {depth : Nat} {s t : Store} {program : Program}
    {result : Except RuntimeError Value}
    (reached : Reaches ⟨s, lines, 0, [], .body program.body Store.globals⟩
      ⟨t, lines', depth, [], .done result⟩) :
    (program.eval lines).runIn s = (result.map Value.unwrap, t) := by
  obtain ⟨n, result', t', halted, ran⟩ := program_halts lines s program
  have same := Reaches.unique ⟨n, halted⟩ (step_of_ended ⟨rfl, rfl⟩) reached
    (step_of_ended ⟨rfl, rfl⟩)
  injection same with stores _ _ _ results
  injection results with results
  rw [ran, stores, results]

theorem Returns.leaves {callers : LineIndex}
    (returns : m.Returns v (inner ++ .leave callers :: rest))
    (passes : ∀ p ∈ inner, p.passes v = true) :
    Machine.after (inner.length + 2) m =
      some ⟨m.store, callers, m.depth - 1, rest, .done (.ok v)⟩ :=
  returns.resumes passes

theorem Returns.ends (returns : m.Returns v inner) (passes : ∀ p ∈ inner, p.passes v = true) :
    Machine.after (inner.length + 1) m =
      some { m with pending := [], control := .done (.ok (.returned v)) } := by
  rw [← List.append_nil inner] at returns
  have through := returns.after passes (Nat.le_refl _)
  rwa [List.drop_length] at through

theorem Returns.taken {p : Pending} (returns : m.Returns v (inner ++ p :: rest))
    (passes : ∀ p ∈ inner, p.passes v = true) (takes : p.takes = true) :
    ∃ next, Taken { m with pending := rest } v p next ∧
      Machine.after (inner.length + 2) m = some next :=
  ⟨_, resume_taken _ takes, returns.resumes passes⟩

end Run

/-- A `return` that is handed on ends the body at once: the frames of the body leave the stack with
    nothing evaluated, and the caller goes on with its value. So the call or callback has the value,
    and so has a program in which one ends no call. A member or an argument that a `return` ends has
    its value, and a condition goes on as with the value itself. Everything else takes the `return`
    for the value it waits for: the other operands are evaluated, and then it is refused, but by the
    operators `!`, `==` and `!=`. A `return` of a run comes to no other place. -/
theorem return_by_place (m : Machine) (v : Value) :
    (∀ (inner outer : List Pending) (callers : LineIndex),
      m.Returns v (inner ++ .leave callers :: outer) → (∀ p ∈ inner, p.passes v = true) →
      (∀ k ≤ inner.length, after (k + 1) m = some { m with
        pending := inner.drop k ++ .leave callers :: outer
        control := .done (.ok (.returned v)) }) ∧
      after (inner.length + 2) m = some ⟨m.store, callers, m.depth - 1, outer, .done (.ok v)⟩) ∧
    (∀ (s : Store) (lines callers : LineIndex) (depth : Nat) (inner : List Pending),
      m.Returns v (inner ++ [.leave callers]) → (∀ p ∈ inner, p.passes v = true) →
      (∀ line c values, Reaches ⟨s, lines, depth, [], .call line c values⟩ m →
        (c.call (enterWithin (maxDepth - depth)) line values).runIn s = (.ok v, m.store)) ∧
      ∀ (c : Closure) scope bound, (∀ binding ∈ bound, binding.1 < c.arity) →
        Reaches ⟨s, lines, depth, [], .invoke c scope bound⟩ m →
        (c.invoke (enterWithin (maxDepth - depth)) scope bound).runIn s = (.ok v, m.store)) ∧
    (∀ (s : Store) (lines : LineIndex) (program : Program) (inner : List Pending),
      Reaches ⟨s, lines, 0, [], .body program.body Store.globals⟩ m →
      m.Returns v inner → (∀ p ∈ inner, p.passes v = true) →
      after (inner.length + 1) m =
        some { m with pending := [], control := .done (.ok (.returned v)) } ∧
      (program.eval lines).runIn s = (.ok v, m.store)) ∧
    (∀ (inner outer : List Pending) (use : Use) (values : List Value) (more : List Expr)
      (frame : FrameId), m.Returns v (inner ++ .arg use values more frame :: outer) →
      (∀ p ∈ inner, p.passes v = true) →
      after (inner.length + 2) m =
        some { m with pending := outer, control := .args use (v :: values) more frame }) ∧
    (∀ (inner outer : List Pending) (test : Pending), m.Returns v (inner ++ test :: outer) →
      (∀ p ∈ inner, p.passes v = true) → test.tests v = true →
      after (inner.length + 2) m =
        Machine.step { m with pending := test :: outer, control := .done (.ok v) }) ∧
    (∀ (inner outer : List Pending) (p : Pending), m.Returns v (inner ++ p :: outer) →
      (∀ p ∈ inner, p.passes v = true) → p.takes = true →
      ∃ next, Taken { m with pending := outer } v p next ∧ after (inner.length + 2) m = some next) ∧
    (∀ before next, Spent m v before next → before.step = some next) ∧
    (∀ other : Value, m.store.valuesEqual (.returned v) other = true ↔
      ∃ w, other = .returned w ∧ m.store.valuesEqual v w = true) ∧
    ∀ (start : Machine) (waiting : List Pending), start.pending = [] → Reaches start m →
      m.Returns v waiting →
      (∀ p ∈ waiting, p.passes v = true) ∨ ∃ inner p outer, waiting = inner ++ p :: outer ∧
        (∀ q ∈ inner, q.passes v = true) ∧ ((∃ callers, p = .leave callers) ∨ p.stops v) := by
  refine ⟨fun inner outer callers returns passes => ?_,
    fun s lines callers depth inner returns passes => ?_,
    fun s lines program inner reached returns passes => ?_,
    fun inner outer use values more frame returns passes => returns.resumes passes,
    fun inner outer test returns passes tests => ?_,
    fun inner outer p returns passes takes => returns.taken passes takes,
    fun before next spent => spent.step m, fun other => Store.valuesEqual_returned_iff,
    fun start waiting empty reached returns => ?_⟩
  · exact ⟨fun k within => returns.after passes within, returns.leaves passes⟩
  · have ended : Reaches m ⟨m.store, callers, m.depth - 1, [], .done (.ok v)⟩ :=
      ⟨_, returns.leaves passes⟩
    have entering := enterWithin_entering depth
    refine ⟨fun line c values reached => ?_, fun c scope bound declared reached => ?_⟩
    · exact (call_does entering line c values).runIn_eq (reached.trans ended)
    · exact (invoke_does entering declared scope).runIn_eq (reached.trans ended)
  · have ended := returns.ends passes
    exact ⟨ended, program_runIn (reached.trans ⟨_, ended⟩)⟩
  · rw [returns.resumes passes, resume_of_tests _ tests (.done (.ok v))]
    rfl
  · obtain ⟨chain, free⟩ := ((LoopsWait.of_empty empty).reaches reached).of_returns returns
    exact exists_place v chain free

section Bodies

/-- The expression `if (true) { return e; }`. -/
def returning (e : Expr) : Expr :=
  .cond default (.bool default true) (.block default [.result default (some e)]) none

def returnsFive : Expr := returning (.int default 5)

def before7 (item : Stmt) : List Stmt := [item, .expr default (.int default 7)]

def functionOf (items : List Stmt) : Closure :=
  ⟨0, [], .block default items, Store.globals, ⟨[]⟩⟩

def callOf (c : Closure) : Machine := ⟨.initial, ⟨[]⟩, 0, [], .call 1 c []⟩

def startOf (items : List Stmt) : Machine := ⟨.initial, ⟨[]⟩, 0, [], .body items Store.globals⟩

/-- The value of a `return` is there, for which only `p` waits. -/
def fiveFor (p : Pending) : Machine := ⟨.initial, ⟨[]⟩, 0, [.result, p], .done (.ok (.int 5))⟩

/-- Bound to a name, the `return` ends the body and the program. As an element its value is taken,
    as a condition it is tested, and as the left operand of `+` it waits for the right one. -/
theorem return_by_place_five :
    ((functionOf (before7 (.bind default "x" returnsFive))).call enterFirst 1 []).runIn .initial =
      (.ok (.int 5), ⟨#[.empty none, .empty (some ⟨0⟩)], #[], 0, ""⟩) ∧
    (Program.eval ⟨[]⟩ ⟨before7 (.bind default "x" returnsFive)⟩).runIn .initial =
      (.ok (.int 5), .initial) ∧
    after 2 (fiveFor (.arg .members [] [] ⟨0⟩)) =
      some ⟨.initial, ⟨[]⟩, 0, [], .args .members [.int 5] [] ⟨0⟩⟩ ∧
    after 2 (fiveFor (.branch returnsFive none ⟨0⟩)) =
      Machine.step ⟨.initial, ⟨[]⟩, 0, [.branch returnsFive none ⟨0⟩], .done (.ok (.int 5))⟩ ∧
    after 2 (fiveFor (.right 1 (.strict .add) returnsFive ⟨0⟩)) =
      some ⟨.initial, ⟨[]⟩, 0, [.strict 1 .add (.returned (.int 5))], .expr returnsFive ⟨0⟩⟩ := by
  have passes (frame : FrameId) :
      ∀ p ∈ [Pending.bind "x" frame, .body (.expr default (.int default 7)) [] frame],
        p.passes (.int 5) = true := by simp [Pending.passes]
  have returns (p : Pending) : (fiveFor p).Returns (.int 5) ([] ++ [p]) :=
    .value (.int 5) rfl rfl rfl
  refine ⟨?call, ?program, ?element, ?condition, ?operand⟩
  case call =>
    obtain ⟨m, reached, returns, stored⟩ : ∃ m,
        Reaches (callOf (functionOf (before7 (.bind default "x" returnsFive)))) m ∧
        m.Returns (.int 5) ([.bind "x" ⟨1⟩, .body (.expr default (.int default 7)) [] ⟨1⟩] ++
          [.leave ⟨[]⟩]) ∧
        m.store = ⟨#[.empty none, .empty (some ⟨0⟩)], #[], 0, ""⟩ :=
      ⟨_, ⟨13, rfl⟩, .value (.int 5) rfl rfl rfl, rfl⟩
    obtain ⟨-, inCall, -⟩ := return_by_place m (.int 5)
    have ended := (inCall .initial ⟨[]⟩ ⟨[]⟩ 0 _ returns (passes ⟨1⟩)).1 1
      (functionOf (before7 (.bind default "x" returnsFive))) [] reached
    rwa [stored] at ended
  case program =>
    obtain ⟨m, reached, returns, stored⟩ : ∃ m,
        Reaches (startOf (before7 (.bind default "x" returnsFive))) m ∧
        m.Returns (.int 5) [.bind "x" ⟨0⟩, .body (.expr default (.int default 7)) [] ⟨0⟩] ∧
        m.store = .initial :=
      ⟨_, ⟨9, rfl⟩, .value (.int 5) rfl rfl rfl, rfl⟩
    obtain ⟨-, -, inProgram, -⟩ := return_by_place m (.int 5)
    have ended := (inProgram .initial ⟨[]⟩ ⟨before7 (.bind default "x" returnsFive)⟩ _
      reached returns (passes ⟨0⟩)).2
    rwa [stored] at ended
  case element =>
    obtain ⟨-, -, -, inMember, -⟩ := return_by_place (fiveFor (.arg .members [] [] ⟨0⟩)) (.int 5)
    exact inMember [] [] .members [] [] ⟨0⟩ (returns _) nofun
  case condition =>
    obtain ⟨-, -, -, -, inTest, -⟩ :=
      return_by_place (fiveFor (.branch returnsFive none ⟨0⟩)) (.int 5)
    exact inTest [] [] _ (returns _) nofun rfl
  case operand =>
    obtain ⟨-, -, -, -, -, inOperand, -⟩ :=
      return_by_place (fiveFor (.right 1 (.strict .add) returnsFive ⟨0⟩)) (.int 5)
    obtain ⟨next, taken, reached⟩ := inOperand [] [] _ (returns _) nofun rfl
    cases taken
    exact reached

/-- A call of the function has the value of each `return` that is executed in its body. -/
def EndsCall (items : List Stmt) : Prop :=
  ∀ (m : Machine) (v : Value) (waiting : List Pending), Reaches (callOf (functionOf items)) m →
    m.Returns v waiting → m.openBodies = 1 →
    (((functionOf items).call enterFirst 1 []).runIn .initial).1 = .ok v

/-- A program has the value of each `return` that is executed at its top level. -/
def EndsProgram (items : List Stmt) : Prop :=
  ∀ (m : Machine) (v : Value) (waiting : List Pending), Reaches (startOf items) m →
    m.Returns v waiting → m.openBodies = 0 →
    ((Program.eval ⟨[]⟩ ⟨items⟩).runIn .initial).1 = .ok v

section Refuted

variable {items : List Stmt} {m : Machine} {w : Value} {waiting : List Pending} {t : Store}
  {result : Except RuntimeError Value}

theorem not_endsCall (reached : Reaches (callOf (functionOf items)) m)
    (there : m.control = .done (.ok w)) (behind : m.pending = .result :: waiting)
    (own : m.openBodies = 1)
    (ended : Reaches (callOf (functionOf items)) ⟨t, ⟨[]⟩, 0, [], .done result⟩)
    (other : result ≠ .ok w.unwrap) : ¬EndsCall items := by
  intro claim
  have promised := claim m w.unwrap waiting reached (.value w there rfl behind) own
  have ran := (call_does (enterWithin_entering 0) _ _ _).runIn_eq ended
  exact other ((congrArg Prod.fst ran).symm.trans promised)

theorem not_endsProgram (reached : Reaches (startOf items) m) (there : m.control = .done (.ok w))
    (behind : m.pending = .result :: waiting) (own : m.openBodies = 0)
    (ended : Reaches (startOf items) ⟨t, ⟨[]⟩, 0, [], .done result⟩)
    (other : result.map Value.unwrap ≠ .ok w.unwrap) : ¬EndsProgram items := by
  intro claim
  have promised := claim m w.unwrap waiting reached (.value w there rfl behind) own
  have ran : (Program.eval ⟨[]⟩ ⟨items⟩).runIn .initial = (result.map Value.unwrap, t) :=
    program_runIn ended
  exact other ((congrArg Prod.fst ran).symm.trans promised)

end Refuted

/-- An expression for each kind of place where evaluation goes on behind a `return`. The value is
    5, and for `||`, which goes on behind a false one, it is `false`. -/
def goingOn : List Expr :=
  [.array default [returnsFive],
    .call default (.function default ["x"] (.block default [])) [returnsFive],
    .method default (.array default []) "push" default [returnsFive],
    .cond default returnsFive (.block default []) none,
    .binary default (.logic .and) returnsFive (.int default 6),
    .binary default (.logic .or) (returning (.bool default false)) (.int default 6),
    .binary default (.strict .eq) returnsFive (.int default 5),
    .binary default (.strict .eq) (.int default 5) returnsFive,
    .binary default (.strict .add) returnsFive (.int default 1),
    .binary default (.strict .add) (.int default 1) returnsFive,
    .unary default .not returnsFive,
    .unary default .neg returnsFive,
    .call default returnsFive [],
    .method default returnsFive "len" default [],
    .index default returnsFive (.int default 0),
    .index default (.array default []) returnsFive]

/-- At none of these places a `return` ends the body: the value is 7, or the `return` is refused. -/
theorem return_goes_on : goingOn.Forall fun e =>
    ¬EndsCall (before7 (.expr default e)) ∧ ¬EndsProgram (before7 (.expr default e)) := by
  refine ⟨?_, ?_, ?_, ?_, ?_, ?_, ?_, ?_, ?_, ?_, ?_, ?_, ?_, ?_, ?_, ?_⟩
  · exact ⟨not_endsCall ⟨15, rfl⟩ rfl rfl rfl ⟨23, rfl⟩ nofun,
      not_endsProgram ⟨11, rfl⟩ rfl rfl rfl ⟨18, rfl⟩ nofun⟩
  · exact ⟨not_endsCall ⟨17, rfl⟩ rfl rfl rfl ⟨31, rfl⟩ nofun,
      not_endsProgram ⟨13, rfl⟩ rfl rfl rfl ⟨26, rfl⟩ nofun⟩
  · exact ⟨not_endsCall ⟨18, rfl⟩ rfl rfl rfl ⟨26, rfl⟩ nofun,
      not_endsProgram ⟨14, rfl⟩ rfl rfl rfl ⟨21, rfl⟩ nofun⟩
  · exact ⟨not_endsCall ⟨14, rfl⟩ rfl rfl rfl ⟨23, rfl⟩ nofun,
      not_endsProgram ⟨10, rfl⟩ rfl rfl rfl ⟨18, rfl⟩ nofun⟩
  · exact ⟨not_endsCall ⟨14, rfl⟩ rfl rfl rfl ⟨22, rfl⟩ nofun,
      not_endsProgram ⟨10, rfl⟩ rfl rfl rfl ⟨17, rfl⟩ nofun⟩
  · exact ⟨not_endsCall ⟨14, rfl⟩ rfl rfl rfl ⟨22, rfl⟩ nofun,
      not_endsProgram ⟨10, rfl⟩ rfl rfl rfl ⟨17, rfl⟩ nofun⟩
  · exact ⟨not_endsCall ⟨14, rfl⟩ rfl rfl rfl ⟨23, rfl⟩ nofun,
      not_endsProgram ⟨10, rfl⟩ rfl rfl rfl ⟨18, rfl⟩ nofun⟩
  · exact ⟨not_endsCall ⟨16, rfl⟩ rfl rfl rfl ⟨23, rfl⟩ nofun,
      not_endsProgram ⟨12, rfl⟩ rfl rfl rfl ⟨18, rfl⟩ nofun⟩
  · exact ⟨not_endsCall ⟨14, rfl⟩ rfl rfl rfl ⟨20, rfl⟩ nofun,
      not_endsProgram ⟨10, rfl⟩ rfl rfl rfl ⟨15, rfl⟩ nofun⟩
  · exact ⟨not_endsCall ⟨16, rfl⟩ rfl rfl rfl ⟨20, rfl⟩ nofun,
      not_endsProgram ⟨12, rfl⟩ rfl rfl rfl ⟨15, rfl⟩ nofun⟩
  · exact ⟨not_endsCall ⟨14, rfl⟩ rfl rfl rfl ⟨21, rfl⟩ nofun,
      not_endsProgram ⟨10, rfl⟩ rfl rfl rfl ⟨16, rfl⟩ nofun⟩
  · exact ⟨not_endsCall ⟨14, rfl⟩ rfl rfl rfl ⟨18, rfl⟩ nofun,
      not_endsProgram ⟨10, rfl⟩ rfl rfl rfl ⟨13, rfl⟩ nofun⟩
  · exact ⟨not_endsCall ⟨14, rfl⟩ rfl rfl rfl ⟨19, rfl⟩ nofun,
      not_endsProgram ⟨10, rfl⟩ rfl rfl rfl ⟨14, rfl⟩ nofun⟩
  · exact ⟨not_endsCall ⟨14, rfl⟩ rfl rfl rfl ⟨19, rfl⟩ nofun,
      not_endsProgram ⟨10, rfl⟩ rfl rfl rfl ⟨14, rfl⟩ nofun⟩
  · exact ⟨not_endsCall ⟨14, rfl⟩ rfl rfl rfl ⟨20, rfl⟩ nofun,
      not_endsProgram ⟨10, rfl⟩ rfl rfl rfl ⟨15, rfl⟩ nofun⟩
  · exact ⟨not_endsCall ⟨17, rfl⟩ rfl rfl rfl ⟨21, rfl⟩ nofun,
      not_endsProgram ⟨13, rfl⟩ rfl rfl rfl ⟨16, rfl⟩ nofun⟩

end Bodies

end Machine

end MonkeyLang
