import MonkeyLang.Proofs.Eval.Registers

namespace MonkeyLang

/-- What stays between source texts: the store and the registers of the machine. -/
structure Interpreter where
  store : Store
  lines : LineIndex
  depth : Nat

namespace Interpreter

def initial : Interpreter := ⟨.initial, ⟨[]⟩, 0⟩

/-- The machine at the start of a program. The table of lines is set anew; the number of open
    bodies is the one that the source texts before it left. -/
def start (i : Interpreter) (text : List Char) (program : Program) : Machine :=
  ⟨i.store, .ofText text, i.depth, [], .body program.body Store.globals⟩

inductive Runs (i : Interpreter) (text : List Char) : Except Failure Value → Interpreter → Prop
  | rejected {e : SourceError} (rejected : Program.ofText text = .error e) :
      Runs i text (.error (.source e)) i
  | ran {program : Program} {m : Machine} {result : Except RuntimeError Value}
      (accepted : Program.ofText text = .ok program)
      (reached : Machine.Reaches (i.start text program) m)
      (ended : m.pending = [] ∧ m.control = .done result) :
      Runs i text ((result.map Value.unwrap).mapError .runtime) ⟨m.store, m.lines, m.depth⟩

inductive Session : Interpreter → List (List Char) → Interpreter → Prop
  | done (i : Interpreter) : Session i [] i
  | run {i j k : Interpreter} {text : List Char} {rest : List (List Char)}
      {outcome : Except Failure Value} (runs : i.Runs text outcome j) (later : Session j rest k) :
      Session i (text :: rest) k

end Interpreter

namespace Machine

theorem step_of_ended {m : Machine} {result : Except RuntimeError Value}
    (ended : m.pending = [] ∧ m.control = .done result) : m.step = none := by
  unfold step
  rw [ended.2, ended.1]

theorem after_of_stopped {m : Machine} (stopped : m.step = none) {n : Nat} {t : Machine}
    (reached : after n m = some t) : t = m := by
  cases n with
  | zero => exact (Option.some.inj reached).symm
  | succ n =>
    rw [after, stopped] at reached
    cases reached

theorem Reaches.unique {m t u : Machine} (first : Reaches m t) (stopped : t.step = none)
    (second : Reaches m u) (stopped' : u.step = none) : t = u := by
  obtain ⟨k, reached⟩ := first
  obtain ⟨n, reached'⟩ := second
  rcases Nat.le_total k n with le | le
  · obtain ⟨more, rfl⟩ := Nat.exists_eq_add_of_le le
    rw [after_add, reached] at reached'
    exact (after_of_stopped stopped reached').symm
  · obtain ⟨more, rfl⟩ := Nat.exists_eq_add_of_le le
    rw [after_add, reached'] at reached
    exact after_of_stopped stopped' reached

end Machine

namespace Interpreter

open Machine (Does Reaches)

variable {i j : Interpreter} {text : List Char} {outcome : Except Failure Value}

theorem Runs.of_rejected {e : SourceError} (rejected : Program.ofText text = .error e)
    (runs : i.Runs text outcome j) : outcome = .error (.source e) ∧ j = i := by
  cases runs with
  | rejected rejected' =>
    cases rejected.symm.trans rejected'
    exact ⟨rfl, rfl⟩
  | ran accepted => cases rejected.symm.trans accepted

def next (i : Interpreter) (text : List Char) : Interpreter where
  store := (i.store.run text).2
  lines := if (Program.ofText text).isOk then .ofText text else i.lines
  depth := 0

theorem start_ends (free : i.depth = 0) (text : List Char) (program : Program) : ∃ result t,
    Reaches (i.start text program) ⟨t, .ofText text, 0, [], .done result⟩ ∧
      (program.eval (.ofText text)).runIn i.store = (result.map Value.unwrap, t) := by
  obtain ⟨n, result, t, reached, ran⟩ := Machine.program_halts (.ofText text) i.store program
  refine ⟨result, t, ⟨n, ?_⟩, ran⟩
  unfold start
  rw [free]
  exact reached

theorem runs_iff (free : i.depth = 0) :
    i.Runs text outcome j ↔ outcome = (i.store.run text).1 ∧ j = i.next text := by
  cases parsed : Program.ofText text with
  | error e =>
    have stays : i.next text = i := by
      obtain ⟨s, lines, depth⟩ := i
      cases free
      simp [next, Store.run, parsed, Except.isOk, Except.toBool]
    have answer : (i.store.run text).1 = .error (.source e) := by simp [Store.run, parsed]
    rw [stays, answer]
    refine ⟨fun runs => runs.of_rejected parsed, ?_⟩
    rintro ⟨rfl, rfl⟩
    exact .rejected parsed
  | ok program =>
    obtain ⟨result, t, ends, ran⟩ := start_ends free text program
    have left : i.next text = ⟨t, .ofText text, 0⟩ := by
      cases result <;> simp [next, Store.run, parsed, ran, Except.isOk, Except.toBool, Except.map]
    have answer : (i.store.run text).1 = (result.map Value.unwrap).mapError .runtime := by
      rw [Store.run, parsed]
      dsimp only
      rw [ran]
      cases result <;> rfl
    rw [left, answer]
    constructor
    · rintro (rejected | ⟨accepted, reached', ended⟩)
      · cases parsed.symm.trans rejected
      · cases parsed.symm.trans accepted
        have stopped := Machine.step_of_ended ended
        obtain rfl := ends.unique (Machine.step_of_ended ⟨rfl, rfl⟩) reached' stopped
        cases ended.2
        exact ⟨rfl, rfl⟩
    · rintro ⟨rfl, rfl⟩
      exact .ran parsed ends ⟨rfl, rfl⟩

theorem session_iff (free : i.depth = 0) (texts : List (List Char)) :
    Session i texts j ↔ j = texts.foldl next i := by
  induction texts generalizing i with
  | nil =>
    refine ⟨fun session => ?_, fun same => same ▸ .done i⟩
    cases session
    rfl
  | cons text rest ih =>
    refine Iff.trans ⟨fun session => ?_, fun later => ?_⟩ (ih (i := i.next text) rfl)
    · cases session with
      | run runs later =>
        obtain ⟨_, rfl⟩ := (runs_iff free).mp runs
        exact later
    · exact .run ((runs_iff free).mpr ⟨rfl, rfl⟩) later

theorem foldl_next (free : i.depth = 0) (texts : List (List Char)) :
    (texts.foldl next i).depth = 0 ∧
      (texts.foldl next i).store = texts.foldl (fun s text => (s.run text).2) i.store := by
  induction texts generalizing i with
  | nil => exact ⟨free, rfl⟩
  | cons text rest ih => exact ih rfl

/-- An expression, a call or a method of an array ends in every state with the registers that it
    started with, whether with a value or an error. A session leads to one state, in which no body
    is open, so every source text has the result it has with all bodies to open; one that is
    rejected changes nothing. While one runs, the register holds the number of the open bodies. A
    body is opened where these are fewer than may be, and refused where they are not; nothing else
    overflows. -/
theorem registers_set_back :
    (∀ lines depth frame (e : Expr),
      Does lines depth (.expr e frame) (e.eval (enterWithin (maxDepth - depth)) lines frame)) ∧
    (∀ lines depth line c values,
      Does lines depth (.call line c values)
        (c.call (enterWithin (maxDepth - depth)) line values)) ∧
    (∀ lines depth name nameSpan scope id values frame,
      Does lines depth (.args (.method name nameSpan (.array id) scope) values [] frame)
        (ArrayMethod.dispatch (enterWithin (maxDepth - depth)) (lines.lineOf nameSpan.start) scope
          name id values.reverse)) ∧
    ∀ texts, ∃ i, (∀ j, Session initial texts j ↔ j = i) ∧ i.store = .session texts ∧ i.depth = 0 ∧
      ∀ text,
        (∃ j, ∀ outcome j', i.Runs text outcome j' ↔ outcome = (i.store.run text).1 ∧ j' = j) ∧
        (∀ e, Program.ofText text = .error e →
          ∀ outcome j, i.Runs text outcome j → outcome = .error (.source e) ∧ j = i) ∧
        ∀ program, Program.ofText text = .ok program →
          ∀ m, Reaches (i.start text program) m → m.depth = m.openBodies ∧
            (∀ next, m.step = some next → (m.Overflows next ↔
              (∃ c frame, m.control = .enter c frame) ∧ m.openBodies = maxDepth)) ∧
            ∀ c frame, m.control = .enter c frame → m.openBodies ≠ maxDepth →
              m.step = some ⟨m.store, c.lines, m.depth + 1, .leave m.lines :: m.pending,
                .expr c.body frame⟩ := by
  have entering (depth : Nat) := Machine.enterWithin_entering depth
  refine ⟨fun lines depth frame e => Machine.expr_does (entering depth) e,
    fun lines depth line c values => Machine.call_does (entering depth) line c values,
    fun lines depth name nameSpan scope id values frame pending s => ?_, fun texts => ?_⟩
  · exact .step rfl
      (Machine.dispatch_ends (entering depth) pending s _ _ scope name id values.reverse)
  · obtain ⟨free, stored⟩ := foldl_next (i := initial) rfl texts
    refine ⟨texts.foldl next initial, fun j => session_iff rfl texts, stored, free, fun text => ?_⟩
    refine ⟨⟨_, fun outcome j' => runs_iff free⟩, fun e rejected outcome j runs =>
      runs.of_rejected rejected, fun program accepted m ⟨n, reached⟩ => ?_⟩
    have start : Machine.Counted ((texts.foldl next initial).start text program) :=
      ⟨free, Nat.zero_le _⟩
    have counted : m.Counted := start.after reached
    exact ⟨counted.depth, fun next => counted.overflows_iff, fun c frame => counted.opens⟩

end Interpreter

end MonkeyLang
