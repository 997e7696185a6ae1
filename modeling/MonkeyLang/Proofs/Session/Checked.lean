import MonkeyLang.Proofs.Eval.Checked
import MonkeyLang.Proofs.Eval.Origin
import MonkeyLang.Proofs.Session.Registers
import MonkeyLang.Proofs.Text.Slices

namespace MonkeyLang

namespace Machine

def ending (m : Machine) (outcome : Except RuntimeError Value × Store) : Machine :=
  { m with store := outcome.2, control := .done outcome.1 }

def wordApply (m : Machine) (values : List Value) : Use → Option Machine
  | .builtin line builtin => (builtin.run? line m.store values).map m.ending
  | .method name nameSpan (.array id) frame =>
    match ArrayMethod.ofName? name with
    | some method =>
      if method.arity.accepts values.length && !method.callsBack then
        (method.run? noCalls (m.lineOf nameSpan) frame id values m.store).map m.ending
      else some (m.apply values (.method name nameSpan (.array id) frame))
    | none => some (m.apply values (.method name nameSpan (.array id) frame))
  | use => some (m.apply values use)

def told (m : Machine) (line : Nat) (result : Except Fault Value) : Machine :=
  m.finish (Eval.ofExcept line result)

def wordResume (m : Machine) (v : Value) : Pending → Option Machine
  | .strict line op left => ((BinOp.strict op).answer? m.store left v).map (m.told line)
  | .index line target => (m.store.index? target v).map (m.told line)
  | .leave lines =>
    (minus? m.depth 1).map fun depth => { m with lines, depth, control := .done (.ok v.unwrap) }
  | pending => some (m.resume v pending)

def wordUnwind (m : Machine) : Pending → Option Machine
  | .leave lines => (minus? m.depth 1).map fun depth => { m with lines, depth }
  | _ => some m

/-- One step in machine words. There is none where an operation is not defined. -/
def wordStep (m : Machine) : Option Machine :=
  match m.control with
  | .args use values [] _ => m.wordApply values.reverse use
  | .done result =>
    match m.pending with
    | [] => none
    | pending :: rest =>
      match result with
      | .ok v => { m with pending := rest }.wordResume v pending
      | .error _ => { m with pending := rest }.wordUnwind pending
  | _ => m.step

/-- The arrays and the strings among the values that are about to be used have sizes that a machine
    has room for. -/
structure Fits (m : Machine) : Prop where
  arrays : m.store.Fits
  strings : ∀ use values frame, m.control = .args use values [] frame →
    ∀ t, .str t ∈ values → t.length < 2 ^ 63

section Words

variable {m : Machine}

theorem wordApply_eq (fits : m.store.Fits) {values : List Value}
    (short : ∀ t, .str t ∈ values → t.length < 2 ^ 63) (use : Use) :
    m.wordApply values use = some (m.apply values use) := by
  fun_cases wordApply m values use with
  | case1 line builtin =>
    rw [Builtin.run?_eq fits line values short]
    rfl
  | case2 name nameSpan id frame method named alone =>
    rw [Bool.and_eq_true, Bool.not_eq_true'] at alone
    rw [ArrayMethod.run?_eq fits]
    simp only [apply, dispatch, named, alone.1, if_true, Option.map_some]
    rw [runMethod_plain alone.2 noCalls]
    rfl
  | _ => rfl

theorem wordResume_eq (m : Machine) (fits : m.store.Fits) (v : Value) {pending : Pending}
    (opened : pending.isLeave = true → 1 ≤ m.depth) :
    m.wordResume v pending = some (m.resume v pending) := by
  fun_cases wordResume m v pending with
  | case1 line op left =>
    rw [BinOp.answer?_eq]
    rfl
  | case2 line target =>
    rw [Store.index?_eq fits]
    rfl
  | case3 lines =>
    rw [minus?, if_pos (opened rfl)]
    rfl
  | case4 => rfl

theorem wordUnwind_eq (m : Machine) {pending : Pending}
    (opened : pending.isLeave = true → 1 ≤ m.depth) :
    m.wordUnwind pending = some (m.unwind pending) := by
  cases pending with
  | leave lines =>
    rw [wordUnwind, minus?, if_pos (opened rfl)]
    rfl
  | _ => rfl

theorem Counted.depth_pos (counted : Counted m) {pending : Pending} {rest : List Pending}
    (inside : m.pending = pending :: rest) (leaves : pending.isLeave = true) : 1 ≤ m.depth := by
  rw [counted.depth, openBodies, inside, List.countP_cons_of_pos leaves]
  exact Nat.le_add_left ..

theorem wordStep_eq (counted : Counted m) (fits : m.Fits) : m.wordStep = m.step := by
  fun_cases wordStep m with
  | case1 use values frame control =>
    have short (t : String) (member : .str t ∈ values.reverse) : t.length < 2 ^ 63 :=
      fits.strings use values frame control t (List.mem_reverse.mp member)
    rw [wordApply_eq fits.arrays short, step, control]
  | case2 result ended empty => rw [step_of_ended ⟨empty, ended⟩]
  | case3 pending rest inside v ended =>
    rw [wordResume_eq { m with pending := rest } fits.arrays v (counted.depth_pos inside)]
    unfold step
    rw [ended, inside]
  | case4 pending rest inside e ended =>
    rw [wordUnwind_eq { m with pending := rest } (counted.depth_pos inside)]
    unfold step
    rw [ended, inside]
  | case5 => rfl

theorem declared_of_bindAll? {c : Closure} {frame : FrameId} {bound : List (Nat × Value)}
    {s t : Store} (found : bindAll? c frame bound s = some t) :
    ∀ binding ∈ bound, binding.1 < c.arity := by
  induction bound generalizing s with
  | nil => simp
  | cons binding rest ih =>
    obtain ⟨index, v⟩ := binding
    rw [bindAll?] at found
    cases named : c.params[index]? with
    | none =>
      rw [named] at found
      cases found
    | some name =>
      rw [named] at found
      exact List.forall_mem_cons.mpr ⟨(List.getElem?_eq_some_iff.mp named).1, ih found⟩

end Words

end Machine

namespace Interpreter

open Machine (Counted Reaches)

/-- Everything that is only computed where it is defined is defined there. What is taken for a
    string literal has its two quotes, with its inside between them; the line of a report has a
    place; a function is only entered with parameters that it has. A program runs to its end
    without being stuck before; and where it has room, each of its steps is one in machine words:
    the operators are strict ones, no divisor is zero, no sum, difference or length leaves its
    range, and the members and arguments that are read are there. -/
theorem operations_defined :
    (∀ text rule n, LexicalRule.longest text = some (rule, n) → rule.kind = some .string →
      ∃ body, text.take n = '"' :: (body ++ ['"']) ∧ Text.inner (text.take n) = body ∧
        Text.inner? (text.take n) = some body) ∧
    (∀ text line length, (LineIndex.ofText text).lineRange? line length =
      some ((LineIndex.ofText text).lineRange line length)) ∧
    (∀ (task : Task) room c scope bound s t, task.Starts s (.invoke room c scope bound) t →
      ∀ frame u, ∃ v, (c.bindParams frame bound).runIn u = (.ok (), v)) ∧
    ∀ texts, ∃ i, (∀ j, Session initial texts j ↔ j = i) ∧ i.store = .session texts ∧
      ∀ text program, Program.ofText text = .ok program →
        (∃ result t, Reaches (i.start text program) ⟨t, .ofText text, 0, [], .done result⟩ ∧
          (program.eval (.ofText text)).runIn i.store = (result.map Value.unwrap, t)) ∧
        ∀ m, Reaches (i.start text program) m →
          (m.step = none → m.pending = [] ∧ ∃ result, m.control = .done result) ∧
          (∀ c scope bound, m.control = .invoke c scope bound →
            ∀ binding ∈ bound, binding.1 < c.arity) ∧
          (m.Fits → m.wordStep = m.step) := by
  refine ⟨fun text rule n found => LexicalRule.inner?_of_longest found,
    fun text line length => LineIndex.lineRange?_ofText text line length,
    fun task room c scope bound s t starts frame u => ?_, fun texts => ?_⟩
  · obtain ⟨v, -, ran⟩ := Machine.bindAll?_eq starts.declared frame u
    exact ⟨v, ran⟩
  obtain ⟨free, stored⟩ := foldl_next (i := initial) rfl texts
  refine ⟨texts.foldl next initial, fun j => session_iff rfl texts, stored,
    fun text program _ => ⟨start_ends free text program, fun m reached => ?_⟩⟩
  obtain ⟨result, t, ends, -⟩ := start_ends free text program
  have stuck (stopped : m.step = none) : m.pending = [] ∧ ∃ result, m.control = .done result := by
    obtain rfl := ends.unique (Machine.step_of_ended ⟨rfl, rfl⟩) reached stopped
    exact ⟨rfl, result, rfl⟩
  have start : Counted ((texts.foldl next initial).start text program) := ⟨free, Nat.zero_le _⟩
  obtain ⟨k, steps⟩ := reached
  refine ⟨stuck, fun c scope bound entering => ?_, Machine.wordStep_eq (start.after steps)⟩
  cases bindable : Machine.bindAll? c (m.store.child scope).1 bound (m.store.child scope).2 with
  | some u => exact Machine.declared_of_bindAll? bindable
  | none =>
    have stopped : m.step = none := by
      rw [Machine.step, entering]
      exact congrArg (Option.map _) bindable
    obtain ⟨-, result, ended⟩ := stuck stopped
    cases entering.symm.trans ended

end Interpreter

end MonkeyLang
