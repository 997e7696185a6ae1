import MonkeyLang.Proofs.Eval.Invariant
import MonkeyLang.Proofs.Eval.Plain
import MonkeyLang.Session

namespace MonkeyLang

namespace Task

def Ready : Task → Prop
  | call _ _ _ values | method _ _ _ _ _ values => ∀ v ∈ values, v.Plain
  | invoke _ _ _ bound | params _ _ bound => ∀ binding ∈ bound, binding.2.Plain
  | expr .. | args .. | stmt .. | body .. => True

/-- Syntax ends in results of evaluation; arguments, calls and methods end in plain values. -/
def Good : (task : Task) → task.Output → Prop
  | expr .. | stmt .. | body .. => Value.Result
  | args .. => fun values => ∀ v ∈ values, v.Plain
  | params .. => fun _ => True
  | call .. | invoke .. | method .. => Value.Plain

theorem keepsPlain (task : Task) (ready : task.Ready) : Eval.KeepsPlain task.eval task.Good := by
  have entering (room : Nat) := enterWithin_keepsPlain room
  cases task with
  | expr site e => exact e.eval_keepsPlain site.lines site.frame (entering site.room)
  | args site es => exact evalArgs_keepsPlain site.lines site.frame (entering site.room) es
  | stmt site item => exact item.eval_keepsPlain site.lines site.frame (entering site.room)
  | body site items => exact evalBody_keepsPlain site.lines site.frame (entering site.room) items
  | call room line c values => exact c.call_keepsPlain (entering room) line values ready
  | invoke room c scope bound => exact c.invoke_keepsPlain (entering room) scope bound ready
  | params c frame bound => exact c.bindParams_keepsPlain frame bound ready
  | method room line scope name id values =>
    exact ArrayMethod.dispatch_keepsPlain (entering room) line scope name id values ready

theorem Ends.plain {task : Task} {s t : Store} {output : task.Output} (ends : task.Ends s output t)
    (ready : task.Ready) (plain : s.Plain) : task.Good output ∧ t.Plain :=
  (task.keepsPlain ready).ok plain ends

def plainly : Invariant where
  corpus := .all
  value := Value.Plain
  result := Value.Result
  closure _ _ := rfl
  entered _ _ := trivial

theorem plainly_given (task : Task) : plainly.Given task ↔ task.Ready := by
  cases task with
  | expr => exact Iff.rfl
  | args | stmt => exact ⟨fun _ => trivial, fun _ _ _ => trivial⟩
  | body => exact ⟨fun _ => trivial, fun _ => Corpus.all_hasBody _ _⟩
  | call | invoke => exact ⟨And.right, fun ready => ⟨rfl, ready⟩⟩
  | params | method => exact Iff.rfl

theorem plainly_kept : plainly.Kept := by
  intro task s t output ends given holds
  obtain ⟨good, plain⟩ := ends.plain ((plainly_given task).mp given) holds.plain
  refine ⟨?_, plain.holds⟩
  cases task <;> exact good

theorem Within.preserves {task part : Task} {s t : Store} (within : task.Within s part t)
    (ready : task.Ready) (plain : s.Plain) : part.Ready ∧ t.Plain := by
  obtain ⟨given, holds⟩ := plainly_kept.within within ((plainly_given task).mpr ready) plain.holds
  exact ⟨(plainly_given part).mp given, holds.plain⟩

end Task

def Program.task (text : List Char) (program : Program) : Task :=
  .body ⟨maxDepth, LineIndex.ofText text, Store.globals⟩ program.body

theorem Program.eval_keepsPlain (lines : LineIndex) (program : Program) :
    Eval.KeepsPlain (program.eval lines) Value.Plain := by
  have body := evalBody_keepsPlain lines Store.globals (enterWithin_keepsPlain maxDepth)
  exact .bind (body program.body) fun value ends => .pure ends

theorem Store.Plain.run {s : Store} (plain : s.Plain) (text : List Char) :
    (s.run text).2.Plain ∧ (∀ v, (s.run text).1 = .ok v → v.Plain) ∧
      ∀ e, (s.run text).1 = .error (.runtime e) → e.fault.Usual := by
  unfold Store.run
  split
  · exact ⟨plain, fun v same => (nomatch same), fun e same => nomatch same⟩
  · rename_i program _
    have keeps := program.eval_keepsPlain (LineIndex.ofText text)
    split
    · rename_i value t ran
      obtain ⟨value, kept⟩ := keeps.ok plain ran
      exact ⟨kept, fun v same => Except.ok.inj same ▸ value, fun e same => nomatch same⟩
    · rename_i e t ran
      obtain ⟨usual, kept⟩ := keeps.error plain ran
      refine ⟨kept, fun v same => (nomatch same), fun e same => ?_⟩
      cases same
      exact usual

theorem Store.session_plain (texts : List (List Char)) : (session texts).Plain := by
  unfold session
  have run_all (s : Store) (plain : s.Plain) :
      (texts.foldl (fun s text => (s.run text).2) s).Plain := by
    induction texts generalizing s with
    | nil => exact plain
    | cons text rest ih => exact ih _ (plain.run text).1
  exact run_all initial plain_initial

/-- After every session and all the way through the next source text, no array and no frame holds
    a `return`; syntax ends in at most one wrapper, calls and methods and the text itself in none;
    and the codec's complaint is not among the errors. -/
theorem Store.return_never_escapes (texts : List (List Char)) (text : List Char) :
    let s := session texts
    s.Plain ∧ (s.run text).2.Plain ∧ (∀ v, (s.run text).1 = .ok v → v.Plain) ∧
      (∀ e, (s.run text).1 = .error (.runtime e) → e.fault ≠ .encode .escapedReturn) ∧
      ∀ program, Program.ofText text = .ok program →
        ∀ task t, (program.task text).Within s task t →
          t.Plain ∧ (∀ output u, task.Ends t output u → task.Good output ∧ u.Plain) ∧
            ∀ e u, task.eval.runIn t = (.error e, u) →
              e.fault ≠ .encode .escapedReturn ∧ u.Plain := by
  intro s
  have plain : s.Plain := session_plain texts
  obtain ⟨after, value, failed⟩ := plain.run text
  refine ⟨plain, after, value, failed, fun program _ task t within => ?_⟩
  obtain ⟨ready, here⟩ := within.preserves trivial plain
  refine ⟨here, fun output u ends => ends.plain ready here, fun e u ran => ?_⟩
  exact (task.keepsPlain ready).error here ran

end MonkeyLang
