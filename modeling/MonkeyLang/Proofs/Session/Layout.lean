import Mathlib
import MonkeyLang.Proofs.Eval.Places
import MonkeyLang.Session

namespace MonkeyLang

inductive Failure.Alike : Failure → Failure → Prop
  | source (error : SourceError) : Alike (.source error) (.source error)
  | runtime (fault : Fault) (line line' : Nat) :
      Alike (.runtime ⟨fault, line⟩) (.runtime ⟨fault, line'⟩)

/-- Two runs come to the same and leave the same store, but for places: the values, bindings and
    members of arrays are the same, and so is what was printed. -/
inductive RunsAlike : Except Failure Value × Store → Except Failure Value × Store → Prop
  | value {v w : Value} {s t : Store} (values : v.unplaced = w.unplaced)
      (stores : s.unplaced = t.unplaced) : RunsAlike (.ok v, s) (.ok w, t)
  | failure {e f : Failure} {s t : Store} (failures : e.Alike f)
      (stores : s.unplaced = t.unplaced) : RunsAlike (.error e, s) (.error f, t)

theorem RunsAlike.stores {a b : Except Failure Value × Store} (alike : RunsAlike a b) :
    a.2.unplaced = b.2.unplaced := by
  cases alike with
  | value _ stores | failure _ stores => exact stores

/-- Two texts are the same, or they are programs that are the same without their places. -/
inductive SameSyntax (a b : List Char) : Prop
  | same (equal : a = b)
  | layout {p q : Program} (left : Program.ofText a = .ok p) (right : Program.ofText b = .ok q)
      (syntactic : p.unplaced = q.unplaced)

def Store.runAll (s : Store) (texts : List (List Char)) : Store :=
  texts.foldl (fun s text => (s.run text).2) s

theorem Program.eval_mirrors {W : Corpus} {lines : LineIndex} {program : Program}
    (written : W.HasBody lines program.body) :
    Eval.Mirrors W (program.eval lines) (program.unplaced.eval ⟨[]⟩) (Value.Mirrors W) := by
  have body := evalBody_mirrors Store.globals (enterWithin_mirrors W maxDepth) program.body written
  exact .bind body fun value value' same => .pure same.unwrap

def Store.ended : Except RuntimeError Value × Store → Except Failure Value × Store
  | (.ok value, s) => (.ok value, s)
  | (.error e, s) => (.error (.runtime e), s)

theorem Store.run_eq {text : List Char} {program : Program} (s : Store)
    (parsed : Program.ofText text = .ok program) :
    s.run text = ended ((program.eval (LineIndex.ofText text)).runIn s) := by
  simp only [run, parsed]
  rfl

theorem Mirrored.runsAlike {W : Corpus} {a b ended : Except RuntimeError Value × Store}
    (left : Mirrored W (Value.Mirrors W) a ended) (right : Mirrored W (Value.Mirrors W) b ended) :
    RunsAlike (Store.ended a) (Store.ended b) := by
  obtain ⟨result, last⟩ := ended
  generalize here : (result, last) = e at left
  cases left with
  | ok same _ =>
    cases here
    generalize there : (Except.ok _, _) = e at right
    cases right with
    | ok same' _ =>
      obtain ⟨values, stores⟩ := Prod.mk.inj there
      exact .value (same.same.symm.trans ((Except.ok.inj values).trans same'.same)) stores
    | error _ => cases (Prod.mk.inj there).1
  | error _ =>
    cases here
    generalize there : (Except.error _, _) = e at right
    cases right with
    | ok _ _ => cases (Prod.mk.inj there).1
    | error _ =>
      obtain ⟨errors, stores⟩ := Prod.mk.inj there
      cases Except.error.inj errors
      exact .failure (.runtime ..) stores

theorem Program.eval_alike {p q : Program} (syntactic : p.unplaced = q.unplaced) {s t : Store}
    (stores : s.unplaced = t.unplaced) (lines lines' : LineIndex) :
    RunsAlike (Store.ended ((p.eval lines).runIn s)) (Store.ended ((q.eval lines').runIn t)) := by
  have left := p.eval_mirrors (Corpus.all_hasBody lines _) s s.coded_all
  have right := q.eval_mirrors (Corpus.all_hasBody lines' _) t t.coded_all
  rw [syntactic, stores] at left
  exact left.runsAlike right

theorem SameSyntax.run {a b : List Char} (texts : SameSyntax a b) {s t : Store}
    (stores : s.unplaced = t.unplaced) : RunsAlike (s.run a) (t.run b) := by
  cases texts with
  | same equal =>
    subst equal
    cases parsed : Program.ofText a with
    | error e =>
      simp only [Store.run, parsed]
      exact .failure (.source e) stores
    | ok p =>
      rw [s.run_eq parsed, t.run_eq parsed]
      exact Program.eval_alike rfl stores _ _
  | layout left right syntactic =>
    rw [s.run_eq left, t.run_eq right]
    exact Program.eval_alike syntactic stores _ _

theorem Store.runAll_unplaced {texts : List (List Char × List Char)}
    (pairs : ∀ pair ∈ texts, SameSyntax pair.1 pair.2) {s t : Store}
    (stores : s.unplaced = t.unplaced) :
    (s.runAll (texts.map Prod.fst)).unplaced = (t.runAll (texts.map Prod.snd)).unplaced := by
  induction texts generalizing s t with
  | nil => exact stores
  | cons pair rest ih =>
    obtain ⟨first, others⟩ := List.forall_mem_cons.mp pairs
    exact ih others (first.run stores).stores

/-- Two texts with the same syntax come to the same in every store. Afterwards every text comes to
    the same as it does, and so does one in another layout, after any texts in between and after the
    same ones in other layouts. -/
theorem Store.layout_never_matters {a b : List Char} (texts : SameSyntax a b) (s : Store) :
    RunsAlike (s.run a) (s.run b) ∧
      ∀ between : List (List Char × List Char), (∀ pair ∈ between, SameSyntax pair.1 pair.2) →
        ∀ c d, SameSyntax c d →
          RunsAlike (((s.run a).2.runAll (between.map Prod.fst)).run c)
            (((s.run b).2.runAll (between.map Prod.snd)).run d) := by
  have first := texts.run (s := s) (t := s) rfl
  exact ⟨first, fun between pairs c d last => last.run (runAll_unplaced pairs first.stores)⟩

/-- A newline, parentheses, a trailing comma, a semicolon and a comment. -/
theorem Store.layout_of_call : RunsAlike (initial.run "f(g)".toList)
    (initial.run "\n(f) (g,); // g".toList) := by
  have left : Program.ofText "f(g)".toList =
      .ok ⟨[.expr ⟨0, 4⟩ (.call ⟨0, 4⟩ (.var ⟨0, 1⟩ "f") [.var ⟨2, 3⟩ "g"])]⟩ := by cbv
  have right : Program.ofText "\n(f) (g,); // g".toList =
      .ok ⟨[.expr ⟨1, 10⟩ (.call ⟨2, 9⟩ (.var ⟨2, 3⟩ "f") [.var ⟨6, 7⟩ "g"])]⟩ := by cbv
  exact (layout_never_matters (.layout left right rfl) initial).1

end MonkeyLang
