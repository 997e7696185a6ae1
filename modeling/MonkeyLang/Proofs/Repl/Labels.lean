import MonkeyLang.Proofs.Repl.Reading
import MonkeyLang.Proofs.Report.Location

namespace MonkeyLang

open Text

section Labels

variable {text : List Char} {e : RuntimeError}

theorem range_runtime_inside (within : e.line ≤ text.count '\n' + 1) (first : 1 ≤ e.line) :
    IsLine text e.line ((Failure.runtime e).range text) := by
  obtain ⟨n, number⟩ : ∃ n, e.line = n + 1 := ⟨e.line - 1, by omega⟩
  have inside : n ≤ text.count '\n' := by omega
  obtain ⟨range, line⟩ := exists_isLine inside
  rw [Failure.range, number, line.range_eq]
  exact line

end Labels

namespace Repl

theorem evaluate_coded {W : Corpus} {s : Store} (coded : s.Coded W) {text : List Char}
    (here : ∀ program, Program.ofText text = .ok program →
      W.HasBody (LineIndex.ofText text) program.body) : (evaluate s text).2.Coded W := by
  have ran := coded.run here
  exact ⟨ran.members, ran.bindings⟩

theorem Course.coded {state : State} {lines : List (List Char)} {front rest : List Step} {x : Step}
    {sources : List (List Char)} (course : Course state lines (front ++ x :: rest))
    (coded : state.store.Coded (written sources)) (given : handed front ⊆ sources) :
    x.before.store.Coded (written sources) := by
  induction front generalizing state lines with
  | nil => cases course; exact coded
  | cons y front ih =>
    cases course with
    | line reads meant course =>
      refine ih course ?_ ?_
      · cases found : y.handed? with
        | none => exact (meant.waits found).symm ▸ coded
        | some text =>
          rw [(meant.evaluates found).2.2]
          refine evaluate_coded coded fun program parsed => written_hasBody (given ?_) parsed
          rw [handed, List.filterMap_cons_some found]
          exact List.mem_cons_self
      · intro text member
        obtain ⟨z, inside, found⟩ := List.mem_filterMap.mp member
        exact given (List.mem_filterMap.mpr ⟨z, List.mem_cons_of_mem _ inside, found⟩)

/-- A text of a session that fails at run time is reported as that text. What raised the error stands
    in it or in a text that was run before, and the error has the number of its line there. The
    report labels the line of the failing text with this number, so the right one if it stands in the
    failing text; if that text has fewer lines the label is empty and at its end. -/
theorem reports_label_line_number (lines : List (List Char)) (front rest : List Step) (x : Step)
    (text : List Char) (e : RuntimeError) (t : Store)
    (read : stepsOf lines = front ++ x :: rest) (given : x.handed? = some text)
    (failed : x.before.store.run text = (.error (.runtime e), t)) :
    let label := (Failure.runtime e).range text
    (∃ printed, x.shown = [.text printed, .report (.of "<repl>" text (.runtime e))]) ∧
    (∃ program, Program.ofText text = .ok program ∧ ∃ site ex u,
      (program.task text).Within x.before.store (.expr site ex) u ∧ Task.Origin site ex u e t ∧
      ∃ source ∈ handed (front ++ [x]), ∃ place own, ToldAt source place site ex u e t ∧
        IsLine source e.line own ∧ own.start ≤ place.start ∧ place.start ≤ own.stop ∧
        (source = text → label = own)) ∧
    (e.line ≤ text.count '\n' + 1 → IsLine text e.line label) ∧
    (text.count '\n' + 1 < e.line → label = ⟨byteLength text, byteLength text⟩) := by
  intro label
  have course := course_steps .start lines
  rw [← stepsOf, read] at course
  have run : handed (front ++ [x]) = handed front ++ [text] := by
    rw [handed, List.filterMap_append, List.filterMap_cons_some given]
    rfl
  have before : handed front ⊆ handed (front ++ [x]) := run ▸ List.subset_append_left _ _
  have here : text ∈ handed (front ++ [x]) := run ▸ List.mem_concat_self
  have coded := course.coded (Store.coded_initial _) before
  obtain ⟨program, parsed, site, ex, u, within, origin, told⟩ :=
    Store.exists_told_of_run coded here failed
  obtain ⟨source, member, place, at', ahead, after, same, -, start, number⟩ := told.exists_place
  obtain ⟨own, line, least, most⟩ := exists_isLine_around ahead after
  rw [← same, ← number] at line
  rw [← start] at least most
  refine ⟨?_, ⟨program, parsed, site, ex, u, within, origin, source, member, place, own, at', line,
    least, most, ?_⟩, ?_, lineRange_beyond⟩
  · have shown := ((course.meant x (by simp)).evaluates given).2.1
    rw [shown, evaluate, failed]
    exact ⟨_, rfl⟩
  · rintro rfl
    exact line.range_eq
  · exact fun inside => range_runtime_inside inside (by omega)

theorem reports_label_line_number_of_name :
    let e : RuntimeError := ⟨.undefinedVariable "g", 1⟩
    (∃ printed shown after,
      stepsOf ["g".toList] = [⟨.start, "g".toList, shown, after⟩] ∧
      shown = [.text printed, .report (.of "<repl>" "g\n".toList (.runtime e))]) ∧
    IsLine "g\n".toList 1 ((Failure.runtime e).range "g\n".toList) := by
  intro e
  have read : stepsOf ["g".toList] = [] ++ ⟨.start, "g".toList,
      (evaluate .initial "g\n".toList).1, (evaluate .initial "g\n".toList).2, []⟩ :: [] := by cbv
  have failed : Store.initial.run "g\n".toList =
      (.error (.runtime e), (Store.initial.run "g\n".toList).2) := by cbv
  obtain ⟨⟨printed, shown⟩, -, inside, -⟩ :=
    reports_label_line_number _ _ _ _ "g\n".toList e _ read (by cbv) failed
  exact ⟨⟨printed, _, _, read, shown⟩, inside (by decide)⟩

/-- A function from the third line of one text fails when the only line of another calls it. The
    report shows the end of that one. -/
theorem report_labels_end :
    let e : RuntimeError := ⟨.undefinedVariable "g", 3⟩
    (session ["let f = fn() \x7b".toList, [], " g \x7d;".toList, "f()".toList]).outputs.filterMap
        (fun | .report r => some r | .text _ => none) =
      [.of "<repl>" "f()\n".toList (.runtime e)] ∧
    (Failure.runtime e).range "f()\n".toList = ⟨4, 4⟩ ∧
    IsLine "let f = fn() \x7b\n\n g \x7d;\n".toList 3 ⟨16, 21⟩ := by
  intro e
  have begins : LineBegins "let f = fn() \x7b\n\n".toList :=
    .inr ⟨"let f = fn() \x7b\n".toList, rfl⟩
  have inside : '\n' ∉ " g \x7d;".toList := by decide
  exact ⟨by cbv, by cbv, .mk begins inside (.inr ⟨[], rfl⟩)⟩

end Repl

end MonkeyLang
