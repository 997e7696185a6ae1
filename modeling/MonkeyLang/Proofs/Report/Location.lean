import MonkeyLang.Command
import MonkeyLang.Proofs.Grammar.Spans
import MonkeyLang.Proofs.Report.Place
import MonkeyLang.Proofs.Report.Source

namespace MonkeyLang

open Text

structure Text.Inside (text : List Char) (place : Span) : Prop where
  start : ∃ before after, text = before ++ after ∧ after ≠ [] ∧ place.start = byteLength before
  stop : place.stop ≤ byteLength text

section Source

variable {text before slice after : List Char} {place : Span}

theorem Span.Covers.inside (covers : place.Covers text before slice after) :
    Text.Inside text place := by
  refine ⟨⟨before, slice ++ after, ?_, ?_, covers.start⟩, covers.stop_le⟩
  · rw [covers.split, List.append_assoc]
  · exact List.append_ne_nil_of_left_ne_nil covers.some after

theorem SourceError.inside {e : SourceError} (failed : Program.ofText text = .error e) :
    Text.Inside text e.span := by
  obtain ⟨_, _, _, covers, -⟩ := SourceError.exists_shown failed
  exact covers.inside

theorem Lexeme.Bound.starts {lexemes : List Lexeme} (scanned : ofText text = .ok lexemes)
    (bound : Bound lexemes place) :
    ∃ before after, text = before ++ after ∧ after ≠ [] ∧ place.start = byteLength before := by
  obtain ⟨l, member, same⟩ := bound.start
  have stands : l.StandsIn text := (munch_of_ofText scanned).standsIn [] l member
  obtain ⟨_, _, _, _, covers, -⟩ := stands.exists_covers
  rw [← same]
  exact covers.inside.start

end Source

section Told

/-- The source has at the place what the error is told by: the expression that raised it, or, if a
    body could not be opened, that body. -/
inductive ToldAt (source : List Char) (place : Span) (site : Site) (ex : Expr) (s : Store)
    (e : RuntimeError) (t : Store) : Prop
  | place (here : Writes source site.lines ex) (other : e.fault ≠ .stackOverflow)
      (same : place = ex.faultPlace)
  | body {span : Span} {c : Closure} {scope : FrameId} {bound : List (Nat × Value)} {u : Store}
      (literal : Writes source c.lines (.function span c.params c.body))
      (called : (Task.expr site ex).Within s (.invoke 0 c scope bound) u)
      (fails : (Task.invoke 0 c scope bound).Fails u e t)
      (overflow : e.fault = .stackOverflow) (same : place = c.body.span)

theorem Writes.bound {source : List Char} {lines : LineIndex} {part : Expr}
    (writes : Writes source lines part) :
    ∃ lexemes, Lexeme.ofText source = .ok lexemes ∧ part.Bound lexemes := by
  obtain ⟨program, parsed, here, -⟩ := writes
  unfold Program.ofText at parsed
  split at parsed
  · cases parsed
  · rename_i lexemes scanned
    refine ⟨lexemes, scanned, ?_⟩
    split at parsed
    · cases parsed
    · rename_i found
      cases parsed
      exact here.bound found

theorem ToldBy.exists_place {sources : List (List Char)} {site : Site} {ex : Expr} {s t : Store}
    {e : RuntimeError} (told : ToldBy sources site ex s e t) :
    ∃ source ∈ sources, ∃ place, ToldAt source place site ex s e t ∧
      ∃ before after, source = before ++ after ∧ after ≠ [] ∧
        place.start = byteLength before ∧ e.line = before.count '\n' + 1 := by
  have counted {source : List Char} {place : Span} (line : e.line = lineAt source place.start)
      (starts : ∃ before after, source = before ++ after ∧ after ≠ [] ∧
        place.start = byteLength before) :
      ∃ before after, source = before ++ after ∧ after ≠ [] ∧
        place.start = byteLength before ∧ e.line = before.count '\n' + 1 := by
    obtain ⟨before, after, rfl, more, start⟩ := starts
    rw [start, lineAt_append] at line
    exact ⟨before, after, rfl, more, start, line⟩
  cases told with
  | @place source member here other line =>
    obtain ⟨lexemes, scanned, ⟨_, fault, _⟩⟩ := here.bound
    exact ⟨source, member, _, .place here other rfl, counted line (fault.starts scanned)⟩
  | @body source span c scope values u member literal called fails overflow line =>
    obtain ⟨lexemes, scanned, ⟨_, _, parts⟩⟩ := literal.bound
    have body := (parts c.body List.mem_cons_self).span
    exact ⟨source, member, _, .body literal called fails overflow rfl,
      counted line (body.starts scanned)⟩

end Told

/-- Where a text fails: behind whole lines and the front of another one. An error at run time is
    at the start of the line that it names. -/
structure FailsAt (text : List Char) (e : Failure) (earlier front after : List Char) : Prop where
  parts : text = earlier ++ front ++ after
  begins : LineBegins earlier
  inside : '\n' ∉ front
  remains : after ≠ []
  named : match e with
    | .source e => e.span.start = byteLength (earlier ++ front)
    | .runtime e => front = [] ∧ e.line = earlier.count '\n' + 1

section Places

variable {text : List Char} {e : Failure}

theorem Store.rejected_of_run {s : Store} {e : SourceError}
    (failed : (s.run text).1 = .error (.source e)) : Program.ofText text = .error e := by
  unfold run at failed
  split at failed
  · rename_i e' rejected
    cases failed
    exact rejected
  · split at failed <;> cases failed

theorem Store.exists_failsAt (failed : (initial.run text).1 = .error e) :
    ∃ earlier front after, FailsAt text e earlier front after := by
  cases e with
  | source e =>
    obtain ⟨before, after, rfl, more, start⟩ := (SourceError.inside (rejected_of_run failed)).start
    obtain ⟨earlier, front, rfl, begins, inside⟩ := exists_lineBegins before
    exact ⟨earlier, front, after, rfl, begins, inside, more, start⟩
  | runtime e =>
    rcases ran : initial.run text with ⟨result, t⟩
    rw [ran] at failed
    cases failed
    obtain ⟨_, _, _, _, _, _, _, told⟩ :=
      exists_told_of_run (coded_initial _) (List.mem_singleton_self text) ran
    obtain ⟨source, member, _, _, before, after, same, more, -, line⟩ := told.exists_place
    obtain rfl := List.mem_singleton.mp member
    obtain ⟨earlier, front, rfl, begins, inside⟩ := exists_lineBegins before
    refine ⟨earlier, [], front ++ after, by rw [same]; simp, begins, List.not_mem_nil, ?_, rfl, ?_⟩
    · exact List.append_ne_nil_of_right_ne_nil front more
    · rw [line, count_newlines_append earlier inside]

theorem FailsAt.range {earlier front after : List Char}
    (failed : (Store.initial.run text).1 = .error e) (fails : FailsAt text e earlier front after) :
    (e.range text).start = byteLength (earlier ++ front) ∧ (e.range text).stop ≤ byteLength text := by
  obtain ⟨rfl, begins, inside, remains, named⟩ := fails
  cases e with
  | source e => exact ⟨named, (SourceError.inside (Store.rejected_of_run failed)).stop⟩
  | runtime e =>
    obtain ⟨rfl, number⟩ := named
    obtain ⟨line, later, rfl, ends, clear⟩ := exists_lineEnds after
    have range := (IsLine.mk begins clear ends).range_eq
    rw [List.append_nil, ← List.append_assoc, Failure.range, number, range, byteLength_append,
      byteLength_append]
    exact ⟨rfl, Nat.le_add_right _ _⟩

end Places

/-- A text that fails does so at a character of its own, and its one report is given the bytes from
    there on, which end in the text. The report shows the line and the column of that character
    exactly if all characters before it are of one byte, lines before it end with newlines only, and
    the number of the last of the bytes is not greater than that of the characters. -/
theorem Command.report_shows_place (name : String) (text : List Char)
    (shown : Store → Value → List Char) (e : Failure)
    (failed : (Store.initial.run text).1 = .error e) :
    (execute name text shown).reports = [.of name text e] ∧
    (e.range text).stop ≤ byteLength text ∧
    ∃ earlier front after, FailsAt text e earlier front after ∧
      ((Report.of name text e).place = some (earlier.count '\n' + 1, front.length + 1) ↔
        (∀ c ∈ earlier ++ front, c.utf8Size = 1) ∧ Report.NewlinesOnly (earlier ++ front) after ∧
          (e.range text).stop ≤ text.length + 1) := by
  obtain ⟨earlier, front, after, fails⟩ := Store.exists_failsAt failed
  obtain ⟨start, stop⟩ := fails.range failed
  refine ⟨?_, stop, earlier, front, after, fails, ?_⟩
  · rcases ran : Store.initial.run text with ⟨result, t⟩
    rw [ran] at failed
    cases failed
    rw [execute, ran]
    rfl
  · obtain ⟨rfl, begins, inside, remains, -⟩ := fails
    exact Report.place?_eq_iff begins inside remains start

theorem Command.report_shows_place_behind_return :
    (Store.initial.run "1\r@".toList).1 = .error (.source (.lexical ⟨['@'], 2, 3⟩)) ∧
    ∃ earlier front after,
      FailsAt "1\r@".toList (.source (.lexical ⟨['@'], 2, 3⟩)) earlier front after ∧
      ((Report.of "old" "1\r@".toList (.source (.lexical ⟨['@'], 2, 3⟩))).place =
          some (earlier.count '\n' + 1, front.length + 1) ↔
        (∀ c ∈ earlier ++ front, c.utf8Size = 1) ∧ Report.NewlinesOnly (earlier ++ front) after ∧
          3 ≤ 4) := by
  have failed : (Store.initial.run "1\r@".toList).1 =
      .error (.source (.lexical ⟨['@'], 2, 3⟩)) := by cbv
  exact ⟨failed, (report_shows_place "old" _ (fun _ _ => []) _ failed).2.2⟩

/-- Behind a character of two bytes a report shows a column that is one too great, and a line with
    no place in it that characters count is shown without one. -/
theorem Command.report_misplaces :
    (∃ e, (Store.initial.run "\"é\" @".toList).1 = .error e ∧
      FailsAt "\"é\" @".toList e [] "\"é\" ".toList ['@'] ∧
      (Report.of "wide" "\"é\" @".toList e).place = some (1, 6)) ∧
    ∃ e, (Store.initial.run "\"日本\";\ng".toList).1 = .error e ∧
      FailsAt "\"日本\";\ng".toList e "\"日本\";\n".toList [] ['g'] ∧
      (Report.of "wide" "\"日本\";\ng".toList e).place = none := by
  constructor
  · refine ⟨.source (.lexical ⟨['@'], 5, 6⟩), by cbv, ?_, by cbv⟩
    exact ⟨rfl, .inl rfl, by decide, by decide, by cbv⟩
  · have parsed : Program.ofText "\"日本\";\ng".toList =
        .ok ⟨[.expr ⟨0, 9⟩ (.str ⟨0, 8⟩ "日本"), .expr ⟨10, 11⟩ (.var ⟨10, 11⟩ "g")]⟩ := by cbv
    refine ⟨.runtime ⟨.undefinedVariable "g", 2⟩, ?_, ?_, by cbv⟩
    · rw [Store.run_eq _ parsed]
      cbv
    · exact ⟨rfl, .inr ⟨"\"日本\";".toList, rfl⟩, by decide, by decide, rfl, rfl⟩

end MonkeyLang
