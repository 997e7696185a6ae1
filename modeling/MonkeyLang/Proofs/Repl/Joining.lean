import Mathlib
import MonkeyLang.Proofs.Token.Joining
import MonkeyLang.Repl

namespace MonkeyLang

namespace Lexeme

open Text (byteLength)

variable {first : List Char} {lexemes : List Lexeme}

/-- Behind a text that has lexemes, and a newline, any text is read as on its own. The lexemes are those
    of both, or the error is that of the second text with the same message; the places of what comes
    from the second text are as many bytes farther on as stand in front of it. So a line of a session
    adds lexemes behind those of the lines that wait, and its error is behind these lines. -/
theorem lines_read_apart (read : ofText first = .ok lexemes) (second : List Char) :
    (∀ later, ofText second = .ok later →
      ofText (first ++ '\n' :: second) =
        .ok (lexemes ++ later.map (shift (byteLength first + 1)))) ∧
    (∀ e, ofText second = .error e →
      ∃ moved, ofText (first ++ '\n' :: second) = .error moved ∧ moved.message = e.message ∧
        moved.span = e.span.shift (byteLength first + 1)) ∧
    ∀ state : Repl.State, state.pending = first ++ ['\n'] →
      (∀ all, ofText (state.extend second) = .ok all → lexemes <+: all) ∧
      ∀ e, ofText (state.extend second) = .error e → byteLength state.pending ≤ e.span.start := by
  refine ⟨fun later => ofText_lines read, fun e failed => ?_, fun state waits => ?_⟩
  · refine ⟨e.shift (byteLength first + 1), ?_, rfl, rfl⟩
    rw [ofText_behind read, failed]
    rfl
  · have joined : state.extend second = first ++ '\n' :: (second ++ ['\n']) := by
      rw [Repl.State.extend, waits, List.append_assoc, List.append_assoc]
      rfl
    rw [joined, ofText_behind read, waits]
    cases ofText (second ++ ['\n']) with
    | ok later =>
      refine ⟨fun all same => ?_, nofun⟩
      cases same
      exact List.prefix_append _ _
    | error e =>
      refine ⟨nofun, fun moved same => ?_⟩
      cases same
      rw [Text.byteLength_append]
      exact Nat.le_add_left _ _

/-- A quote in a comment opens no string literal, and that of the next line is told as if it stood
    alone. -/
theorem lines_read_apart_comment :
    ofText "a // \"".toList = .ok [⟨.ident "a", 0, 1⟩] ∧
    ofText "\"é".toList = .error ⟨['"', 'é'], 0, 3⟩ ∧
    ∃ moved, ofText ("a // \"".toList ++ '\n' :: "\"é".toList) = .error moved ∧
      moved.span = ⟨7, 10⟩ := by
  have read : ofText "a // \"".toList = .ok [⟨.ident "a", 0, 1⟩] := by cbv
  have failed : ofText "\"é".toList = .error ⟨['"', 'é'], 0, 3⟩ := by cbv
  obtain ⟨moved, same, -, place⟩ := (lines_read_apart read "\"é".toList).2.1 _ failed
  exact ⟨read, failed, moved, same, place⟩

end Lexeme

end MonkeyLang
