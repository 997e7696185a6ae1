import MonkeyLang.Proofs.Grammar.Joining
import MonkeyLang.Proofs.Session.Layout

namespace MonkeyLang

open Text (byteLength)

/-- The text has no tokens, or its last one is a semicolon. -/
def EndsStatement (text : List Char) : Prop :=
  ∃ lexemes, Lexeme.ofText text = .ok lexemes ∧ Lexeme.Ended lexemes

namespace Program

variable {first second : List Char} {p q : Program}

theorem ofText_eq_ok_iff {text : List Char} {program : Program} : ofText text = .ok program ↔
    ∃ lexemes, Lexeme.ofText text = .ok lexemes ∧ ofLexemes lexemes = .ok program := by
  constructor
  · intro parsed
    rw [ofText] at parsed
    split at parsed
    · cases parsed
    · rename_i lexemes read
      split at parsed
      · cases parsed
      · rename_i derived
        cases parsed
        exact ⟨lexemes, read, derived⟩
  · rintro ⟨lexemes, read, derived⟩
    simp only [ofText, read, derived]

theorem ofText_lines (parsed : ofText first = .ok p) (parsed' : ofText second = .ok q)
    (ends : EndsStatement first) :
    ofText (first ++ '\n' :: second) =
      .ok ⟨p.body ++ (q.shift (byteLength first + 1)).body⟩ := by
  obtain ⟨lexemes, read, ended⟩ := ends
  obtain ⟨_, same, derived⟩ := ofText_eq_ok_iff.mp parsed
  cases read.symm.trans same
  obtain ⟨later, read', derived'⟩ := ofText_eq_ok_iff.mp parsed'
  exact ofText_eq_ok_iff.mpr ⟨_, Lexeme.ofText_lines read read',
    ofLexemes_lines _ derived ended derived'⟩

end Program

section Running

variable {enter : Enter} {lines : LineIndex} {frame : FrameId}

theorem evalBody_append {first rest : List Stmt} {s t : Store} {v : Value} (some : rest ≠ [])
    (ran : (evalBody enter lines frame first).runIn s = (.ok v, t))
    (goesOn : v.isReturned = false) :
    (evalBody enter lines frame (first ++ rest)).runIn s =
      (evalBody enter lines frame rest).runIn t := by
  obtain ⟨next, others, rfl⟩ := List.exists_cons_of_ne_nil some
  match first with
  | [] =>
    rw [evalBody] at ran
    cases ran
    rfl
  | [last] =>
    rw [evalBody] at ran
    rw [List.singleton_append, evalBody, Eval.runIn_bind_ok ran, goesOn]
    · rfl
    · exact List.cons_ne_nil _ _
  | stmt :: second :: more =>
    rw [evalBody] at ran
    · obtain ⟨u, w, here, ran⟩ := Eval.runIn_bind_succeeded ran
      rw [List.cons_append, List.cons_append, evalBody, Eval.runIn_bind_ok here]
      · by_cases returned : u.isReturned = true
        · rw [if_pos returned] at ran
          cases ran
          rw [returned] at goesOn
          cases goesOn
        · rw [if_neg returned] at ran ⊢
          exact evalBody_append (List.cons_ne_nil next others) ran goesOn
      · exact List.cons_ne_nil _ _
    · exact List.cons_ne_nil _ _

theorem Program.eval_append {body rest : List Stmt} {s t : Store} {v : Value} (some : rest ≠ [])
    (ran : (evalBody enterFirst lines Store.globals body).runIn s = (.ok v, t))
    (goesOn : v.isReturned = false) :
    ((⟨body ++ rest⟩ : Program).eval lines).runIn s = ((⟨rest⟩ : Program).eval lines).runIn t := by
  rw [eval, eval, Eval.runIn_bind, Eval.runIn_bind, evalBody_append some ran goesOn]

end Running

section Joined

variable {p q : Program} {s t : Store} {v : Value}

theorem Program.eval_joined {joined : Program} (some : q.body ≠ [])
    (syntactic : joined.unplaced = ⟨unplacedBody p.body ++ unplacedBody q.body⟩) {lines : LineIndex}
    (ran : (evalBody enterFirst lines Store.globals p.body).runIn s = (.ok v, t))
    (goesOn : v.isReturned = false) (lines' table : LineIndex) :
    RunsAlike (Store.ended ((q.eval lines').runIn t))
      (Store.ended ((joined.eval table).runIn s)) := by
  have entering := enterWithin_mirrors Corpus.all maxDepth
  have first := evalBody_mirrors Store.globals entering p.body (Corpus.all_hasBody lines _) s
    s.coded_all
  have left := q.eval_mirrors (Corpus.all_hasBody lines' _) t t.coded_all
  have right := joined.eval_mirrors (Corpus.all_hasBody table _) s s.coded_all
  change Mirrored _ _ ((evalBody enterFirst lines Store.globals p.body).runIn s) _ at first
  rw [ran] at first
  obtain ⟨w, ran', rfl, -⟩ := first.of_ok
  have more : unplacedBody q.body ≠ [] := by
    rw [unplacedBody, mapSpansBody_eq_map]
    exact fun none => some (List.map_eq_nil_iff.mp none)
  have appended := eval_append more ran' (by rwa [Value.isReturned_unplaced])
  rw [syntactic, appended] at right
  exact left.runsAlike right

/-- Where the first text has no tokens or ends in a semicolon and the second one has a statement,
    the two on lines of their own are one program, which has the statements of both; and wherever the
    first text ends without a `return`, running them one after the other and running that program
    come to the same. -/
theorem Store.run_lines {first second : List Char} (parsed : Program.ofText first = .ok p)
    (parsed' : Program.ofText second = .ok q) (ends : EndsStatement first) (some : q.body ≠ []) :
    Program.ofText (first ++ '\n' :: second) =
        .ok ⟨p.body ++ (q.shift (byteLength first + 1)).body⟩ ∧
      ∀ s v t, (evalBody enterFirst (LineIndex.ofText first) globals p.body).runIn s =
          (.ok v, t) → v.isReturned = false →
        (s.run first).2 = t ∧
        RunsAlike ((s.run first).2.run second) (s.run (first ++ '\n' :: second)) := by
  have joined := Program.ofText_lines parsed parsed' ends
  refine ⟨joined, fun s v t ran goesOn => ?_⟩
  have after : (s.run first).2 = t := by
    rw [s.run_eq parsed, Program.eval, Eval.runIn_bind_ok ran]
    rfl
  refine ⟨after, ?_⟩
  rw [after, t.run_eq parsed', s.run_eq joined]
  refine Program.eval_joined some (congrArg Program.mk ?_) ran goesOn _ _
  change unplacedBody (p.body ++ mapSpansBody _ q.body) = _
  rw [unplacedBody_append, unplacedBody_mapSpansBody]

/-- A binding and its use, as two texts and as one. -/
theorem Store.run_binding_lines :
    RunsAlike ((initial.run "let a = nil;".toList).2.run "a".toList)
      (initial.run "let a = nil;\na".toList) := by
  have parsed : Program.ofText "let a = nil;".toList =
      .ok ⟨[.bind ⟨0, 12⟩ "a" (.nil ⟨8, 11⟩)]⟩ := by cbv
  have parsed' : Program.ofText "a".toList = .ok ⟨[.expr ⟨0, 1⟩ (.var ⟨0, 1⟩ "a")]⟩ := by cbv
  have read : Lexeme.ofText "let a = nil;".toList =
      .ok [⟨.fixed .letKey, ⟨0, 3⟩⟩, ⟨⟨.ident, "a"⟩, ⟨4, 5⟩⟩, ⟨.fixed .assign, ⟨6, 7⟩⟩,
        ⟨.fixed .nilKey, ⟨8, 11⟩⟩, ⟨.fixed .semicolon, ⟨11, 12⟩⟩] := by cbv
  have ended : EndsStatement "let a = nil;".toList := ⟨_, read, fun last same => by cases same; rfl⟩
  exact ((run_lines parsed parsed' ended (List.cons_ne_nil _ _)).2 initial .nil
    (initial.define globals "a" .nil) rfl rfl).2

end Joined

end MonkeyLang
