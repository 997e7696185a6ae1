import MonkeyLang.Proofs.Eval.Invariant
import MonkeyLang.Proofs.Eval.Origin
import MonkeyLang.Proofs.Session.Layout
import MonkeyLang.Proofs.Session.Plain
import MonkeyLang.Proofs.Text.Lines

namespace MonkeyLang

section Written

def Writes (source : List Char) (lines : LineIndex) (e : Expr) : Prop :=
  ∃ program, Program.ofText source = .ok program ∧ program.Has e ∧
    lines = LineIndex.ofText source

def written (sources : List (List Char)) : Corpus where
  has lines e := ∃ source ∈ sources, Writes source lines e
  parts := by
    rintro lines e ⟨source, member, program, parsed, outer, table⟩ part inside
    exact ⟨source, member, program, parsed, .part outer inside, table⟩

theorem written_hasBody {sources : List (List Char)} {source : List Char} {program : Program}
    (member : source ∈ sources) (parsed : Program.ofText source = .ok program) :
    (written sources).HasBody (LineIndex.ofText source) program.body :=
  fun _ inside _ part => ⟨source, member, program, parsed, .stmt inside part, rfl⟩

end Written

section Coding

variable {W : Corpus}

theorem Eval.Mirrors.ok {α β : Type} {c : Eval α} {d : Eval β} {post : α → β → Prop}
    (mirrors : Eval.Mirrors W c d post) {s t : Store} {a : α} (ran : c.runIn s = (.ok a, t))
    (coded : s.Coded W) : (∃ b, post a b) ∧ t.Coded W := by
  have ended := mirrors s coded
  rw [ran] at ended
  generalize d.runIn s.unplaced = ran' at ended
  cases ended with
  | ok same kept => exact ⟨⟨_, same⟩, kept⟩

namespace Task

def coding (W : Corpus) : Invariant where
  corpus := W
  value := Value.Coded W
  result := Value.Coded W
  closure _ coded := coded
  entered _ := Closure.Coded.body

theorem coding_kept (W : Corpus) : (coding W).Kept := by
  intro task s t output ends given coded
  have entering (room : Nat) := enterWithin_mirrors W room
  have bound {bound : List (Nat × Value)} (all : ∀ binding ∈ bound, binding.2.Coded W) :
      BoundMirrors W bound (bound.map fun binding => (binding.1, binding.2.unplaced)) := ⟨rfl, all⟩
  cases task with
  | expr site e =>
    obtain ⟨⟨_, value⟩, kept⟩ := (e.eval_mirrors site.frame (entering _) given).ok ends coded
    exact ⟨value.coded, kept⟩
  | args site es =>
    obtain ⟨⟨_, values⟩, kept⟩ := (evalArgs_mirrors site.frame (entering _) es given).ok ends coded
    exact ⟨values.coded, kept⟩
  | stmt site item =>
    obtain ⟨⟨_, value⟩, kept⟩ := (item.eval_mirrors site.frame (entering _) given).ok ends coded
    exact ⟨value.coded, kept⟩
  | body site items =>
    obtain ⟨⟨_, value⟩, kept⟩ :=
      (evalBody_mirrors site.frame (entering _) items given).ok ends coded
    exact ⟨value.coded, kept⟩
  | call room line c values =>
    obtain ⟨⟨_, value⟩, kept⟩ := (Closure.call_mirrors (entering room) line line given.1
      (Value.mirrorsAll given.2)).ok ends coded
    exact ⟨value.coded, kept⟩
  | invoke room c scope bound' =>
    obtain ⟨⟨_, value⟩, kept⟩ := (Closure.invoke_mirrors (entering room) given.1 scope
      (bound given.2)).ok ends coded
    exact ⟨value.coded, kept⟩
  | params c frame bound' =>
    exact ⟨trivial, ((c.bindParams_mirrors frame (bound given)).ok ends coded).2⟩
  | method room line scope name id values =>
    obtain ⟨⟨_, value⟩, kept⟩ := (ArrayMethod.dispatch_mirrors (entering room) line line scope name
      id (Value.mirrorsAll given)).ok ends coded
    exact ⟨value.coded, kept⟩

end Task

theorem Store.Coded.run {s : Store} (coded : s.Coded W) {text : List Char}
    (here : ∀ program, Program.ofText text = .ok program →
      W.HasBody (LineIndex.ofText text) program.body) : (s.run text).2.Coded W := by
  cases parsed : Program.ofText text with
  | error e =>
    unfold Store.run
    rw [parsed]
    exact coded
  | ok program =>
    have ended := program.eval_mirrors (here program parsed) s coded
    rw [s.run_eq parsed]
    generalize (program.eval (LineIndex.ofText text)).runIn s = ran at ended ⊢
    generalize (program.unplaced.eval ⟨[]⟩).runIn s.unplaced = ran' at ended
    cases ended with
    | ok _ kept | error kept => exact kept

end Coding

theorem Store.session_coded {sources texts : List (List Char)} (all : ∀ text ∈ texts, text ∈ sources) :
    (session texts).Coded (written sources) := by
  unfold session
  have run_all (s : Store) (coded : s.Coded (written sources)) :
      (texts.foldl (fun s text => (s.run text).2) s).Coded (written sources) := by
    induction texts generalizing s with
    | nil => exact coded
    | cons text rest ih =>
      obtain ⟨here, others⟩ := List.forall_mem_cons.mp all
      exact ih others _ (coded.run fun program parsed => written_hasBody here parsed)
  exact run_all initial (coded_initial _)

section Told

/-- How the error of an expression is told: by the line that the expression starts on in the text
    that it was written in, or, if a body could not be opened, by the line that the body starts on
    in the text that its function literal was written in. -/
inductive ToldBy (sources : List (List Char)) (site : Site) (ex : Expr) (s : Store)
    (e : RuntimeError) (t : Store) : Prop
  | place {source : List Char} (member : source ∈ sources) (here : Writes source site.lines ex)
      (other : e.fault ≠ .stackOverflow)
      (line : e.line = Text.lineAt source ex.faultPlace.start)
  | body {source : List Char} {span : Span} {c : Closure} {scope : FrameId}
      {bound : List (Nat × Value)} {u : Store} (member : source ∈ sources)
      (literal : Writes source c.lines (.function span c.params c.body))
      (called : (Task.expr site ex).Within s (.invoke 0 c scope bound) u)
      (fails : (Task.invoke 0 c scope bound).Fails u e t)
      (overflow : e.fault = .stackOverflow)
      (line : e.line = Text.lineAt source c.body.span.start)

variable {sources : List (List Char)} {site : Site} {ex : Expr} {s t : Store} {e : RuntimeError}

theorem ToldBy.line_pos (told : ToldBy sources site ex s e t) : 1 ≤ e.line := by
  cases told with
  | place _ _ _ line | body _ _ _ _ _ line => exact line ▸ Nat.le_add_left 1 _

theorem Task.Origin.toldBy (origin : Origin site ex s e t) (coded : s.Coded (written sources))
    (here : (written sources).has site.lines ex) : ToldBy sources site ex s e t := by
  rcases origin.told with ⟨line, other⟩ | ⟨room, c, scope, bound, u, within, fails, rfl, rfl⟩
  · obtain ⟨source, member, writes⟩ := here
    refine .place member writes other ?_
    obtain ⟨program, _, _, table⟩ := writes
    rw [line, table, Text.lineOf_ofText]
  · obtain ⟨given, _⟩ := (coding_kept (written sources)).within within here coded
    obtain ⟨span, source, member, literal⟩ := given.1
    refine .body member literal within fails rfl ?_
    obtain ⟨program, _, _, table⟩ := literal
    rw [table, Text.lineOf_ofText]

theorem Store.exists_origin_of_run {text : List Char} (failed : s.run text = (.error (.runtime e), t)) :
    ∃ program, Program.ofText text = .ok program ∧ ∃ site ex u,
      (program.task text).Within s (.expr site ex) u ∧ Task.Origin site ex u e t := by
  cases parsed : Program.ofText text with
  | error e' =>
    rw [run, parsed] at failed
    cases failed
  | ok program =>
    refine ⟨program, rfl, ?_⟩
    rw [s.run_eq parsed] at failed
    have ended : (program.eval (LineIndex.ofText text)).runIn s = (.error e, t) := by
      rcases ran : (program.eval (LineIndex.ofText text)).runIn s with ⟨_ | _, _⟩
      all_goals
        rw [ran] at failed
        cases failed
      rfl
    rcases Eval.runIn_bind_failed ended with ended | ⟨_, _, _, impossible⟩
    · have fails : (program.task text).Fails s e t := ended
      obtain ⟨site, ex, u, within, inside⟩ := fails.exists_expr rfl
      obtain ⟨site', ex', w, within', origin⟩ := inside.exists_origin
      exact ⟨site', ex', w, within.trans within', origin⟩
    · cases impossible

theorem Store.exists_told_of_run {text : List Char} (coded : s.Coded (written sources))
    (member : text ∈ sources) (failed : s.run text = (.error (.runtime e), t)) :
    ∃ program, Program.ofText text = .ok program ∧ ∃ site ex u,
      (program.task text).Within s (.expr site ex) u ∧ Task.Origin site ex u e t ∧
        ToldBy sources site ex u e t := by
  obtain ⟨program, parsed, site, ex, u, within, origin⟩ := exists_origin_of_run failed
  have body : (Task.coding (written sources)).Given (program.task text) :=
    written_hasBody member parsed
  obtain ⟨here, after⟩ := (Task.coding_kept _).within within body coded
  exact ⟨program, parsed, site, ex, u, within, origin, origin.toldBy after here⟩

end Told

/-- After every session, whatever failed in it, a text that fails has an expression on its way that
    raises the error: it fails while no part of it has an expression that does. Every expression
    that raises an error, in the text or in a function from any text before, is told by its line in
    the text that it was written in. So no error has a line before the first. -/
theorem Store.errors_told_by_lines (texts : List (List Char)) (text : List Char) :
    let s := session texts
    (∀ e t, s.run text = (.error (.runtime e), t) → 1 ≤ e.line ∧
      ∃ program, Program.ofText text = .ok program ∧ ∃ site ex u,
        (program.task text).Within s (.expr site ex) u ∧ Task.Origin site ex u e t) ∧
    ∀ program, Program.ofText text = .ok program → ∀ site ex u e t,
      (program.task text).Within s (.expr site ex) u → Task.Origin site ex u e t →
        ToldBy (texts ++ [text]) site ex u e t := by
  intro s
  have coded : s.Coded (written (texts ++ [text])) :=
    session_coded fun _ member => List.mem_append_left _ member
  have told (program : Program) (parsed : Program.ofText text = .ok program) (site : Site)
      (ex : Expr) (u : Store) (e : RuntimeError) (t : Store)
      (within : (program.task text).Within s (.expr site ex) u)
      (origin : Task.Origin site ex u e t) : ToldBy (texts ++ [text]) site ex u e t := by
    have body : (Task.coding (written (texts ++ [text]))).Given (program.task text) :=
      written_hasBody (List.mem_append_right _ List.mem_cons_self) parsed
    obtain ⟨here, after⟩ := (Task.coding_kept _).within within body coded
    exact origin.toldBy after here
  refine ⟨fun e t failed => ?_, told⟩
  obtain ⟨program, parsed, site, ex, u, within, origin⟩ := exists_origin_of_run failed
  exact ⟨(told program parsed site ex u e t within origin).line_pos, program, parsed, site, ex, u,
    within, origin⟩

example : ((Store.session ["\nlet f = fn() { g };".toList]).run "f()".toList).1 =
    .error (.runtime ⟨.undefinedVariable "g", 2⟩) := by
  have first : Program.ofText "\nlet f = fn() { g };".toList = .ok ⟨[.bind ⟨1, 20⟩ "f"
      (.function ⟨9, 19⟩ [] (.block ⟨14, 19⟩ [.expr ⟨16, 17⟩ (.var ⟨16, 17⟩ "g")]))]⟩ := by cbv
  have second : Program.ofText "f()".toList =
      .ok ⟨[.expr ⟨0, 3⟩ (.call ⟨0, 3⟩ (.var ⟨0, 1⟩ "f") [])]⟩ := by cbv
  rw [Store.run_eq _ second, Store.session, List.foldl_cons, List.foldl_nil, Store.run_eq _ first]
  cbv

end MonkeyLang
