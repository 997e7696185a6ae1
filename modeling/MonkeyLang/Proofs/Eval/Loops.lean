import MonkeyLang.Eval.ArrayMethod
import MonkeyLang.Proofs.Eval.Triple

namespace MonkeyLang

namespace ArrayMethod

section Loops

variable {s t u : Store} {e : RuntimeError}

/-- A loop calls for one member after the other and puts its results together in the end. -/
structure Loops (call : Value → Eval Value) (loop : List Value → Eval (List Value)) : Prop where
  nil : loop [] = pure []
  cons : ∃ keep : Value → Value → List Value → List Value, ∀ member rest,
    loop (member :: rest) = do
      let result ← call member
      let others ← loop rest
      return keep result member others

theorem loops_filterCalls (call : Value → Eval Value) : Loops call (filterCalls call) :=
  ⟨rfl, fun kept member others => if kept.truthy then member :: others else others,
    fun _ _ => rfl⟩

theorem loops_mapCalls (call : Value → Eval Value) : Loops call (mapCalls call) :=
  ⟨rfl, fun result _ others => result :: others, fun _ _ => rfl⟩

variable {call : Value → Eval Value} {loop : List Value → Eval (List Value)}

theorem Loops.keeps (loops : Loops call loop) {P : Value → Prop} {kept : Store → Prop}
    (calls : ∀ v, P v → ∀ s a t, kept s → (call v).runIn s = (.ok a, t) → kept t)
    {members results : List Value} (given : ∀ v ∈ members, P v) (before : kept s)
    (ran : (loop members).runIn s = (.ok results, t)) : kept t := by
  obtain ⟨keep, cons⟩ := loops.cons
  induction members generalizing s results with
  | nil =>
    rw [loops.nil] at ran
    cases ran
    exact before
  | cons member rest ih =>
    obtain ⟨here, others⟩ := List.forall_mem_cons.mp given
    rw [cons] at ran
    obtain ⟨a, u, first, ran⟩ := Eval.runIn_bind_succeeded ran
    obtain ⟨done, w, later, ran⟩ := Eval.runIn_bind_succeeded ran
    cases ran
    exact ih others (calls member here s a u before first) later

theorem Loops.fails (loops : Loops call loop) {before after done : List Value} {member : Value}
    (ran : (loop before).runIn s = (.ok done, u)) (failed : (call member).runIn u = (.error e, t)) :
    (loop (before ++ member :: after)).runIn s = (.error e, t) := by
  obtain ⟨keep, cons⟩ := loops.cons
  induction before generalizing s done with
  | nil =>
    rw [loops.nil] at ran
    cases ran
    rw [List.nil_append, cons]
    exact Eval.runIn_bind_error failed
  | cons first rest ih =>
    rw [cons] at ran
    obtain ⟨a, w, here, ran⟩ := Eval.runIn_bind_succeeded ran
    obtain ⟨others, x, later, ran⟩ := Eval.runIn_bind_succeeded ran
    cases ran
    rw [List.cons_append, cons, Eval.runIn_bind_ok here]
    exact Eval.runIn_bind_error (ih later)

theorem Loops.failed (loops : Loops call loop) {members : List Value}
    (failed : (loop members).runIn s = (.error e, t)) :
    ∃ before member after done u, members = before ++ member :: after ∧
      (loop before).runIn s = (.ok done, u) ∧ (call member).runIn u = (.error e, t) := by
  obtain ⟨keep, cons⟩ := loops.cons
  induction members generalizing s with
  | nil =>
    rw [loops.nil] at failed
    cases failed
  | cons member rest ih =>
    rw [cons] at failed
    rcases Eval.runIn_bind_failed failed with here | ⟨a, w, ran, failed⟩
    · exact ⟨[], member, rest, [], s, rfl, by rw [loops.nil]; rfl, here⟩
    rcases Eval.runIn_bind_failed failed with failed | ⟨others, x, _, failed⟩
    · obtain ⟨before, other, after, done, u, rfl, ran', here⟩ := ih failed
      refine ⟨member :: before, other, after, keep a member done, u, rfl, ?_, here⟩
      rw [cons, Eval.runIn_bind_ok ran, Eval.runIn_bind_ok ran']
      rfl
    · cases failed

variable {call : Value → Value → Eval Value}

theorem foldCalls_keeps {P : Value → Prop} {kept : Store → Prop}
    (calls : ∀ acc v, P acc → P v → ∀ s a t, kept s → (call acc v).runIn s = (.ok a, t) →
      P a ∧ kept t)
    {members : List Value} {seed acc : Value} (start : P seed) (given : ∀ v ∈ members, P v)
    (before : kept s) (ran : (foldCalls call seed members).runIn s = (.ok acc, t)) :
    P acc ∧ kept t := by
  induction members generalizing s seed with
  | nil =>
    cases ran
    exact ⟨start, before⟩
  | cons member rest ih =>
    obtain ⟨here, others⟩ := List.forall_mem_cons.mp given
    obtain ⟨next, u, first, later⟩ := Eval.runIn_bind_succeeded ran
    obtain ⟨value, between⟩ := calls seed member start here s next u before first
    exact ih value others between later

theorem foldCalls_fails {before after : List Value} {seed acc member : Value}
    (ran : (foldCalls call seed before).runIn s = (.ok acc, u))
    (failed : (call acc member).runIn u = (.error e, t)) :
    (foldCalls call seed (before ++ member :: after)).runIn s = (.error e, t) := by
  induction before generalizing s seed with
  | nil =>
    cases ran
    exact Eval.runIn_bind_error failed
  | cons first rest ih =>
    obtain ⟨next, w, here, later⟩ := Eval.runIn_bind_succeeded ran
    rw [List.cons_append, foldCalls, Eval.runIn_bind_ok here]
    exact ih later

theorem foldCalls_failed {members : List Value} {seed : Value}
    (failed : (foldCalls call seed members).runIn s = (.error e, t)) :
    ∃ before member after acc u, members = before ++ member :: after ∧
      (foldCalls call seed before).runIn s = (.ok acc, u) ∧
      (call acc member).runIn u = (.error e, t) := by
  induction members generalizing s seed with
  | nil => cases failed
  | cons member rest ih =>
    rcases Eval.runIn_bind_failed failed with here | ⟨next, w, ran, later⟩
    · exact ⟨[], member, rest, seed, s, rfl, rfl, here⟩
    · obtain ⟨before, other, after, acc, u, rfl, ran', here⟩ := ih later
      refine ⟨member :: before, other, after, acc, u, rfl, ?_, here⟩
      rw [foldCalls, Eval.runIn_bind_ok ran, ran']

end Loops

end ArrayMethod

end MonkeyLang
