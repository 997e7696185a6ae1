import MonkeyLang.Eval.Monad

namespace MonkeyLang

namespace Eval

section Running

variable {α β : Type} (s : Store)

@[simp] theorem runIn_pure (a : α) : (pure a : Eval α).runIn s = (.ok a, s) := rfl

@[simp] theorem runIn_fail (line : Nat) (fault : Fault) :
    (fail line fault : Eval α).runIn s = (.error ⟨fault, line⟩, s) := rfl

@[simp] theorem runIn_read (f : Store → α) : (read f).runIn s = (.ok (f s), s) := rfl

@[simp] theorem runIn_change (f : Store → Store) : (change f).runIn s = (.ok (), f s) := rfl

@[simp] theorem runIn_update (f : Store → α × Store) :
    (update f).runIn s = (.ok (f s).1, (f s).2) := rfl

@[simp] theorem runIn_set (t : Store) : (set t : Eval Unit).runIn s = (.ok ⟨⟩, t) := rfl

theorem runIn_bind (c : Eval α) (f : α → Eval β) :
    (c >>= f).runIn s = match c.runIn s with
      | (.ok a, t) => (f a).runIn t
      | (.error e, t) => (.error e, t) := by
  change (ExceptT.bind c f).run.run s = _
  simp only [ExceptT.bind, ExceptT.run, ExceptT.mk, StateT.run, bind, StateT.bind, runIn]
  rcases c s with ⟨result, t⟩
  cases result <;> rfl

theorem runIn_bind_ok {c : Eval α} {f : α → Eval β} {s t : Store} {a : α}
    (ran : c.runIn s = (.ok a, t)) : (c >>= f).runIn s = (f a).runIn t := by
  rw [runIn_bind, ran]

theorem runIn_bind_error {c : Eval α} {f : α → Eval β} {s t : Store} {e : RuntimeError}
    (ran : c.runIn s = (.error e, t)) : (c >>= f).runIn s = (.error e, t) := by
  rw [runIn_bind, ran]

theorem runIn_bind_succeeded {c : Eval α} {f : α → Eval β} {s t : Store} {b : β}
    (ended : (c >>= f).runIn s = (.ok b, t)) :
    ∃ a u, c.runIn s = (.ok a, u) ∧ (f a).runIn u = (.ok b, t) := by
  rw [runIn_bind] at ended
  rcases ran : c.runIn s with ⟨result, u⟩
  rw [ran] at ended
  cases result with
  | ok a => exact ⟨a, u, rfl, ended⟩
  | error e => cases ended

theorem runIn_bind_failed {c : Eval α} {f : α → Eval β} {s t : Store} {e : RuntimeError}
    (failed : (c >>= f).runIn s = (.error e, t)) :
    c.runIn s = (.error e, t) ∨ ∃ a u, c.runIn s = (.ok a, u) ∧ (f a).runIn u = (.error e, t) := by
  rw [runIn_bind] at failed
  rcases ran : c.runIn s with ⟨result, u⟩
  rw [ran] at failed
  cases result with
  | ok a => exact .inr ⟨a, u, rfl, failed⟩
  | error e' =>
    cases failed
    exact .inl rfl

end Running

/-- Started where `pre` holds, the computation ends with a result and a store for which `post`
    holds, or with an error and a store for which `failed` holds. -/
def Triple {α : Type} (pre : Store → Prop) (c : Eval α) (post : α → Store → Prop)
    (failed : RuntimeError → Store → Prop) : Prop :=
  ∀ s, pre s → match c.runIn s with
    | (.ok a, t) => post a t
    | (.error e, t) => failed e t

namespace Triple

variable {α β : Type} {pre : Store → Prop} {c : Eval α} {post : α → Store → Prop}
  {failed : RuntimeError → Store → Prop}

theorem ok (triple : Triple pre c post failed) {s t : Store} {a : α} (before : pre s)
    (ran : c.runIn s = (.ok a, t)) : post a t := by
  have after := triple s before
  rwa [ran] at after

theorem error (triple : Triple pre c post failed) {s t : Store} {e : RuntimeError} (before : pre s)
    (ran : c.runIn s = (.error e, t)) : failed e t := by
  have after := triple s before
  rwa [ran] at after

theorem pure {a : α} (holds : ∀ s, pre s → post a s) :
    Triple pre (Pure.pure a) post failed :=
  holds

theorem fail {line : Nat} {fault : Fault} (holds : ∀ s, pre s → failed ⟨fault, line⟩ s) :
    Triple pre (Eval.fail line fault : Eval α) post failed :=
  holds

theorem read {f : Store → α} (holds : ∀ s, pre s → post (f s) s) :
    Triple pre (Eval.read f) post failed :=
  holds

theorem change {f : Store → Store} {post : Unit → Store → Prop}
    (holds : ∀ s, pre s → post () (f s)) : Triple pre (Eval.change f) post failed :=
  holds

theorem update {f : Store → α × Store} (holds : ∀ s, pre s → post (f s).1 (f s).2) :
    Triple pre (Eval.update f) post failed :=
  holds

theorem bind {f : α → Eval β} {after : β → Store → Prop} (first : Triple pre c post failed)
    (next : ∀ a, Triple (post a) (f a) after failed) : Triple pre (c >>= f) after failed := by
  intro s before
  have ended := first s before
  rcases ran : c.runIn s with ⟨result, t⟩
  rw [ran] at ended
  cases result with
  | ok a =>
    rw [runIn_bind_ok ran]
    exact next a t ended
  | error e =>
    rw [runIn_bind_error ran]
    exact ended

theorem mono {post' : α → Store → Prop} {failed' : RuntimeError → Store → Prop}
    (triple : Triple pre c post failed) (results : ∀ a t, post a t → post' a t)
    (errors : ∀ e t, failed e t → failed' e t) : Triple pre c post' failed' := by
  intro s before
  have ended := triple s before
  rcases ran : c.runIn s with ⟨result, t⟩
  rw [ran] at ended
  cases result with
  | ok a => exact results a t ended
  | error e => exact errors e t ended

theorem ofExcept {line : Nat} {result : Except Fault α}
    (holds : ∀ s, pre s → ∀ a, result = .ok a → post a s)
    (fails : ∀ s, pre s → ∀ fault, result = .error fault → failed ⟨fault, line⟩ s) :
    Triple pre (Eval.ofExcept line result) post failed := by
  cases result with
  | ok a => exact fun s before => holds s before a rfl
  | error fault => exact fun s before => fails s before fault rfl

end Triple

end Eval

end MonkeyLang
