import MonkeyLang.Proofs.Eval.Halting
import MonkeyLang.Proofs.Eval.Plain
import MonkeyLang.Proofs.Store.Sound

namespace MonkeyLang

structure Eval.EndsSound (c : Eval Value) (s : Store) : Prop where
  follows : s.Follows (c.runIn s).2
  live : ∀ v, (c.runIn s).1 = .ok v → v.Live (c.runIn s).2

namespace Eval.EndsSound

variable {s : Store} {line : Nat} (sound : s.Sound)

theorem of_ok {c : Eval Value} {v : Value} {t : Store} (ran : c.runIn s = (.ok v, t))
    (follows : s.Follows t) (live : v.Live t) : EndsSound c s := by
  constructor
  all_goals rw [ran]
  · exact follows
  · exact fun _ same => Except.ok.inj same ▸ live

theorem of_error {c : Eval Value} {e : RuntimeError} {t : Store}
    (ran : c.runIn s = (.error e, t)) (follows : s.Follows t) : EndsSound c s := by
  constructor
  all_goals rw [ran]
  · exact follows
  · exact fun _ same => nomatch same

include sound in
theorem pure {v : Value} (live : v.Live s) : EndsSound (Pure.pure v) s :=
  ⟨sound.refl, fun _ same => Except.ok.inj same ▸ live⟩

include sound in
theorem fail {fault : Fault} : EndsSound (Eval.fail line fault) s :=
  ⟨sound.refl, fun _ same => nomatch same⟩

include sound in
theorem ofExcept {result : Except Fault Value} (live : ∀ v, result = .ok v → v.Live s) :
    EndsSound (Eval.ofExcept line result) s := by
  cases result with
  | ok v => exact pure sound (live v rfl)
  | error fault => exact fail sound

include sound in
theorem newArray {values : Array Value} (live : ∀ v ∈ values, v.Live s) :
    EndsSound (Eval.newArray values) s := by
  obtain ⟨follows, made⟩ := sound.alloc values live
  exact ⟨follows, fun _ same => Except.ok.inj same ▸ made⟩

end Eval.EndsSound

theorem Value.live_of_flat {s : Store} {v : Value} {tree : Unfolding}
    (alone : v.flat? = some tree) : v.Live s := by
  cases v with
  | array | returned => cases alone
  | _ => trivial

section Operators

variable {s : Store} {a b v : Value}

theorem OperatorOutcome.live {result : Except Fault Value} (outcome : OperatorOutcome result)
    (same : result = .ok v) : v.Live s := by
  cases outcome with
  | flat alone =>
    cases same
    exact Value.live_of_flat alone
  | divisionByZero | wrongType => cases same

theorem Store.Sound.index_live (sound : s.Sound) (same : s.index a b = .ok v) : v.Live s := by
  rcases s.index_outcome a b with ⟨id, i, member⟩ | outcome
  · rw [member] at same
    cases same
    exact Store.Holds.getD sound trivial id i
  · exact outcome.live same

end Operators

theorem Builtin.run_endsSound {s : Store} (sound : s.Sound) (line : Nat) (args : List Value)
    (builtin : Builtin) : Eval.EndsSound (builtin.run line args) s := by
  have outcome := run_outcome line args builtin s
  rcases ran : (builtin.run line args).runIn s with ⟨result, t⟩
  rw [ran] at outcome
  cases outcome with
  | flat alone => exact .of_ok ran sound.refl (Value.live_of_flat alone)
  | printed =>
    exact .of_ok ran ⟨.of_holds ⟨sound.members, sound.bindings⟩ (Nat.le_refl _), Nat.le_refl _⟩
      trivial
  | decoded read => exact .of_ok ran (sound.decode read).1 (sound.decode read).2
  | refused | failed => exact .of_error ran sound.refl

theorem ArrayMethod.run_endsSound {s : Store} (sound : s.Sound) {method : ArrayMethod}
    (alone : method.callsBack = false) (enter : Enter) (line : Nat) (scope : FrameId)
    {receiver : ArrayId} {args : List Value} (target : (Value.array receiver).Live s)
    (arg : (args.headD .nil).Live s) :
    Eval.EndsSound (method.run enter line scope receiver args) s := by
  have outcome := run_outcome alone enter line scope receiver args s
  rcases ran : (method.run enter line scope receiver args).runIn s with ⟨result, t⟩
  rw [ran] at outcome
  cases outcome with
  | flat flat => exact .of_ok ran sound.refl (Value.live_of_flat flat)
  | member inside => exact .of_ok ran sound.refl (sound.members receiver _ inside)
  | @made values inside =>
    have live : ∀ v ∈ values, v.Live s := fun v member =>
      have ⟨id, there⟩ := inside v member
      sound.members id v there
    exact .of_ok ran (sound.alloc values live).1 (sound.alloc values live).2
  | @edited v f _ left result =>
    have follows : s.Follows (s.modify receiver f) := by
      refine sound.modify fun w member => ?_
      rcases left w member with old | rfl
      · exact sound.members receiver w old
      · exact arg
    have live : v.Live s := by
      rcases result with rfl | rfl | inside
      · exact target
      · trivial
      · exact sound.members receiver v inside
    exact .of_ok ran follows (live.mono follows.more)
  | refused => exact .of_error ran sound.refl

namespace Machine

section Values

def Use.values : Use → List Value
  | call _ callee => [callee]
  | method _ _ receiver _ => [receiver]
  | members | builtin .. => []

def Gathered.values : Gathered → List Value
  | kept members => members
  | results values => values
  | folded acc => [acc]

def Loop.values (loop : Loop) : List Value := loop.gathered.values ++ loop.members

def Pending.values : Pending → List Value
  | strict _ _ left => [left]
  | arg use values _ _ => use.values ++ values
  | index _ target => [target]
  | loop calls member => member :: calls.values
  | _ => []

def Control.values : Control → List Value
  | args use values _ _ => use.values ++ values
  | call _ _ values => values
  | invoke _ _ bound => bound.map (·.2)
  | loop calls => calls.values
  | done (.ok v) => [v]
  | _ => []

end Values

/-- There are no dangling handles in the store and in what waits. -/
structure Held (m : Machine) : Prop where
  store : m.store.Sound
  pending : ∀ waiting ∈ m.pending, ∀ v ∈ waiting.values, v.Live m.store

structure Sound (m : Machine) : Prop extends Held m where
  control : ∀ v ∈ m.control.values, v.Live m.store

section Loops

variable {gathered : Gathered} {member result : Value} {s : Store}

theorem live_bound (live : ∀ v ∈ gathered.values, v.Live s) (here : member.Live s) :
    ∀ v ∈ (gathered.bound member).map (·.2), v.Live s := by
  cases gathered with
  | kept | results => exact List.forall_mem_singleton.mpr here
  | folded acc => exact List.forall_mem_cons.mpr ⟨live acc List.mem_cons_self, by simpa using here⟩

theorem live_add (live : ∀ v ∈ gathered.values, v.Live s) (here : member.Live s)
    (ended : result.Live s) : ∀ v ∈ (gathered.add member result).values, v.Live s := by
  cases gathered with
  | kept members =>
    unfold Gathered.add
    dsimp only
    split
    · exact List.forall_mem_cons.mpr ⟨here, live⟩
    · exact live
  | results values => exact List.forall_mem_cons.mpr ⟨ended, live⟩
  | folded acc => exact List.forall_mem_singleton.mpr ended

theorem finish_endsSound (sound : s.Sound) (live : ∀ v ∈ gathered.values, v.Live s) :
    gathered.finish.EndsSound s := by
  cases gathered with
  | kept members => exact .newArray sound (by simpa [Gathered.values] using live)
  | results values => exact .newArray sound (by simpa [Gathered.values] using live)
  | folded acc => exact .pure sound (live acc List.mem_cons_self)

end Loops

section Steps

variable {m next : Machine}

theorem eq_ok_of_mem_values {result : Except RuntimeError Value} {v : Value}
    (member : v ∈ (Control.done result).values) : result = .ok v := by
  cases result with
  | ok w => rw [List.mem_singleton.mp member]
  | error e => cases member

namespace Held

variable (held : m.Held)

include held

theorem follow (follows : m.store.Follows next.store)
    (same : ∀ waiting ∈ next.pending, waiting ∈ m.pending) : next.Held where
  store := follows.sound
  pending waiting member v inside :=
    (held.pending waiting (same waiting member) v inside).mono follows.more

theorem goto {control : Control} (live : ∀ v ∈ control.values, v.Live m.store) :
    (m.goto control).Sound :=
  ⟨held.follow held.store.refl fun _ member => member, live⟩

theorem wait {waiting : Pending} {control : Control} (kept : ∀ v ∈ waiting.values, v.Live m.store)
    (live : ∀ v ∈ control.values, v.Live m.store) : (m.wait waiting control).Sound :=
  ⟨⟨held.store, List.forall_mem_cons.mpr ⟨kept, held.pending⟩⟩, live⟩

theorem finish {c : Eval Value} (ends : c.EndsSound m.store) : (m.finish c).Sound :=
  ⟨held.follow ends.follows fun _ member => member, fun v member =>
    ends.live v (eq_ok_of_mem_values member)⟩

theorem done {v : Value} (live : v.Live m.store) : (m.goto (.done (.ok v))).Sound :=
  held.goto fun w member => by rwa [List.mem_singleton.mp member]

theorem fail {line : Nat} {fault : Fault} : (m.finish (Eval.fail line fault)).Sound :=
  held.finish (.fail held.store)

theorem startLoop {line : Nat} {scope : FrameId} {block : Except Fault Closure}
    {gathered : Gathered} {members : List Value} (start : ∀ v ∈ gathered.values, v.Live m.store)
    (visited : ∀ v ∈ members, v.Live m.store) :
    (m.startLoop line scope block gathered members).Sound := by
  cases block with
  | ok block => exact held.goto (List.forall_mem_append.mpr ⟨start, visited⟩)
  | error fault => exact held.fail

end Held

theorem live_headD {values : List Value} {s : Store} (live : ∀ v ∈ values, v.Live s) :
    (values.headD .nil).Live s := by
  cases values with
  | nil => trivial
  | cons v rest => exact live v List.mem_cons_self

theorem Held.runMethod (held : m.Held) (line : Nat) (scope : FrameId) {receiver : ArrayId}
    {values : List Value} (target : (Value.array receiver).Live m.store)
    (live : ∀ v ∈ values, v.Live m.store) (method : ArrayMethod) :
    (m.runMethod line scope receiver values method).Sound := by
  have inside : ∀ v ∈ (m.store.members receiver).toList, v.Live m.store :=
    fun v => held.store.mem_toList
  cases method with
  | filter | map => exact held.startLoop (by simp [Gathered.values]) inside
  | reduce =>
    unfold Machine.runMethod
    dsimp only
    split
    · rename_i seed rest dropped
      have member : seed ∈ values.drop 1 := dropped ▸ List.mem_cons_self
      refine held.startLoop (fun v same => ?_) inside
      rw [List.mem_singleton.mp same]
      exact live seed (List.mem_of_mem_drop member)
    · rename_i seed rest dropped listed
      rw [listed] at inside
      obtain ⟨here, later⟩ := List.forall_mem_cons.mp inside
      exact held.startLoop (by simpa [Gathered.values] using here) later
    · exact held.startLoop (by simp [Gathered.values, Value.Live]) (by simp)
  | _ =>
    exact held.finish
      (ArrayMethod.run_endsSound held.store rfl noCalls line scope target (live_headD live))

theorem Held.dispatch (held : m.Held) (line : Nat) (scope : FrameId) (name : String)
    {receiver : ArrayId} {values : List Value} (target : (Value.array receiver).Live m.store)
    (live : ∀ v ∈ values, v.Live m.store) :
    (m.dispatch line scope name receiver values).Sound := by
  unfold Machine.dispatch
  split
  · exact held.fail
  · split
    · exact held.runMethod line scope target live _
    · exact held.fail

theorem Held.apply (held : m.Held) {values : List Value} (live : ∀ v ∈ values, v.Live m.store)
    {use : Use} (kept : ∀ v ∈ use.values, v.Live m.store) : (m.apply values use).Sound := by
  cases use with
  | members => exact held.finish (.newArray held.store (by simpa using live))
  | builtin line builtin => exact held.finish (builtin.run_endsSound held.store line values)
  | call line callee =>
    cases callee with
    | closure c => exact held.goto live
    | _ => exact held.fail
  | method name nameSpan receiver frame =>
    cases receiver with
    | array id => exact held.dispatch _ frame name (kept _ List.mem_cons_self) live
    | _ => exact held.fail

theorem Held.stepExpr (held : m.Held) (frame : FrameId) (e : Expr) :
    (m.stepExpr frame e).Sound := by
  have sound := held.store
  have none : ∀ v ∈ ([] : List Value), v.Live m.store := by simp
  cases e with
  | int | uint | float | str | bool | nil => exact held.done trivial
  | var span name =>
    unfold Machine.stepExpr
    dsimp only
    split
    · rename_i v found
      exact held.done (Store.Holds.get? sound found)
    · exact held.fail
  | array | block => exact held.goto none
  | binary | unary | cond | method | index => exact held.wait none none
  | function _ params body =>
    refine held.finish ⟨sound.close params body frame m.lines, fun v same => ?_⟩
    cases same
    trivial
  | call span callee args =>
    unfold Machine.stepExpr
    dsimp only
    split
    · exact held.goto none
    · exact held.wait none none

theorem Held.stepStmt (held : m.Held) (frame : FrameId) (item : Stmt) :
    (m.stepStmt frame item).Sound := by
  have none : ∀ v ∈ ([] : List Value), v.Live m.store := by simp
  cases item with
  | bind => exact held.wait none none
  | result _ e =>
    cases e with
    | none => exact held.done trivial
    | some e => exact held.wait none none
  | expr => exact held.goto none

theorem Held.resume (held : m.Held) {v : Value} (live : v.Live m.store) {waiting : Pending}
    (kept : ∀ w ∈ waiting.values, w.Live m.store) : (m.resume v waiting).Sound := by
  have sound := held.store
  have none : ∀ v ∈ ([] : List Value), v.Live m.store := by simp
  have one : ∀ w ∈ [v], w.Live m.store := List.forall_mem_singleton.mpr live
  cases waiting with
  | right line op right frame =>
    cases op with
    | logic op =>
      cases op with
      | and =>
        unfold Machine.resume
        dsimp only
        split
        · exact held.goto none
        · exact held.done live
      | or =>
        unfold Machine.resume
        dsimp only
        split
        · exact held.done live
        · exact held.goto none
    | strict op => exact held.wait one none
  | strict line op left => exact held.finish (.ofExcept sound fun w => (op.apply_outcome _ left v).live)
  | unary line op => exact held.finish (.ofExcept sound fun w => (op.apply_outcome v).live)
  | branch consequence alternative frame =>
    unfold Machine.resume
    dsimp only
    split
    · exact held.goto none
    · cases alternative with
      | some other => exact held.goto none
      | none => exact held.done trivial
  | arg use values rest frame =>
    obtain ⟨before, others⟩ := List.forall_mem_append.mp kept
    have all := List.forall_mem_cons.mpr ⟨live.unwrap, others⟩
    exact held.goto (List.forall_mem_append.mpr ⟨before, all⟩)
  | callee | receiver => exact held.goto one
  | position => exact held.wait one none
  | index line target => exact held.finish (.ofExcept sound fun w => sound.index_live)
  | bind name frame =>
    unfold Machine.resume
    dsimp only
    split
    · exact held.done live
    · exact ⟨held.follow (sound.define live frame name) fun _ member => member,
        List.forall_mem_singleton.mpr trivial⟩
  | result => exact held.done live.unwrap
  | body =>
    unfold Machine.resume
    dsimp only
    split
    · exact held.done live
    · exact held.goto none
  | loop calls member =>
    obtain ⟨here, rest⟩ := List.forall_mem_cons.mp kept
    obtain ⟨before, visited⟩ := List.forall_mem_append.mp rest
    exact held.goto (List.forall_mem_append.mpr ⟨live_add before here live, visited⟩)
  | leave lines =>
    exact ⟨held.follow sound.refl fun _ member => member,
      List.forall_mem_singleton.mpr live.unwrap⟩

theorem bindAll?_follows {c : Closure} {frame : FrameId} {bound : List (Nat × Value)} {s t : Store}
    (sound : s.Sound) (live : ∀ v ∈ bound.map (·.2), v.Live s)
    (all : bindAll? c frame bound s = some t) : s.Follows t := by
  induction bound generalizing s with
  | nil =>
    cases all
    exact sound.refl
  | cons binding rest ih =>
    obtain ⟨here, later⟩ := List.forall_mem_cons.mp live
    rw [bindAll?] at all
    split at all
    · cases all
    · rename_i name _
      have defined := sound.define here frame name
      have rest := fun v member => (later v member).mono defined.more
      exact defined.trans (ih defined.sound rest all)

theorem numbered_values (values : List Value) :
    (Closure.numbered values).map (·.2) = values := by
  rw [Closure.numbered, List.map_map]
  exact List.zipIdx_map_fst 0 values

theorem Sound.unwind (sound : m.Sound) (waiting : Pending) : (m.unwind waiting).Sound := by
  cases waiting <;> exact ⟨⟨sound.store, sound.pending⟩, sound.control⟩

theorem Sound.step {m next : Machine} (sound : m.Sound) (steps : m.step = some next) :
    next.Sound := by
  have held := sound.toHeld
  have live := sound.control
  have none {s : Store} : ∀ v ∈ ([] : List Value), v.Live s := by simp
  unfold Machine.step at steps
  split at steps
  case h_1 e frame _ =>
    cases steps
    exact held.stepExpr frame e
  case h_2 use values frame control =>
    cases steps
    rw [control] at live
    obtain ⟨kept, given⟩ := List.forall_mem_append.mp live
    exact held.apply (by simpa using given) kept
  case h_3 use values e rest frame control =>
    cases steps
    rw [control] at live
    exact held.wait live none
  case h_4 item frame _ =>
    cases steps
    exact held.stepStmt frame item
  case h_5 =>
    cases steps
    exact held.done trivial
  case h_6 =>
    cases steps
    exact held.goto none
  case h_7 =>
    cases steps
    exact held.wait none none
  case h_8 line c values control =>
    rw [control] at live
    split at steps
    · cases steps
      refine held.goto ?_
      change ∀ v ∈ (Closure.numbered values).map (·.2), v.Live m.store
      rw [numbered_values]
      exact live
    · cases steps
      exact held.fail
  case h_9 c scope bound control =>
    rw [control] at live
    obtain ⟨t, all, rfl⟩ := Option.map_eq_some_iff.mp steps
    have follows := bindAll?_follows (held.store.child scope).sound
      (fun v member => (live v member).mono (held.store.child scope).more) all
    exact ⟨held.follow ((held.store.child scope).trans follows) fun _ member => member, none⟩
  case h_10 c frame _ =>
    split at steps
    · cases steps
      exact held.fail
    · cases steps
      refine ⟨⟨held.store, ?_⟩, none⟩
      exact List.forall_mem_cons.mpr ⟨none, held.pending⟩
  case h_11 gathered control =>
    cases steps
    rw [control] at live
    exact held.finish (finish_endsSound held.store (List.forall_mem_append.mp live).1)
  case h_12 block scope gathered member rest control =>
    cases steps
    rw [control] at live
    obtain ⟨before, visited⟩ := List.forall_mem_append.mp live
    obtain ⟨here, later⟩ := List.forall_mem_cons.mp visited
    refine held.wait ?_ (live_bound before here)
    exact List.forall_mem_cons.mpr ⟨here, List.forall_mem_append.mpr ⟨before, later⟩⟩
  case h_13 result control =>
    rw [control] at live
    split at steps
    · cases steps
    · rename_i waiting rest pending
      have kept := held.pending
      rw [pending] at kept
      obtain ⟨here, later⟩ := List.forall_mem_cons.mp kept
      have below : Held { m with pending := rest } := ⟨held.store, later⟩
      split at steps
      · cases steps
        exact below.resume (live _ List.mem_cons_self) here
      · cases steps
        exact Sound.unwind ⟨below, by rw [control]; exact live⟩ waiting

theorem Sound.after {m t : Machine} {k : Nat} (sound : m.Sound) (reached : after k m = some t) :
    t.Sound := by
  induction k generalizing m with
  | zero =>
    cases reached
    exact sound
  | succ k ih =>
    obtain ⟨next, steps, later⟩ := Option.bind_eq_some_iff.mp reached
    exact ih (sound.step steps) later

end Steps

end Machine

namespace Store

theorem Sound.eval {s : Store} (sound : s.Sound) (lines : LineIndex) (program : Program) :
    ((program.eval lines).runIn s).2.Sound := by
  have does : Machine.Does lines 0 (.body program.body globals)
      (evalBody enterFirst lines globals program.body) :=
    Machine.body_does (Machine.enterWithin_entering 0) program.body
  obtain ⟨n, result, t, reached, ran⟩ := does.halts [] s
  have start : Machine.Sound ⟨s, lines, 0, [], .body program.body globals⟩ :=
    ⟨⟨sound, by simp⟩, by simp [Machine.Control.values]⟩
  have ended := start.after reached
  rw [Program.eval]
  cases result with
  | ok v =>
    rw [Eval.runIn_bind_ok ran]
    exact ended.store
  | error e =>
    rw [Eval.runIn_bind_error ran]
    exact ended.store

theorem Sound.run {s : Store} (sound : s.Sound) (text : List Char) : (s.run text).2.Sound := by
  unfold Store.run
  split
  · exact sound
  · rename_i program _
    have ended := sound.eval (LineIndex.ofText text) program
    split <;> rename_i ran <;> rwa [ran] at ended

theorem session_sound (texts : List (List Char)) : (session texts).Sound := by
  unfold session
  have run_all (s : Store) (sound : s.Sound) :
      (texts.foldl (fun s text => (s.run text).2) s).Sound := by
    induction texts generalizing s with
    | nil => exact sound
    | cons text rest ih => exact ih _ (sound.run text)
  exact run_all initial sound_initial

end Store

end MonkeyLang
