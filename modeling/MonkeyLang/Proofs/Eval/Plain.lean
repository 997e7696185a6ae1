import MonkeyLang.Proofs.Eval.ArrayMethod
import MonkeyLang.Proofs.Eval.Builtin
import MonkeyLang.Proofs.Store.Plain

namespace MonkeyLang

def Fault.Usual (fault : Fault) : Prop := fault ≠ .encode .escapedReturn

/-- Started in a plain store, the computation ends in one, with a good result or a usual fault. -/
def Eval.KeepsPlain {α : Type} (c : Eval α) (good : α → Prop) : Prop :=
  Eval.Triple Store.Plain c (fun a t => good a ∧ t.Plain) (fun e t => e.fault.Usual ∧ t.Plain)

namespace Eval.KeepsPlain

variable {α β : Type} {c : Eval α} {good : α → Prop}

theorem pure {a : α} (holds : good a) : KeepsPlain (Pure.pure a) good :=
  Triple.pure fun _ plain => ⟨holds, plain⟩

theorem fail {line : Nat} {fault : Fault} (usual : fault.Usual) :
    KeepsPlain (Eval.fail line fault) good :=
  Triple.fail fun _ plain => ⟨usual, plain⟩

theorem bind {f : α → Eval β} {after : β → Prop} (first : KeepsPlain c good)
    (next : ∀ a, good a → KeepsPlain (f a) after) : KeepsPlain (c >>= f) after :=
  Triple.bind first fun a t ⟨holds, plain⟩ => next a holds t plain

theorem read {f : Store → α} (good : α → Prop) (holds : ∀ s : Store, s.Plain → good (f s)) :
    KeepsPlain (Eval.read f) good :=
  Triple.read fun s plain => ⟨holds s plain, plain⟩

theorem reads {f : Store → α} : KeepsPlain (Eval.read f) fun _ => True :=
  read _ fun _ _ => trivial

theorem change {f : Store → Store} (keeps : ∀ s : Store, s.Plain → (f s).Plain) :
    KeepsPlain (Eval.change f) fun _ => True :=
  Triple.change fun s plain => ⟨trivial, keeps s plain⟩

theorem update {f : Store → α × Store}
    (keeps : ∀ s : Store, s.Plain → good (f s).1 ∧ (f s).2.Plain) :
    KeepsPlain (Eval.update f) good :=
  Triple.update keeps

theorem updates {f : Store → α × Store} (keeps : ∀ s : Store, s.Plain → (f s).2.Plain) :
    KeepsPlain (Eval.update f) fun _ => True :=
  update fun s plain => ⟨trivial, keeps s plain⟩

theorem ofExcept {line : Nat} {result : Except Fault α} (holds : ∀ a, result = .ok a → good a)
    (usual : ∀ fault, result = .error fault → fault.Usual) :
    KeepsPlain (Eval.ofExcept line result) good :=
  Triple.ofExcept (fun _ plain a ok => ⟨holds a ok, plain⟩)
    fun _ plain fault error => ⟨usual fault error, plain⟩

theorem checks {line : Nat} {result : Except Fault α}
    (usual : ∀ fault, result = .error fault → fault.Usual) :
    KeepsPlain (Eval.ofExcept line result) fun _ => True :=
  ofExcept (fun _ _ => trivial) usual

theorem mono {better : α → Prop} (keeps : KeepsPlain c good) (le : ∀ a, good a → better a) :
    KeepsPlain c better :=
  Triple.mono keeps (fun a _ ⟨holds, plain⟩ => ⟨le a holds, plain⟩) fun _ _ ended => ended

theorem newArray {values : Array Value} (members : ∀ v ∈ values, v.Plain) :
    KeepsPlain (Eval.newArray values) Value.Plain := by
  refine bind (updates fun s plain => plain.alloc members) ?_
  exact fun _ _ => pure rfl

end Eval.KeepsPlain

def PlainOutcome (result : Except Fault Value) : Prop :=
  (∀ v, result = .ok v → v.Plain) ∧ ∀ fault, result = .error fault → fault.Usual

theorem PlainOutcome.ok {v : Value} (plain : v.Plain) : PlainOutcome (.ok v) :=
  ⟨fun _ same => Except.ok.inj same ▸ plain, fun _ same => nomatch same⟩

theorem PlainOutcome.error {fault : Fault} (usual : fault.Usual) : PlainOutcome (.error fault) :=
  ⟨fun _ same => (nomatch same), fun _ same => Except.error.inj same ▸ usual⟩

theorem Eval.KeepsPlain.ofOutcome {line : Nat} {result : Except Fault Value}
    (outcome : PlainOutcome result) : KeepsPlain (Eval.ofExcept line result) Value.Plain :=
  ofExcept outcome.1 outcome.2

section Operators

theorem OperatorOutcome.plain {result : Except Fault Value} (outcome : OperatorOutcome result) :
    PlainOutcome result := by
  cases outcome with
  | flat alone => exact .ok (Value.plain_of_flat alone)
  | divisionByZero | wrongType => exact .error fun same => nomatch same

theorem Store.Plain.index_outcome {s : Store} (plain : s.Plain) (a b : Value) :
    PlainOutcome (s.index a b) := by
  rcases s.index_outcome a b with ⟨id, i, member⟩ | outcome
  · rw [member]
    exact .ok (plain.getD id i)
  · exact outcome.plain

end Operators

section Builtins

theorem Builtin.run_keepsPlain (line : Nat) (args : List Value) (builtin : Builtin) :
    Eval.KeepsPlain (builtin.run line args) Value.Plain := by
  intro s plain
  have outcome := run_outcome line args builtin s
  generalize (builtin.run line args).runIn s = ended at outcome ⊢
  cases outcome with
  | printed => exact ⟨rfl, plain.members, plain.bindings⟩
  | flat alone => exact ⟨Value.plain_of_flat alone, plain⟩
  | decoded read => exact ⟨rfl, plain.decode read⟩
  | refused failed =>
    refine ⟨fun same => ?_, plain⟩
    rw [Fault.encode.inj same] at failed
    exact plain.encode_ne_escapedReturn (fun v => plain.mem_toList) failed
  | failed other => exact ⟨other _, plain⟩

end Builtins

def Enter.KeepsPlain (enter : Enter) : Prop :=
  ∀ c frame, Eval.KeepsPlain (enter c frame) Value.Result

section Calls

variable {enter : Enter} (entering : enter.KeepsPlain)

theorem Closure.bindParams_keepsPlain (c : Closure) (frame : FrameId)
    (bound : List (Nat × Value)) (plain : ∀ binding ∈ bound, binding.2.Plain) :
    Eval.KeepsPlain (c.bindParams frame bound) fun _ => True := by
  induction bound with
  | nil => exact .pure trivial
  | cons binding rest ih =>
    rw [List.forall_mem_cons] at plain
    unfold bindParams
    split
    · exact .fail fun same => nomatch same
    · exact .bind (.change fun s store => store.define plain.1 _ _) fun _ _ => ih plain.2

include entering in
theorem Closure.invoke_keepsPlain (c : Closure) (scope : FrameId) (bound : List (Nat × Value))
    (plain : ∀ binding ∈ bound, binding.2.Plain) :
    Eval.KeepsPlain (c.invoke enter scope bound) Value.Plain := by
  refine .bind (.updates fun s store => store.child scope) ?_
  intro frame _
  refine .bind (c.bindParams_keepsPlain frame bound plain) fun _ _ => ?_
  exact .bind (entering c frame) fun result ends => .pure ends

include entering in
theorem Closure.call_keepsPlain (line : Nat) (c : Closure) (args : List Value)
    (plain : ∀ v ∈ args, v.Plain) : Eval.KeepsPlain (c.call enter line args) Value.Plain := by
  unfold call
  split
  · exact c.invoke_keepsPlain entering c.scope _ fun _ member =>
      plain _ (of_mem_numbered member).2
  · exact .fail fun same => nomatch same

end Calls

namespace ArrayMethod

section Arguments

theorem ArgumentFault.usual {fault : Fault} (argument : ArgumentFault fault) : fault.Usual := by
  cases argument <;> exact fun same => nomatch same

end Arguments

section Callbacks

theorem filterCalls_keepsPlain {call : Value → Eval Value}
    (calls : ∀ v : Value, v.Plain → Eval.KeepsPlain (call v) Value.Plain) (members : List Value)
    (plain : ∀ v ∈ members, v.Plain) :
    Eval.KeepsPlain (filterCalls call members) fun kept => ∀ v ∈ kept, v.Plain := by
  induction members with
  | nil => exact .pure (by simp)
  | cons member rest ih =>
    rw [List.forall_mem_cons] at plain
    refine .bind (calls member plain.1) fun kept _ => .bind (ih plain.2) fun others all => ?_
    refine .pure ?_
    split
    · exact List.forall_mem_cons.mpr ⟨plain.1, all⟩
    · exact all

theorem mapCalls_keepsPlain {call : Value → Eval Value}
    (calls : ∀ v : Value, v.Plain → Eval.KeepsPlain (call v) Value.Plain) (members : List Value)
    (plain : ∀ v ∈ members, v.Plain) :
    Eval.KeepsPlain (mapCalls call members) fun results => ∀ v ∈ results, v.Plain := by
  induction members with
  | nil => exact .pure (by simp)
  | cons member rest ih =>
    rw [List.forall_mem_cons] at plain
    refine .bind (calls member plain.1) fun result here => .bind (ih plain.2) fun others all => ?_
    exact .pure (List.forall_mem_cons.mpr ⟨here, all⟩)

theorem foldCalls_keepsPlain {call : Value → Value → Eval Value}
    (calls : ∀ acc v : Value, acc.Plain → v.Plain → Eval.KeepsPlain (call acc v) Value.Plain)
    (acc : Value) (start : acc.Plain) (members : List Value) (plain : ∀ v ∈ members, v.Plain) :
    Eval.KeepsPlain (foldCalls call acc members) Value.Plain := by
  induction members generalizing acc with
  | nil => exact .pure start
  | cons member rest ih =>
    rw [List.forall_mem_cons] at plain
    exact .bind (calls acc member start plain.1) fun next here => ih next here plain.2

end Callbacks

variable {enter : Enter} (entering : enter.KeepsPlain)

theorem run_keepsPlain_alone {method : ArrayMethod} (alone : method.callsBack = false)
    (enter : Enter) (line : Nat) (scope : FrameId) (receiver : ArrayId) (args : List Value)
    (arg : (args.headD .nil).Plain) :
    Eval.KeepsPlain (method.run enter line scope receiver args) Value.Plain := by
  intro s store
  have outcome := run_outcome alone enter line scope receiver args s
  generalize (method.run enter line scope receiver args).runIn s = ended at outcome ⊢
  cases outcome with
  | flat flat => exact ⟨Value.plain_of_flat flat, store⟩
  | member inside => exact ⟨store.members receiver _ inside, store⟩
  | made inside =>
    refine ⟨rfl, store.alloc fun v member => ?_⟩
    obtain ⟨id, there⟩ := inside v member
    exact store.members id v there
  | edited _ left result =>
    refine ⟨?_, store.modify fun v member => ?_⟩
    · rcases result with rfl | rfl | inside
      · rfl
      · rfl
      · exact store.members receiver _ inside
    · rcases left v member with old | rfl
      · exact store.members receiver v old
      · exact arg
  | refused argument => exact ⟨argument.usual, store⟩

include entering in
theorem run_keepsPlain (line : Nat) (scope : FrameId) (receiver : ArrayId) (args : List Value)
    (method : ArrayMethod) (plain : ∀ v ∈ args, v.Plain) :
    Eval.KeepsPlain (method.run enter line scope receiver args) Value.Plain := by
  have argPlain : (args.headD .nil).Plain := by
    cases args with
    | nil => rfl
    | cons arg rest => exact plain arg List.mem_cons_self
  have one (c : Closure) (v : Value) (here : v.Plain) :
      Eval.KeepsPlain (c.invoke enter scope [(0, v)]) Value.Plain :=
    c.invoke_keepsPlain entering scope _ (by simpa using here)
  have visited : Eval.KeepsPlain (Eval.read (·.members receiver)) fun members =>
      ∀ v ∈ members.toList, v.Plain :=
    .read _ fun s store v member => store.mem_toList member
  cases method with
  | filter =>
    refine .bind visited fun members listed => ?_
    refine .bind (.checks fun _ failed => (callbackArg_fault failed).usual) fun block _ => ?_
    refine .bind (filterCalls_keepsPlain (one block) _ listed) fun kept all => ?_
    exact .newArray (by simpa using all)
  | map =>
    refine .bind visited fun members listed => ?_
    refine .bind (.checks fun _ failed => (callbackArg_fault failed).usual) fun block _ => ?_
    refine .bind (mapCalls_keepsPlain (one block) _ listed) fun results all => ?_
    exact .newArray (by simpa using all)
  | reduce =>
    refine .bind visited fun members listed => ?_
    refine .bind (.checks fun _ failed => (callbackArg_fault failed).usual) fun block _ => ?_
    have two (acc v : Value) (before : acc.Plain) (here : v.Plain) :
        Eval.KeepsPlain (block.invoke enter scope [(0, acc), (1, v)]) Value.Plain :=
      block.invoke_keepsPlain entering scope _ (by simp [before, here])
    dsimp only
    split
    · rename_i seed _ given
      have seedPlain : seed.Plain := plain seed (List.mem_of_mem_drop (given ▸ List.mem_cons_self))
      exact foldCalls_keepsPlain two seed seedPlain _ listed
    · rename_i seed rest _ given
      rw [given, List.forall_mem_cons] at listed
      exact foldCalls_keepsPlain two seed listed.1 rest listed.2
    · exact .pure rfl
  | _ => exact run_keepsPlain_alone rfl enter line scope receiver args argPlain

include entering in
theorem dispatch_keepsPlain (line : Nat) (scope : FrameId) (name : String) (receiver : ArrayId)
    (args : List Value) (plain : ∀ v ∈ args, v.Plain) :
    Eval.KeepsPlain (dispatch enter line scope name receiver args) Value.Plain := by
  unfold dispatch
  split
  · exact .fail fun same => nomatch same
  · rename_i method _
    split
    · exact run_keepsPlain entering line scope receiver args method plain
    · exact .fail fun same => nomatch same

end ArrayMethod

section Evaluation

theorem Eval.KeepsPlain.result {c : Eval Value} (keeps : c.KeepsPlain Value.Plain) :
    c.KeepsPlain Value.Result :=
  keeps.mono fun _ plain => plain.result

variable {enter : Enter} (lines : LineIndex) (frame : FrameId)

mutual

theorem Expr.eval_keepsPlain (entering : enter.KeepsPlain) (e : Expr) :
    Eval.KeepsPlain (e.eval enter lines frame) Value.Result := by
  cases e with
  | int _ _ | uint _ _ | float _ _ | str _ _ | bool _ _ | nil _ =>
    rw [Expr.eval]
    exact .pure rfl
  | var span name =>
    rw [Expr.eval]
    refine .bind (.read (fun found => ∀ v, found = some v → v.Plain)
      fun s plain v => plain.get?) fun found holds => ?_
    cases found with
    | some v => exact .pure (holds v rfl).result
    | none => exact .fail fun same => nomatch same
  | array _ members =>
    rw [Expr.eval]
    refine .bind (evalArgs_keepsPlain entering members) fun values all => .result ?_
    exact .newArray (by simpa using all)
  | binary span op left right =>
    rw [Expr.eval]
    refine .bind (left.eval_keepsPlain entering) fun a here => ?_
    cases op with
    | logic op =>
      cases op with
      | and =>
        dsimp only
        split
        · exact right.eval_keepsPlain entering
        · exact .pure here
      | or =>
        dsimp only
        split
        · exact .pure here
        · exact right.eval_keepsPlain entering
    | strict op =>
      refine .bind (right.eval_keepsPlain entering) fun b _ => ?_
      refine .bind (.read PlainOutcome fun s _ => (op.apply_outcome s a b).plain) ?_
      exact fun outcome holds => (Eval.KeepsPlain.ofOutcome holds).result
  | unary span op operand =>
    rw [Expr.eval]
    refine .bind (operand.eval_keepsPlain entering) fun a _ => .result ?_
    exact .ofOutcome (op.apply_outcome a).plain
  | cond _ test consequence alternative =>
    cases alternative with
    | none =>
      rw [Expr.eval]
      refine .bind (test.eval_keepsPlain entering) fun a _ => ?_
      split
      · exact consequence.eval_keepsPlain entering
      · exact .pure rfl
    | some other =>
      rw [Expr.eval]
      refine .bind (test.eval_keepsPlain entering) fun a _ => ?_
      split
      · exact consequence.eval_keepsPlain entering
      · exact other.eval_keepsPlain entering
  | block _ body =>
    rw [Expr.eval]
    exact evalBody_keepsPlain entering body
  | function _ params body =>
    rw [Expr.eval]
    refine .bind (.updates fun s plain =>
      plain.close params body frame lines) fun _ _ => ?_
    exact .pure rfl
  | call span callee args =>
    rw [Expr.eval]
    refine .bind .reads fun found _ => ?_
    cases found with
    | some builtin =>
      exact .bind (evalArgs_keepsPlain entering args) fun values _ =>
        (builtin.run_keepsPlain _ values).result
    | none =>
      refine .bind (callee.eval_keepsPlain entering) fun f _ => ?_
      refine .bind (evalArgs_keepsPlain entering args) fun values all => ?_
      cases f with
      | closure c => exact (c.call_keepsPlain entering _ values all).result
      | _ => exact .fail fun same => nomatch same
  | method _ receiver name nameSpan args =>
    rw [Expr.eval]
    refine .bind (receiver.eval_keepsPlain entering) fun target _ => ?_
    refine .bind (evalArgs_keepsPlain entering args) fun values all => ?_
    cases target with
    | array id =>
      exact (ArrayMethod.dispatch_keepsPlain entering _ frame name id values all).result
    | _ => exact .fail fun same => nomatch same
  | index span target position =>
    rw [Expr.eval]
    refine .bind (target.eval_keepsPlain entering) fun a _ => ?_
    refine .bind (position.eval_keepsPlain entering) fun b _ => ?_
    refine .bind (.read PlainOutcome fun s plain => plain.index_outcome a b) ?_
    exact fun outcome holds => (Eval.KeepsPlain.ofOutcome holds).result

theorem evalArgs_keepsPlain (entering : enter.KeepsPlain) (args : List Expr) :
    Eval.KeepsPlain (evalArgs enter lines frame args) fun values => ∀ v ∈ values, v.Plain := by
  cases args with
  | nil =>
    rw [evalArgs]
    exact .pure (by simp)
  | cons arg rest =>
    rw [evalArgs]
    refine .bind (arg.eval_keepsPlain entering) fun v here => ?_
    refine .bind (evalArgs_keepsPlain entering rest) fun values all => ?_
    exact .pure (List.forall_mem_cons.mpr ⟨here, all⟩)

theorem Stmt.eval_keepsPlain (entering : enter.KeepsPlain) (stmt : Stmt) :
    Eval.KeepsPlain (stmt.eval enter lines frame) Value.Result := by
  cases stmt with
  | bind _ name e =>
    rw [Stmt.eval]
    refine .bind (e.eval_keepsPlain entering) fun v here => ?_
    split
    · exact .pure here
    · rename_i ends
      have plain : v.Plain := by simpa [Value.Plain] using ends
      exact .bind (.change fun s store => store.define plain frame name) fun _ _ => .pure rfl
  | result _ value =>
    cases value with
    | none =>
      rw [Stmt.eval]
      exact .pure rfl
    | some e =>
      rw [Stmt.eval]
      exact .bind (e.eval_keepsPlain entering) fun v here => .pure here
  | expr _ e =>
    rw [Stmt.eval]
    exact e.eval_keepsPlain entering

theorem evalBody_keepsPlain (entering : enter.KeepsPlain) (body : List Stmt) :
    Eval.KeepsPlain (evalBody enter lines frame body) Value.Result := by
  match body with
  | [] =>
    rw [evalBody]
    exact .pure rfl
  | [last] =>
    rw [evalBody]
    exact last.eval_keepsPlain entering
  | stmt :: next :: rest =>
    rw [evalBody]
    · refine .bind (stmt.eval_keepsPlain entering) fun v here => ?_
      split
      · exact .pure here
      · exact evalBody_keepsPlain entering (next :: rest)
    · exact fun same => nomatch same

end

end Evaluation

theorem enterWithin_keepsPlain (room : Nat) : (enterWithin room).KeepsPlain := by
  induction room with
  | zero => exact fun c frame => .fail fun same => nomatch same
  | succ room ih => exact fun c frame => c.body.eval_keepsPlain c.lines frame ih

end MonkeyLang
