import MonkeyLang.Proofs.Eval.ArrayMethod
import MonkeyLang.Proofs.Eval.Builtin
import MonkeyLang.Proofs.Store.Handles
import MonkeyLang.Proofs.Value.Codec

namespace MonkeyLang

namespace Store

/-- The frames of the first store are in the second one as they were, but that `own` may have other
    values for its names and more names. -/
structure KeepsFrames (own : Option FrameId) (s t : Store) : Prop where
  size : s.frames.size ≤ t.frames.size
  others : ∀ id : FrameId, id.index < s.frames.size → own ≠ some id → t.frame id = s.frame id
  parent : ∀ id : FrameId, id.index < s.frames.size → (t.frame id).parent = (s.frame id).parent
  names : ∀ (id : FrameId) (name : String), id.index < s.frames.size →
    (s.frame id).binds name = true → (t.frame id).binds name = true

theorem binds_insert {bindings : List (String × Value)} {name bound : String} {value : Value}
    (inside : bindings.any (·.1 = bound) = true) :
    (Frame.insert name value bindings).any (·.1 = bound) = true := by
  fun_induction Frame.insert name value bindings with
  | case1 => cases inside
  | case2 old rest => exact inside
  | case3 other old rest _ _ => rw [List.any_cons, inside, Bool.or_true]
  | case4 other old rest _ _ ih =>
    rw [List.any_cons, Bool.or_eq_true] at inside ⊢
    exact inside.imp_right ih

namespace KeepsFrames

variable {own : Option FrameId} {s t u : Store}

theorem of_frames (same : t.frames = s.frames) : KeepsFrames own s t := by
  have frame (id : FrameId) : t.frame id = s.frame id := by rw [Store.frame, same, Store.frame]
  exact ⟨by rw [same], fun id _ _ => frame id, fun id _ => by rw [frame],
    fun id name _ bound => by rw [frame, bound]⟩

theorem refl : KeepsFrames own s s := of_frames rfl

theorem trans (first : KeepsFrames own s t) (later : KeepsFrames own t u) :
    KeepsFrames own s u where
  size := first.size.trans later.size
  others id old other :=
    (later.others id (old.trans_le first.size) other).trans (first.others id old other)
  parent id old := (later.parent id (old.trans_le first.size)).trans (first.parent id old)
  names id name old bound :=
    later.names id name (old.trans_le first.size) (first.names id name old bound)

theorem weaken (keeps : KeepsFrames none s t) : KeepsFrames own s t :=
  { keeps with others := fun id old _ => keeps.others id old nofun }

theorem define (id : FrameId) (name : String) (value : Value) :
    KeepsFrames (some id) s (s.define id name value) := by
  refine ⟨?_, fun other _ ne => ?_, fun other _ => ?_, fun other bound _ binds => ?_⟩
  · exact (Array.size_modify ..).ge
  · rw [frame_define, if_neg]
    exact fun both => ne (congrArg some both.1.symm)
  · rw [frame_define]
    split
    · rename_i both
      rw [both.1]
      rfl
    · rfl
  · rw [frame_define]
    split
    · rename_i both
      rw [both.1] at binds
      exact binds_insert binds
    · exact binds

theorem of_child {scope : FrameId}
    (inside : KeepsFrames (some (s.child scope).1) (s.child scope).2 t) :
    KeepsFrames none s t := by
  have grown : s.frames.size < (s.child scope).2.frames.size := by simp [child]
  have fresh (id : FrameId) (old : id.index < s.frames.size) :
      (s.child scope).2.frame id = s.frame id := by
    rw [frame_child, if_neg (Nat.ne_of_lt old)]
  refine ⟨grown.le.trans inside.size, fun id old _ => ?_, fun id old => ?_,
    fun id name old bound => ?_⟩
  · rw [← fresh id old]
    refine inside.others id (old.trans grown) fun same => ?_
    rw [← Option.some.inj same] at old
    exact lt_irrefl _ old
  · rw [← fresh id old]
    exact inside.parent id (old.trans grown)
  · rw [← fresh id old] at bound
    exact inside.names id name (old.trans grown) bound

end KeepsFrames

end Store

def Eval.KeepsFrames {α : Type} (own : Option FrameId) (c : Eval α) : Prop :=
  ∀ s, Store.KeepsFrames own s (c.runIn s).2

namespace Eval.KeepsFrames

variable {α β : Type} {own : Option FrameId} {c : Eval α}

theorem pure {a : α} : KeepsFrames own (Pure.pure a) := fun _ => .refl

theorem fail {line : Nat} {fault : Fault} : KeepsFrames own (Eval.fail line fault : Eval α) :=
  fun _ => .refl

theorem ofExcept {line : Nat} {result : Except Fault α} :
    KeepsFrames own (Eval.ofExcept line result) := by
  cases result with
  | ok a => exact pure
  | error fault => exact fail

theorem read {f : Store → α} : KeepsFrames own (Eval.read f) := fun _ => .refl

theorem update {f : Store → α × Store} (same : ∀ s, (f s).2.frames = s.frames) :
    KeepsFrames own (Eval.update f) :=
  fun s => .of_frames (same s)

theorem define {frame : FrameId} {name : String} {value : Value} :
    KeepsFrames (some frame) (Eval.change (·.define frame name value)) :=
  fun _ => .define frame name value

theorem bind {f : α → Eval β} (first : KeepsFrames own c)
    (next : ∀ a, KeepsFrames own (f a)) : KeepsFrames own (c >>= f) := by
  intro s
  have keeps := first s
  rcases ran : c.runIn s with ⟨result, t⟩
  rw [ran] at keeps
  cases result with
  | ok a =>
    rw [runIn_bind_ok ran]
    exact keeps.trans (next a t)
  | error e =>
    rw [runIn_bind_error ran]
    exact keeps

theorem weaken (keeps : KeepsFrames none c) : KeepsFrames own c := fun s => (keeps s).weaken

theorem newArray {values : Array Value} : KeepsFrames own (Eval.newArray values) :=
  .bind (.update fun _ => rfl) fun _ => .pure

theorem inChild {scope : FrameId} {f : FrameId → Eval α}
    (inside : ∀ frame, KeepsFrames (some frame) (f frame)) :
    KeepsFrames none (Eval.update (·.child scope) >>= f) :=
  fun s => .of_child (inside (s.child scope).1 (s.child scope).2)

end Eval.KeepsFrames

section Builtins

theorem Builtin.run_keepsFrames (line : Nat) (args : List Value) (builtin : Builtin) :
    Eval.KeepsFrames none (builtin.run line args) := by
  intro s
  have outcome := run_outcome line args builtin s
  generalize (builtin.run line args).runIn s = ended at outcome ⊢
  cases outcome with
  | flat | refused | failed => exact .refl
  | printed => exact .of_frames rfl
  | decoded read =>
    obtain ⟨new, rfl⟩ := Store.decode_grows read
    exact .of_frames rfl

end Builtins

def Enter.KeepsFrames (enter : Enter) : Prop :=
  ∀ c frame, Eval.KeepsFrames (some frame) (enter c frame)

section Calls

variable {enter : Enter} (entering : enter.KeepsFrames)

theorem Closure.bindParams_keepsFrames (c : Closure) (frame : FrameId)
    (bound : List (Nat × Value)) : Eval.KeepsFrames (some frame) (c.bindParams frame bound) := by
  induction bound with
  | nil => exact .pure
  | cons binding rest ih =>
    unfold bindParams
    split
    · exact .fail
    · exact .bind .define fun _ => ih

include entering in
theorem Closure.invoke_keepsFrames (c : Closure) (scope : FrameId) (bound : List (Nat × Value)) :
    Eval.KeepsFrames none (c.invoke enter scope bound) := by
  refine .inChild fun frame => ?_
  refine .bind (c.bindParams_keepsFrames frame bound) fun _ => ?_
  exact .bind (entering c frame) fun _ => .pure

include entering in
theorem Closure.call_keepsFrames (line : Nat) (c : Closure) (args : List Value) :
    Eval.KeepsFrames none (c.call enter line args) := by
  unfold call
  split
  · exact c.invoke_keepsFrames entering c.scope _
  · exact .fail

end Calls

namespace ArrayMethod

section Callbacks

variable {own : Option FrameId}

theorem filterCalls_keepsFrames {call : Value → Eval Value}
    (calls : ∀ v, Eval.KeepsFrames own (call v)) (members : List Value) :
    Eval.KeepsFrames own (filterCalls call members) := by
  induction members with
  | nil => exact .pure
  | cons member rest ih => exact .bind (calls member) fun _ => .bind ih fun _ => .pure

theorem mapCalls_keepsFrames {call : Value → Eval Value}
    (calls : ∀ v, Eval.KeepsFrames own (call v)) (members : List Value) :
    Eval.KeepsFrames own (mapCalls call members) := by
  induction members with
  | nil => exact .pure
  | cons member rest ih => exact .bind (calls member) fun _ => .bind ih fun _ => .pure

theorem foldCalls_keepsFrames {call : Value → Value → Eval Value}
    (calls : ∀ acc v, Eval.KeepsFrames own (call acc v)) (acc : Value) (members : List Value) :
    Eval.KeepsFrames own (foldCalls call acc members) := by
  induction members generalizing acc with
  | nil => exact .pure
  | cons member rest ih => exact .bind (calls acc member) ih

end Callbacks

variable {enter : Enter} (entering : enter.KeepsFrames)

theorem run_keepsFrames_alone {method : ArrayMethod} (alone : method.callsBack = false)
    (enter : Enter) (line : Nat) (scope : FrameId) (receiver : ArrayId) (args : List Value) :
    Eval.KeepsFrames none (method.run enter line scope receiver args) := by
  intro s
  have outcome := run_outcome alone enter line scope receiver args s
  generalize (method.run enter line scope receiver args).runIn s = ended at outcome ⊢
  cases outcome with
  | flat | member | refused => exact .refl
  | made | edited => exact .of_frames rfl

include entering in
theorem run_keepsFrames (line : Nat) (scope : FrameId) (receiver : ArrayId) (args : List Value)
    (method : ArrayMethod) :
    Eval.KeepsFrames none (method.run enter line scope receiver args) := by
  have calls (c : Closure) (bound : List (Nat × Value)) :
      Eval.KeepsFrames none (c.invoke enter scope bound) :=
    c.invoke_keepsFrames entering scope bound
  cases method with
  | filter =>
    refine .bind .read fun members => .bind .ofExcept fun block => ?_
    exact .bind (filterCalls_keepsFrames (fun _ => calls block _) _) fun _ => .newArray
  | map =>
    refine .bind .read fun members => .bind .ofExcept fun block => ?_
    exact .bind (mapCalls_keepsFrames (fun _ => calls block _) _) fun _ => .newArray
  | reduce =>
    refine .bind .read fun members => .bind .ofExcept fun block => ?_
    dsimp only
    split
    · exact foldCalls_keepsFrames (fun _ _ => calls block _) _ _
    · exact foldCalls_keepsFrames (fun _ _ => calls block _) _ _
    · exact .pure
  | _ => exact run_keepsFrames_alone rfl enter line scope receiver args

include entering in
theorem dispatch_keepsFrames (line : Nat) (scope : FrameId) (name : String) (receiver : ArrayId)
    (args : List Value) : Eval.KeepsFrames none (dispatch enter line scope name receiver args) := by
  unfold dispatch
  split
  · exact .fail
  · split
    · exact run_keepsFrames entering line scope receiver args _
    · exact .fail

end ArrayMethod

section Syntax

variable {enter : Enter} (lines : LineIndex) (frame : FrameId)

mutual

theorem Expr.eval_keepsFrames (entering : enter.KeepsFrames) (e : Expr) :
    Eval.KeepsFrames (some frame) (e.eval enter lines frame) := by
  cases e with
  | int _ _ | uint _ _ | float _ _ | str _ _ | bool _ _ | nil _ =>
    rw [Expr.eval]
    exact .pure
  | var span name =>
    rw [Expr.eval]
    refine .bind .read fun found => ?_
    cases found with
    | some v => exact .pure
    | none => exact .fail
  | array _ members =>
    rw [Expr.eval]
    exact .bind (evalArgs_keepsFrames entering members) fun _ => .newArray
  | binary span op left right =>
    rw [Expr.eval]
    refine .bind (left.eval_keepsFrames entering) fun a => ?_
    cases op with
    | logic op =>
      cases op <;> dsimp only <;> split
      · exact right.eval_keepsFrames entering
      · exact .pure
      · exact .pure
      · exact right.eval_keepsFrames entering
    | strict op =>
      exact .bind (right.eval_keepsFrames entering) fun b => .bind .read fun _ => .ofExcept
  | unary span op operand =>
    rw [Expr.eval]
    exact .bind (operand.eval_keepsFrames entering) fun _ => .ofExcept
  | cond _ test consequence alternative =>
    cases alternative with
    | none =>
      rw [Expr.eval]
      refine .bind (test.eval_keepsFrames entering) fun a => ?_
      split
      · exact consequence.eval_keepsFrames entering
      · exact .pure
    | some other =>
      rw [Expr.eval]
      refine .bind (test.eval_keepsFrames entering) fun a => ?_
      split
      · exact consequence.eval_keepsFrames entering
      · exact other.eval_keepsFrames entering
  | block _ body =>
    rw [Expr.eval]
    exact evalBody_keepsFrames entering body
  | function _ params body =>
    rw [Expr.eval]
    exact .bind (.update fun _ => rfl) fun _ => .pure
  | call span callee args =>
    rw [Expr.eval]
    refine .bind .read fun found => ?_
    cases found with
    | some builtin =>
      exact .bind (evalArgs_keepsFrames entering args) fun values =>
        (builtin.run_keepsFrames _ values).weaken
    | none =>
      refine .bind (callee.eval_keepsFrames entering) fun f => ?_
      refine .bind (evalArgs_keepsFrames entering args) fun values => ?_
      cases f with
      | closure c => exact (c.call_keepsFrames entering _ values).weaken
      | _ => exact .fail
  | method _ receiver name nameSpan args =>
    rw [Expr.eval]
    refine .bind (receiver.eval_keepsFrames entering) fun target => ?_
    refine .bind (evalArgs_keepsFrames entering args) fun values => ?_
    cases target with
    | array id =>
      exact (ArrayMethod.dispatch_keepsFrames entering _ frame name id values).weaken
    | _ => exact .fail
  | index span target position =>
    rw [Expr.eval]
    refine .bind (target.eval_keepsFrames entering) fun a => ?_
    exact .bind (position.eval_keepsFrames entering) fun b => .bind .read fun _ => .ofExcept

theorem evalArgs_keepsFrames (entering : enter.KeepsFrames) (args : List Expr) :
    Eval.KeepsFrames (some frame) (evalArgs enter lines frame args) := by
  cases args with
  | nil =>
    rw [evalArgs]
    exact .pure
  | cons arg rest =>
    rw [evalArgs]
    exact .bind (arg.eval_keepsFrames entering) fun _ =>
      .bind (evalArgs_keepsFrames entering rest) fun _ => .pure

theorem Stmt.eval_keepsFrames (entering : enter.KeepsFrames) (item : Stmt) :
    Eval.KeepsFrames (some frame) (item.eval enter lines frame) := by
  cases item with
  | bind _ name e =>
    rw [Stmt.eval]
    refine .bind (e.eval_keepsFrames entering) fun v => ?_
    split
    · exact .pure
    · exact .bind .define fun _ => .pure
  | result _ value =>
    cases value with
    | none =>
      rw [Stmt.eval]
      exact .pure
    | some e =>
      rw [Stmt.eval]
      exact .bind (e.eval_keepsFrames entering) fun _ => .pure
  | expr _ e =>
    rw [Stmt.eval]
    exact e.eval_keepsFrames entering

theorem evalBody_keepsFrames (entering : enter.KeepsFrames) (items : List Stmt) :
    Eval.KeepsFrames (some frame) (evalBody enter lines frame items) := by
  match items with
  | [] =>
    rw [evalBody]
    exact .pure
  | [last] =>
    rw [evalBody]
    exact last.eval_keepsFrames entering
  | item :: next :: rest =>
    rw [evalBody]
    · refine .bind (item.eval_keepsFrames entering) fun v => ?_
      split
      · exact .pure
      · exact evalBody_keepsFrames entering (next :: rest)
    · exact fun same => nomatch same

end

end Syntax

theorem enterWithin_keepsFrames (room : Nat) : (enterWithin room).KeepsFrames := by
  induction room with
  | zero => exact fun c frame => .fail
  | succ room ih => exact fun c frame => c.body.eval_keepsFrames c.lines frame ih

end MonkeyLang
