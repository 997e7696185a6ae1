import MonkeyLang.Proofs.Eval.Frames
import MonkeyLang.Proofs.Eval.Halting

namespace MonkeyLang

namespace Store

/-- The arrays of the first store are in the second one, and all but `own` have the members that
    they had. -/
structure KeepsArrays (own : Option ArrayId) (s t : Store) : Prop where
  handles : ∀ id ∈ s.handles, id ∈ t.handles
  members : ∀ id ∈ s.handles, own ≠ some id → t.members id = s.members id

namespace KeepsArrays

variable {own : Option ArrayId} {s t : Store}

theorem of_arrays (same : t.arrays = s.arrays) : KeepsArrays own s t where
  handles id inside := by rwa [mem_handles, same, ← mem_handles]
  members id _ _ := by rw [Store.members, same, Store.members]

theorem refl : KeepsArrays own s s := of_arrays rfl

theorem grow (new : Array (Array Value)) : KeepsArrays own s (s.grow new) where
  handles id inside := by
    rw [mem_handles] at inside ⊢
    rw [size_grow]
    omega
  members _ inside _ := s.members_grow new (mem_handles.mp inside)

theorem modify (id : ArrayId) (f : Array Value → Array Value) :
    KeepsArrays (some id) s (s.modify id f) where
  handles other inside := by
    rw [mem_handles] at inside ⊢
    exact inside.trans_eq (Array.size_modify ..).symm
  members other _ ne := by
    rw [members_modify, if_neg]
    exact fun both => ne (congrArg some both.1.symm)

end KeepsArrays

end Store

def Eval.KeepsArrays {α : Type} (own : Option ArrayId) (c : Eval α) : Prop :=
  ∀ s, Store.KeepsArrays own s (c.runIn s).2

namespace Eval.KeepsArrays

variable {α : Type} {own : Option ArrayId}

theorem pure {a : α} : KeepsArrays own (Pure.pure a) := fun _ => .refl

theorem fail {line : Nat} {fault : Fault} : KeepsArrays own (Eval.fail line fault : Eval α) :=
  fun _ => .refl

theorem ofExcept {line : Nat} {result : Except Fault α} :
    KeepsArrays own (Eval.ofExcept line result) := by
  cases result with
  | ok a => exact pure
  | error fault => exact fail

theorem newArray {values : Array Value} : KeepsArrays own (Eval.newArray values) := by
  intro s
  have grown : ((Eval.newArray values).runIn s).2 = s.grow #[values] :=
    congrArg Prod.snd (s.alloc_eq values)
  rw [grown]
  exact .grow _

end Eval.KeepsArrays

theorem Builtin.run_keepsArrays (line : Nat) (args : List Value) (builtin : Builtin) :
    Eval.KeepsArrays none (builtin.run line args) := by
  intro s
  have outcome := run_outcome line args builtin s
  generalize (builtin.run line args).runIn s = ended at outcome ⊢
  cases outcome with
  | flat | refused | failed => exact .refl
  | printed => exact .of_arrays rfl
  | decoded read =>
    obtain ⟨new, rfl⟩ := Store.decode_grows read
    exact .grow new

theorem ArrayMethod.run_keepsArrays {method : ArrayMethod} (alone : method.callsBack = false)
    (enter : Enter) (line : Nat) (scope : FrameId) (receiver : ArrayId) (args : List Value) :
    Eval.KeepsArrays (method.edited? receiver) (method.run enter line scope receiver args) := by
  intro s
  have outcome := run_outcome alone enter line scope receiver args s
  generalize (method.run enter line scope receiver args).runIn s = ended at outcome ⊢
  cases outcome with
  | flat | member | refused => exact .refl
  | @made values inside =>
    rw [s.alloc_eq values]
    exact .grow #[values]
  | edited edits =>
    rw [edits]
    exact .modify receiver _

namespace Machine

def edited? (m : Machine) : Option ArrayId :=
  match m.control with
  | .args (.method name _ (.array id) _) _ [] _ =>
    (ArrayMethod.ofName? name).bind fun method => method.edited? id
  | _ => none

section Steps

variable {own : Option ArrayId} (m : Machine)

theorem startLoop_keepsArrays (line : Nat) (scope : FrameId) (block : Except Fault Closure)
    (gathered : Gathered) (members : List Value) :
    Store.KeepsArrays own m.store (m.startLoop line scope block gathered members).store := by
  cases block <;> exact .refl

theorem runMethod_keepsArrays (line : Nat) (scope : FrameId) (receiver : ArrayId)
    (values : List Value) (method : ArrayMethod) :
    Store.KeepsArrays (method.edited? receiver) m.store
      (m.runMethod line scope receiver values method).store := by
  cases method with
  | filter | map => exact m.startLoop_keepsArrays ..
  | reduce =>
    unfold runMethod
    dsimp only
    split <;> exact m.startLoop_keepsArrays ..
  | _ => exact ArrayMethod.run_keepsArrays rfl noCalls line scope receiver values m.store

theorem dispatch_keepsArrays (line : Nat) (scope : FrameId) (name : String) (receiver : ArrayId)
    (values : List Value) :
    Store.KeepsArrays ((ArrayMethod.ofName? name).bind fun method => method.edited? receiver)
      m.store (m.dispatch line scope name receiver values).store := by
  unfold dispatch
  cases ArrayMethod.ofName? name with
  | none => exact .refl
  | some method =>
    dsimp only [Option.bind_some]
    split
    · exact m.runMethod_keepsArrays line scope receiver values method
    · exact .refl

theorem stepExpr_keepsArrays (frame : FrameId) (e : Expr) :
    Store.KeepsArrays own m.store (m.stepExpr frame e).store := by
  fun_cases stepExpr m frame e <;> exact .of_arrays rfl

theorem stepStmt_keepsArrays (frame : FrameId) (item : Stmt) :
    Store.KeepsArrays own m.store (m.stepStmt frame item).store := by
  fun_cases stepStmt m frame item <;> exact .of_arrays rfl

theorem resume_keepsArrays (v : Value) (waiting : Pending) :
    Store.KeepsArrays own m.store (m.resume v waiting).store := by
  fun_cases resume m v waiting
  all_goals first
    | exact .of_arrays rfl
    | exact Eval.KeepsArrays.ofExcept m.store

theorem bindAll?_arrays {c : Closure} {frame : FrameId} {bound : List (Nat × Value)} {s t : Store}
    (all : bindAll? c frame bound s = some t) : t.arrays = s.arrays := by
  induction bound generalizing s with
  | nil =>
    cases all
    rfl
  | cons binding rest ih =>
    rw [bindAll?] at all
    split at all
    · cases all
    · exact (ih all).trans rfl

theorem apply_keepsArrays (values : List Value) (use : Use) (frame : FrameId) (before : List Value)
    (control : m.control = .args use before [] frame) :
    Store.KeepsArrays m.edited? m.store (m.apply values use).store := by
  unfold edited?
  rw [control]
  cases use with
  | members => exact Eval.KeepsArrays.newArray m.store
  | builtin line builtin => exact builtin.run_keepsArrays line values m.store
  | call line callee => cases callee <;> exact .refl
  | method name nameSpan receiver frame =>
    cases receiver with
    | array id => exact m.dispatch_keepsArrays _ frame name id values
    | _ => exact .refl

theorem step_keepsArrays {m next : Machine} (steps : m.step = some next) :
    Store.KeepsArrays m.edited? m.store next.store := by
  unfold step at steps
  split at steps
  case h_1 e frame _ =>
    cases steps
    exact m.stepExpr_keepsArrays frame e
  case h_2 use values frame control =>
    cases steps
    exact m.apply_keepsArrays _ use frame values control
  case h_4 item frame _ =>
    cases steps
    exact m.stepStmt_keepsArrays frame item
  case h_9 c scope bound _ =>
    obtain ⟨t, all, rfl⟩ := Option.map_eq_some_iff.mp steps
    exact .of_arrays ((bindAll?_arrays all).trans rfl)
  case h_11 gathered _ =>
    cases steps
    cases gathered with
    | kept members | results values => exact Eval.KeepsArrays.newArray m.store
    | folded acc => exact .refl
  case h_13 result _ =>
    split at steps
    · cases steps
    · rename_i waiting rest _
      split at steps
      · cases steps
        exact resume_keepsArrays { m with pending := rest } _ waiting
      · cases steps
        cases waiting <;> exact .refl
  case h_8 | h_10 => split at steps <;> cases steps <;> exact .refl
  case h_3 | h_5 | h_6 | h_7 | h_12 =>
    cases steps
    exact .refl

theorem after_handles {m t : Machine} {k : Nat} (reached : after k m = some t) :
    ∀ id ∈ m.store.handles, id ∈ t.store.handles := by
  induction k generalizing m with
  | zero =>
    cases reached
    exact fun id inside => inside
  | succ k ih =>
    obtain ⟨next, steps, later⟩ := Option.bind_eq_some_iff.mp reached
    exact fun id inside => ih later id ((step_keepsArrays steps).handles id inside)

end Steps

/-- From every store, with a value or an error: an expression leaves all frames but its own as they
    are, where it loses no name; calls and methods leave all frames as they are; and no frame gets
    another parent. On the way, the members of an array change in steps that call `push`, `unshift`,
    `pop` or `shift` on it, and in no others. -/
theorem evaluation_effects (s : Store) (lines : LineIndex) :
    (∀ room frame (e : Expr),
      Store.KeepsFrames (some frame) s ((e.eval (enterWithin room) lines frame).runIn s).2) ∧
    (∀ room (c : Closure) scope bound,
      Store.KeepsFrames none s ((c.invoke (enterWithin room) scope bound).runIn s).2) ∧
    (∀ room line (c : Closure) values,
      Store.KeepsFrames none s ((c.call (enterWithin room) line values).runIn s).2) ∧
    (∀ room line scope name receiver values, Store.KeepsFrames none s
      ((ArrayMethod.dispatch (enterWithin room) line scope name receiver values).runIn s).2) ∧
    ∀ depth pending frame (e : Expr), ∃ n result t,
      after n ⟨s, lines, depth, pending, .expr e frame⟩ =
        some ⟨t, lines, depth, pending, .done result⟩ ∧
      (e.eval (enterWithin (maxDepth - depth)) lines frame).runIn s = (result, t) ∧
      ∀ k m next, after k ⟨s, lines, depth, pending, .expr e frame⟩ = some m →
        m.step = some next → ∀ id ∈ s.handles, m.edited? ≠ some id →
          next.store.members id = m.store.members id := by
  have entering (room : Nat) := enterWithin_keepsFrames room
  refine ⟨fun room frame e => e.eval_keepsFrames lines frame (entering room) s,
    fun room c scope bound => c.invoke_keepsFrames (entering room) scope bound s,
    fun room line c values => c.call_keepsFrames (entering room) line values s,
    fun room line scope name receiver values =>
      ArrayMethod.dispatch_keepsFrames (entering room) line scope name receiver values s,
    fun depth pending frame e => ?_⟩
  obtain ⟨n, result, t, reached, ran⟩ := (expr_does (enterWithin_entering depth) e).halts pending s
  refine ⟨n, result, t, reached, ran, fun k m next before steps id inside other => ?_⟩
  exact (step_keepsArrays steps).members id (after_handles before id inside) other

end Machine

end MonkeyLang
