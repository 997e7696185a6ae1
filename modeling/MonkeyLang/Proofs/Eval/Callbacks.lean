import MonkeyLang.Eval
import MonkeyLang.Proofs.Eval.Triple
import MonkeyLang.Proofs.Store.Handles

namespace MonkeyLang

def Closure.applied (enter : Enter) (c : Closure) (scope : FrameId) (values : List Value)
    (s : Store) : Except RuntimeError Value × Store :=
  let frame := (s.child scope).1
  let bound := (c.params.zip values).foldl (fun t binding => t.define frame binding.1 binding.2)
    (s.child scope).2
  match (enter c frame).runIn bound with
  | (.ok result, t) => (.ok result.unwrap, t)
  | (.error e, t) => (.error e, t)

/-- `Calls call acc s members results stop t`: in the store `s` the call is made for one member after
    the other, each time with the result of the call before it, first with `acc`. It gives the
    results, and the store `t`, where either no member is left or the next call stops with an
    error. -/
inductive Calls (call : Value → Value → Store → Except RuntimeError Value × Store) :
    Value → Store → List Value → List Value → Option RuntimeError → Store → Prop
  | done {acc : Value} {s : Store} : Calls call acc s [] [] none s
  | next {acc member result : Value} {s t u : Store} {rest results : List Value}
      {stop : Option RuntimeError} (ran : call acc member s = (.ok result, t))
      (later : Calls call result t rest results stop u) :
      Calls call acc s (member :: rest) (result :: results) stop u
  | failed {acc member : Value} {s t : Store} {rest : List Value} {e : RuntimeError}
      (failed : call acc member s = (.error e, t)) :
      Calls call acc s (member :: rest) [] (some e) t

/-- The array is new behind the first store, it has the values as its members, and nothing else
    is new in the second store. -/
structure Store.Makes (s : Store) (values : List Value) (id : ArrayId) (t : Store) : Prop where
  fresh : id ∉ s.handles
  members : (t.members id).toList = values
  others : ∀ other, other ≠ id → t.members other = s.members other
  frames : t.frames = s.frames
  closures : t.closures = s.closures
  output : t.output = s.output

theorem Store.alloc_makes (s : Store) (values : List Value) :
    s.Makes values (s.alloc values.toArray).1 (s.alloc values.toArray).2 where
  fresh inside := by
    rw [mem_handles] at inside
    exact Nat.lt_irrefl _ inside
  members := by
    rw [members_alloc, if_pos (show (s.alloc values.toArray).1.index = s.arrays.size from rfl)]
  others other different := by
    rw [members_alloc, if_neg]
    exact fun same => different (congrArg ArrayId.mk same)
  frames := rfl
  closures := rfl
  output := rfl

def ArrayMethod.chosen (members results : List Value) : List Value :=
  ((members.zip results).filter (·.2.truthy)).map (·.1)

theorem ArrayMethod.chosen_sublist (members results : List Value) :
    (chosen members results).Sublist members := by
  induction members generalizing results with
  | nil => exact List.Sublist.refl _
  | cons member rest ih =>
    cases results with
    | nil => exact List.nil_sublist _
    | cons result results =>
      by_cases kept : result.truthy = true
      · simpa [chosen, kept] using ih results
      · simpa [chosen, kept] using (ih results).cons member

section Binding

variable {c : Closure} {frame : FrameId} {s : Store}

theorem Closure.runIn_bindParams {values : List Value} {k : Nat}
    (enough : k + values.length ≤ c.arity) :
    (c.bindParams frame ((values.zipIdx k).map fun (v, i) => (i, v))).runIn s =
      (.ok (), ((c.params.drop k).zip values).foldl
        (fun t binding => t.define frame binding.1 binding.2) s) := by
  induction values generalizing k s with
  | nil =>
    rw [List.zip_nil_right]
    rfl
  | cons v values ih =>
    rw [List.length_cons] at enough
    have declared : k < c.params.length := by
      unfold arity at enough
      omega
    have here : c.params.drop k = c.params[k] :: c.params.drop (k + 1) :=
      List.drop_eq_getElem_cons declared
    have bound : c.params[k]? = some c.params[k] := List.getElem?_eq_getElem declared
    rw [List.zipIdx_cons, List.map_cons, bindParams, bound, here, List.zip_cons_cons,
      List.foldl_cons]
    exact (Eval.runIn_bind_ok rfl).trans (ih (by omega))

theorem Closure.runIn_invoke (enter : Enter) (scope : FrameId) (values : List Value)
    (enough : values.length = c.arity) :
    (c.invoke enter scope (numbered values)).runIn s = c.applied enter scope values s := by
  have bound : (c.bindParams (s.child scope).1 (numbered values)).runIn (s.child scope).2 =
      (.ok (), ((c.params.drop 0).zip values).foldl
        (fun t binding => t.define (s.child scope).1 binding.1 binding.2) (s.child scope).2) :=
    runIn_bindParams (by omega)
  rw [List.drop_zero] at bound
  rw [applied]
  generalize (c.params.zip values).foldl _ (s.child scope).2 = inner at bound ⊢
  refine (Eval.runIn_bind_ok rfl).trans ((Eval.runIn_bind_ok bound).trans ?_)
  rcases ran : (enter c (s.child scope).1).runIn inner with ⟨e | result, t⟩
  · exact Eval.runIn_bind_error ran
  · exact Eval.runIn_bind_ok ran

end Binding

namespace Calls

variable {call : Value → Value → Store → Except RuntimeError Value × Store}

theorem exists_calls (call : Value → Value → Store → Except RuntimeError Value × Store)
    (acc : Value) (s : Store) (members : List Value) :
    ∃ results stop t, Calls call acc s members results stop t := by
  induction members generalizing acc s with
  | nil => exact ⟨[], none, s, .done⟩
  | cons member rest ih =>
    rcases ran : call acc member s with ⟨result | e, t⟩
    · exact ⟨[], _, t, .failed ran⟩
    · obtain ⟨results, stop, u, later⟩ := ih e t
      exact ⟨_, stop, u, .next ran later⟩

def ending {α : Type} (stop : Option RuntimeError) (a : α) : Except RuntimeError α :=
  match stop with
  | some e => .error e
  | none => .ok a

variable {acc : Value} {s t : Store} {members results : List Value} {stop : Option RuntimeError}

theorem length (calls : Calls call acc s members results none t) :
    results.length = members.length := by
  generalize ended : none = stop at calls
  induction calls with
  | done => rfl
  | next ran later ih => rw [List.length_cons, List.length_cons, ih ended]
  | failed => cases ended

variable {f : Value → Eval Value}

theorem runIn_mapCalls (calls : Calls (fun _ v => (f v).runIn) acc s members results stop t) :
    (ArrayMethod.mapCalls f members).runIn s = (ending stop results, t) := by
  induction calls with
  | done => rfl
  | @next acc member result s t u rest results stop ran later ih =>
    refine (Eval.runIn_bind_ok ran).trans ?_
    cases stop with
    | none => exact Eval.runIn_bind_ok ih
    | some e => exact Eval.runIn_bind_error ih
  | failed failed => exact Eval.runIn_bind_error failed

theorem runIn_filterCalls (calls : Calls (fun _ v => (f v).runIn) acc s members results stop t) :
    (ArrayMethod.filterCalls f members).runIn s =
      (ending stop (ArrayMethod.chosen members results), t) := by
  induction calls with
  | done => rfl
  | @next acc member result s t u rest results stop ran later ih =>
    refine (Eval.runIn_bind_ok ran).trans ?_
    cases stop with
    | none =>
      refine (Eval.runIn_bind_ok ih).trans ?_
      by_cases kept : result.truthy = true
      · simp [kept, ending, ArrayMethod.chosen]
      · simp [kept, ending, ArrayMethod.chosen]
    | some e => exact Eval.runIn_bind_error ih
  | failed failed => exact Eval.runIn_bind_error failed

theorem runIn_foldCalls {f : Value → Value → Eval Value}
    (calls : Calls (fun acc v => (f acc v).runIn) acc s members results stop t) :
    (ArrayMethod.foldCalls f acc members).runIn s = (ending stop (results.getLastD acc), t) := by
  induction calls with
  | done => rfl
  | @next acc member result s t u rest results stop ran later ih =>
    refine (Eval.runIn_bind_ok ran).trans (ih.trans ?_)
    cases results <;> rfl
  | failed failed => exact Eval.runIn_bind_error failed

section Applied

variable {c : Closure}

theorem exists_each (enter : Enter) (scope : FrameId) (s : Store) (members : List Value)
    (single : c.arity = 1) : ∃ results stop t,
      Calls (fun _ v => c.applied enter scope [v]) .nil s members results stop t ∧
      (ArrayMethod.mapCalls (fun v => c.invoke enter scope [(0, v)]) members).runIn s =
        (ending stop results, t) ∧
      (ArrayMethod.filterCalls (fun v => c.invoke enter scope [(0, v)]) members).runIn s =
        (ending stop (ArrayMethod.chosen members results), t) := by
  have same : (fun _ v => c.applied enter scope [v]) =
      fun (_ v : Value) => (c.invoke enter scope [(0, v)]).runIn := by
    funext _ v t
    exact (Closure.runIn_invoke enter scope [v] single.symm).symm
  obtain ⟨results, stop, t, calls⟩ :=
    exists_calls (fun _ v => c.applied enter scope [v]) .nil s members
  refine ⟨results, stop, t, calls, ?_⟩
  rw [same] at calls
  exact ⟨calls.runIn_mapCalls, calls.runIn_filterCalls⟩

theorem exists_folded (enter : Enter) (scope : FrameId) (s : Store) (seed : Value)
    (members : List Value) (double : c.arity = 2) : ∃ results stop t,
      Calls (fun acc v => c.applied enter scope [acc, v]) seed s members results stop t ∧
      (ArrayMethod.foldCalls (fun acc v => c.invoke enter scope [(0, acc), (1, v)]) seed
        members).runIn s = (ending stop (results.getLastD seed), t) := by
  have same : (fun acc v => c.applied enter scope [acc, v]) =
      fun (acc v : Value) => (c.invoke enter scope [(0, acc), (1, v)]).runIn := by
    funext acc v t
    exact (Closure.runIn_invoke enter scope [acc, v] double.symm).symm
  obtain ⟨results, stop, t, calls⟩ :=
    exists_calls (fun acc v => c.applied enter scope [acc, v]) seed s members
  refine ⟨results, stop, t, calls, ?_⟩
  rw [same] at calls
  exact calls.runIn_foldCalls

end Applied

end Calls

namespace ArrayMethod

section Methods

variable {enter : Enter} {line : Nat} {scope : FrameId} {s t : Store} {receiver : ArrayId}
  {c : Closure} {results : List Value} {stop : Option RuntimeError}

theorem callbackArg_closure {params : Nat} (method : ArrayMethod) (right : c.arity = params) :
    method.callbackArg params (.closure c) = .ok c := if_pos right

theorem runIn_filter {name : String} (named : ofName? name = some .filter) (right : c.arity = 1) :
    (dispatch enter line scope name receiver [.closure c]).runIn s =
      (filterCalls (fun v => c.invoke enter scope [(0, v)]) (s.members receiver).toList >>=
        fun kept => Eval.newArray kept.toArray).runIn s := by
  have given := filter.callbackArg_closure right
  simp only [dispatch, named, run, List.headD_cons, given]
  rfl

theorem runIn_map {name : String} (named : ofName? name = some .map) (right : c.arity = 1) :
    (dispatch enter line scope name receiver [.closure c]).runIn s =
      (mapCalls (fun v => c.invoke enter scope [(0, v)]) (s.members receiver).toList >>=
        fun results => Eval.newArray results.toArray).runIn s := by
  have given := map.callbackArg_closure right
  simp only [dispatch, named, run, List.headD_cons, given]
  rfl

theorem runIn_reduce_seeded {name : String} (named : ofName? name = some .reduce) (seed : Value)
    (right : c.arity = 2) :
    (dispatch enter line scope name receiver [.closure c, seed]).runIn s =
      (foldCalls (fun acc v => c.invoke enter scope [(0, acc), (1, v)]) seed
        (s.members receiver).toList).runIn s := by
  have given := reduce.callbackArg_closure right
  simp only [dispatch, named, run, List.headD_cons, given]
  rfl

theorem runIn_reduce {name : String} (named : ofName? name = some .reduce)
    (right : c.arity = 2) :
    (dispatch enter line scope name receiver [.closure c]).runIn s =
      (match (s.members receiver).toList with
        | seed :: rest => foldCalls (fun acc v => c.invoke enter scope [(0, acc), (1, v)]) seed rest
        | [] => pure .nil : Eval Value).runIn s := by
  have given := reduce.callbackArg_closure right
  have accepts : reduce.arity.accepts [Value.closure c].length = true := rfl
  simp only [dispatch, named, accepts, if_true, run, List.headD_cons, given]
  rw [Eval.runIn_bind, Eval.runIn_read]
  dsimp only
  cases (s.members receiver).toList <;> rfl

theorem runIn_collect {loop : Eval (List Value)} {values : List Value}
    (ran : loop.runIn s = (Calls.ending stop values, t)) :
    (∀ e, stop = some e →
      (loop >>= fun values => Eval.newArray values.toArray).runIn s = (.error e, t)) ∧
    (stop = none → ∃ id u,
      (loop >>= fun values => Eval.newArray values.toArray).runIn s = (.ok (.array id), u) ∧
        t.Makes values id u) := by
  constructor
  · rintro e rfl
    exact Eval.runIn_bind_error ran
  · rintro rfl
    exact ⟨_, _, Eval.runIn_bind_ok ran, t.alloc_makes values⟩

end Methods

/-- Whatever a function does when it is called, `map` and `filter` call it once for each member that
    the array had at the start, up to the first call that fails, whose error is theirs; so does
    `reduce` from a seed on, or else from the first member on, with the result of the call before as
    the first argument. If no call fails, `map` makes a new array of the results and `filter` one of
    the members whose results are true, and `reduce` ends in the last result. Without a member and a
    seed it is nil, and no function is called. -/
theorem functions_called_in_order (enter : Enter) (line : Nat) (scope : FrameId) (s : Store)
    (receiver : ArrayId) (one two : Closure) (single : one.arity = 1) (double : two.arity = 2) :
    let members := (s.members receiver).toList
    let ends (name : String) (args : List Value) :=
      (dispatch enter line scope name receiver args).runIn s
    let folds (seed : Value) (visited args : List Value) := ∃ results stop t,
      Calls (fun acc v => two.applied enter scope [acc, v]) seed s visited results stop t ∧
        ends "reduce" args = (Calls.ending stop (results.getLastD seed), t)
    (∃ results stop t, Calls (fun _ v => one.applied enter scope [v]) .nil s members results stop t ∧
      (∀ e, stop = some e → ends "map" [.closure one] = (.error e, t) ∧
        ∀ name ∈ ["filter", "grep"], ends name [.closure one] = (.error e, t)) ∧
      (stop = none → results.length = members.length ∧
        (chosen members results).Sublist members ∧
        (∃ id u, ends "map" [.closure one] = (.ok (.array id), u) ∧ t.Makes results id u) ∧
        ∀ name ∈ ["filter", "grep"], ∃ id u, ends name [.closure one] = (.ok (.array id), u) ∧
          t.Makes (chosen members results) id u)) ∧
    (∀ seed, folds seed members [.closure two, seed]) ∧
    (∀ first rest, members = first :: rest → folds first rest [.closure two] ∧
      ∀ other, (s.members other).toList = rest →
        ends "reduce" [.closure two] =
          (dispatch enter line scope "reduce" other [.closure two, first]).runIn s) ∧
    (members = [] → ends "reduce" [.closure two] = (.ok .nil, s)) := by
  intro members ends folds
  have unseeded : ends "reduce" [.closure two] = _ := runIn_reduce rfl double
  refine ⟨?_, fun seed => ?_, fun first rest split => ?_, fun none => ?_⟩
  · obtain ⟨results, stop, t, calls, maps, filters⟩ :=
      Calls.exists_each enter scope s members single
    refine ⟨results, stop, t, calls, ?_⟩
    have mapped := runIn_collect maps
    have filtered := runIn_collect filters
    rw [← runIn_map (show ofName? "map" = some .map from rfl) single] at mapped
    have named : ∀ name ∈ ["filter", "grep"], ofName? name = some .filter := by decide
    refine ⟨fun e stops => ⟨mapped.1 e stops, fun name member => ?_⟩, fun ended => ?_⟩
    · exact (runIn_filter (named name member) single).trans (filtered.1 e stops)
    · subst ended
      refine ⟨calls.length, chosen_sublist members results, mapped.2 rfl, fun name member => ?_⟩
      obtain ⟨id, u, ran, makes⟩ := filtered.2 rfl
      exact ⟨id, u, (runIn_filter (named name member) single).trans ran, makes⟩
  · obtain ⟨results, stop, t, calls, folded⟩ :=
      Calls.exists_folded enter scope s seed members double
    exact ⟨results, stop, t, calls, (runIn_reduce_seeded rfl seed double).trans folded⟩
  · change (s.members receiver).toList = first :: rest at split
    rw [split] at unseeded
    refine ⟨?_, fun other same => ?_⟩
    · obtain ⟨results, stop, t, calls, folded⟩ :=
        Calls.exists_folded enter scope s first rest double
      exact ⟨results, stop, t, calls, unseeded.trans folded⟩
    · rw [unseeded, runIn_reduce_seeded rfl first double, same]
  · change (s.members receiver).toList = [] at none
    rw [unseeded, none]
    rfl

/-- A function that pushes each member onto the array that it is called for is called twice. -/
theorem functions_called_in_order_growing :
    let s := (Store.initial.alloc #[.int 1, .int 2]).2.define Store.globals "a" (.array ⟨0⟩)
    let one : Closure := ⟨0, ["x"],
      .method ⟨0, 9⟩ (.var ⟨0, 1⟩ "a") "push" ⟨2, 6⟩ [.var ⟨7, 8⟩ "x"], Store.globals, ⟨[]⟩⟩
    let two : Closure := ⟨1, ["x", "y"], .var ⟨0, 1⟩ "y", Store.globals, ⟨[]⟩⟩
    one.arity = 1 ∧ two.arity = 2 ∧ ∃ (results : List Value) (t : Store) (id : ArrayId) (u : Store),
      (dispatch enterFirst 1 Store.globals "map" ⟨0⟩ [.closure one]).runIn s =
        (.ok (.array id), u) ∧ t.Makes results id u ∧ results.length = 2 := by
  intro s one two
  obtain ⟨⟨results, stop, t, -, fails, gives⟩, -⟩ :=
    functions_called_in_order enterFirst 1 Store.globals s ⟨0⟩ one two rfl rfl
  have ended : ((dispatch enterFirst 1 Store.globals "map" ⟨0⟩ [.closure one]).runIn s).1.isOk =
      true := by decide +kernel
  cases stop with
  | some e =>
    have failed : (dispatch enterFirst 1 Store.globals "map" ⟨0⟩ [.closure one]).runIn s =
        (.error e, t) := (fails e rfl).1
    rw [failed] at ended
    cases ended
  | none =>
    obtain ⟨size, -, ⟨id, u, ran, makes⟩, -⟩ := gives rfl
    exact ⟨rfl, rfl, results, t, id, u, ran, makes, size⟩

end ArrayMethod

end MonkeyLang
