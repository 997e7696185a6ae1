import MonkeyLang.Eval
import MonkeyLang.Proofs.Eval.Builtin
import MonkeyLang.Proofs.Eval.Plain
import MonkeyLang.Proofs.Eval.Triple
import MonkeyLang.Proofs.Store.Corpus
import MonkeyLang.Proofs.Value.Places

namespace MonkeyLang

/-- The second end of an evaluation is the first one without places, and all code in the store comes
    from the corpus. Of an error nothing but the line may differ. -/
inductive Mirrored {α β : Type} (W : Corpus) (post : α → β → Prop) :
    Except RuntimeError α × Store → Except RuntimeError β × Store → Prop
  | ok {a : α} {b : β} {t : Store} (same : post a b) (coded : t.Coded W) :
      Mirrored W post (.ok a, t) (.ok b, t.unplaced)
  | error {fault : Fault} {line line' : Nat} {t : Store} (coded : t.Coded W) :
      Mirrored W post (.error ⟨fault, line⟩, t) (.error ⟨fault, line'⟩, t.unplaced)

theorem Mirrored.of_ok {α β : Type} {W : Corpus} {post : α → β → Prop} {a : α} {t : Store}
    {ended : Except RuntimeError β × Store} (mirrored : Mirrored W post (.ok a, t) ended) :
    ∃ b, ended = (.ok b, t.unplaced) ∧ post a b := by
  cases mirrored with
  | ok same _ => exact ⟨_, rfl, same⟩

def Eval.Mirrors {α β : Type} (W : Corpus) (c : Eval α) (d : Eval β) (post : α → β → Prop) :
    Prop :=
  ∀ s : Store, s.Coded W → Mirrored W post (c.runIn s) (d.runIn s.unplaced)

structure Value.Mirrors (W : Corpus) (a b : Value) : Prop where
  same : b = a.unplaced
  coded : a.Coded W

structure Value.MirrorsAll (W : Corpus) (as bs : List Value) : Prop where
  same : bs = as.map Value.unplaced
  coded : ∀ v ∈ as, v.Coded W

namespace Value

variable {W : Corpus} {a b : Value}

theorem mirrors (coded : a.Coded W) : a.Mirrors W a.unplaced := ⟨rfl, coded⟩

theorem Mirrors.unwrap (mirrors : a.Mirrors W b) : a.unwrap.Mirrors W b.unwrap := by
  obtain ⟨rfl, coded⟩ := mirrors
  exact ⟨a.unwrap_unplaced, coded.unwrap⟩

theorem MirrorsAll.nil : MirrorsAll W [] [] := ⟨rfl, by simp⟩

theorem MirrorsAll.cons {as bs : List Value} (first : a.Mirrors W b) (rest : MirrorsAll W as bs) :
    MirrorsAll W (a :: as) (b :: bs) := by
  obtain ⟨rfl, coded⟩ := first
  obtain ⟨rfl, all⟩ := rest
  exact ⟨rfl, List.forall_mem_cons.mpr ⟨coded, all⟩⟩

theorem mirrorsAll {as : List Value} (coded : ∀ v ∈ as, v.Coded W) :
    MirrorsAll W as (as.map Value.unplaced) := ⟨rfl, coded⟩

end Value

namespace Eval.Mirrors

variable {α β γ δ : Type} {W : Corpus} {c : Eval α} {d : Eval β} {post : α → β → Prop}

theorem pure {a : α} {b : β} (same : post a b) :
    Mirrors W (Pure.pure a) (Pure.pure b) post :=
  fun _ coded => .ok same coded

theorem fail {line line' : Nat} {fault : Fault} :
    Mirrors W (Eval.fail line fault : Eval α) (Eval.fail line' fault : Eval β) post :=
  fun _ coded => .error coded

theorem bind {f : α → Eval γ} {g : β → Eval δ} {after : γ → δ → Prop}
    (first : Mirrors W c d post) (next : ∀ a b, post a b → Mirrors W (f a) (g b) after) :
    Mirrors W (c >>= f) (d >>= g) after := by
  intro s coded
  have ended := first s coded
  rw [runIn_bind, runIn_bind]
  generalize c.runIn s = ran at ended ⊢
  generalize d.runIn s.unplaced = ran' at ended ⊢
  cases ended with
  | ok same kept => exact next _ _ same _ kept
  | error kept => exact .error kept

theorem read {f : Store → α} {g : Store → β} (post : α → β → Prop)
    (same : ∀ s : Store, s.Coded W → post (f s) (g s.unplaced)) :
    Mirrors W (Eval.read f) (Eval.read g) post :=
  fun s coded => .ok (same s coded) coded

theorem reads {f g : Store → α} (same : ∀ s : Store, g s.unplaced = f s) :
    Mirrors W (Eval.read f) (Eval.read g) Eq :=
  read Eq fun s _ => (same s).symm

theorem change {f g : Store → Store} (same : ∀ s : Store, g s.unplaced = (f s).unplaced)
    (keeps : ∀ s : Store, s.Coded W → (f s).Coded W) :
    Mirrors W (Eval.change f) (Eval.change g) fun _ _ => True := by
  intro s coded
  rw [runIn_change, runIn_change, same]
  exact .ok trivial (keeps s coded)

theorem update {f : Store → α × Store} {g : Store → β × Store} (erase : α → β)
    (same : ∀ s : Store, g s.unplaced = (erase (f s).1, (f s).2.unplaced))
    (keeps : ∀ s : Store, s.Coded W → post (f s).1 (erase (f s).1) ∧ (f s).2.Coded W) :
    Mirrors W (Eval.update f) (Eval.update g) post := by
  intro s coded
  rw [runIn_update, runIn_update, same]
  exact .ok (keeps s coded).1 (keeps s coded).2

theorem updates {f g : Store → α × Store}
    (same : ∀ s : Store, g s.unplaced = ((f s).1, (f s).2.unplaced))
    (keeps : ∀ s : Store, s.Coded W → (f s).2.Coded W) :
    Mirrors W (Eval.update f) (Eval.update g) Eq :=
  update (fun a => a) same fun s coded => ⟨rfl, keeps s coded⟩

theorem ofExcept {line line' : Nat} {result : Except Fault α} {result' : Except Fault β}
    (erase : α → β) (same : result' = result.map erase)
    (holds : ∀ a, result = .ok a → post a (erase a)) :
    Mirrors W (Eval.ofExcept line result) (Eval.ofExcept line' result') post := by
  subst same
  cases result with
  | ok a => exact pure (holds a rfl)
  | error fault => exact fail

theorem checks {line line' : Nat} {result result' : Except Fault α} (same : result' = result) :
    Mirrors W (Eval.ofExcept line result) (Eval.ofExcept line' result') Eq := by
  subst same
  cases result' with
  | ok a => exact pure rfl
  | error fault => exact fail

theorem members (id : ArrayId) : Mirrors W (Eval.read (·.members id)) (Eval.read (·.members id))
    fun values values' => values' = values.map Value.unplaced ∧ ∀ v ∈ values, v.Coded W :=
  read _ fun s coded => ⟨s.members_unplaced id, coded.members id⟩

theorem newArray {values values' : Array Value} (same : values' = values.map Value.unplaced)
    (coded : ∀ v ∈ values, v.Coded W) :
    Mirrors W (Eval.newArray values) (Eval.newArray values') (Value.Mirrors W) := by
  subst same
  refine bind (updates (fun s => s.alloc_unplaced values) fun s held => held.alloc coded) ?_
  rintro id _ rfl
  exact pure ⟨rfl, trivial⟩

theorem newList {values values' : List Value} (given : Value.MirrorsAll W values values') :
    Mirrors W (Eval.newArray values.toArray) (Eval.newArray values'.toArray) (Value.Mirrors W) :=
  newArray (by rw [given.same, List.map_toArray]) (by simpa using given.coded)

end Eval.Mirrors

section Operators

variable {W : Corpus}

theorem OperatorOutcome.coded {result : Except Fault Value} (outcome : OperatorOutcome result)
    {v : Value} (same : result = .ok v) : v.Coded W := by
  cases outcome with
  | flat alone =>
    cases same
    exact Value.coded_of_flat alone
  | divisionByZero | wrongType => cases same

theorem Store.index_coded {s : Store} (coded : s.Coded W) {a b v : Value}
    (same : s.index a b = .ok v) : v.Coded W := by
  rcases s.index_outcome a b with ⟨id, i, member⟩ | outcome
  · rw [member] at same
    cases same
    exact coded.getD trivial id i
  · exact outcome.coded same

structure OutcomeMirrors (W : Corpus) (result result' : Except Fault Value) : Prop where
  same : result' = result.map Value.unplaced
  coded : ∀ v, result = .ok v → v.Coded W

theorem OutcomeMirrors.ofExcept {line line' : Nat} {result result' : Except Fault Value}
    (mirrors : OutcomeMirrors W result result') :
    Eval.Mirrors W (Eval.ofExcept line result) (Eval.ofExcept line' result') (Value.Mirrors W) :=
  .ofExcept Value.unplaced mirrors.same fun v ok => ⟨rfl, mirrors.coded v ok⟩

end Operators

section Builtins

namespace Builtin

variable {W : Corpus}

theorem runOn_mirrors (line line' : Nat) (arg : Value) (builtin : Builtin) :
    Eval.Mirrors W (builtin.runOn line arg) (builtin.runOn line' arg.unplaced)
      (Value.Mirrors W) := by
  have same (v : Value) (alone : v.unplaced = v) (coded : v.Coded W) :
      Eval.Mirrors W (Pure.pure v) (Pure.pure v) (Value.Mirrors W) :=
    .pure ⟨alone.symm, coded⟩
  cases builtin with
  | puts => exact same .nil rfl trivial
  | type =>
    simp only [runOn, Value.typeName_unplaced]
    exact same (.str _) rfl trivial
  | len =>
    cases arg with
    | str t => exact same (.int _) rfl trivial
    | array id =>
      refine .bind (.members id) fun members others mapped => ?_
      rw [mapped.1, Array.size_map]
      exact same (.int _) rfl trivial
    | _ => exact .fail
  | toJson =>
    cases arg with
    | array id =>
      refine .bind (.reads fun s => ?_) fun written written' equal => ?_
      · rw [Store.members_toList_unplaced, Store.encode_unplaced]
      · subst equal
        cases written with
        | ok text => exact same (.str _) rfl trivial
        | error fault => exact .fail
    | _ => exact .fail
  | fromJson =>
    cases arg with
    | str text =>
      intro s coded
      simp only [runOn, Value.unplaced, Eval.runIn_bind, Eval.runIn_read, Store.decode_unplaced]
      cases read : s.decode text.toList with
      | error fault => exact .error coded
      | ok loaded => exact .ok ⟨rfl, trivial⟩ (coded.decode Value.ofData_coded read)
    | _ => exact .fail

theorem run_mirrors (line line' : Nat) {args args' : List Value}
    (given : Value.MirrorsAll W args args') (builtin : Builtin) :
    Eval.Mirrors W (builtin.run line args) (builtin.run line' args') (Value.Mirrors W) := by
  obtain ⟨rfl, coded⟩ := given
  cases builtin with
  | puts =>
    refine .bind (.change (fun s => printAll_unplaced s args) fun s held => ?_) fun _ _ _ =>
      .pure ⟨rfl, trivial⟩
    obtain ⟨output, printed⟩ := printAll_eq s args
    rw [printed]
    exact ⟨held.members, held.bindings⟩
  | len | type | toJson | fromJson =>
    match args with
    | [] => exact .fail
    | [arg] =>
      simp only [run, List.map_cons, List.map_nil]
      exact runOn_mirrors line line' arg _
    | first :: second :: rest =>
      simp only [run, List.map_cons, List.length_cons, List.length_map]
      exact .fail

end Builtin

end Builtins

def Enter.Mirrors (W : Corpus) (enter : Enter) : Prop :=
  ∀ (c : Closure) frame, c.Coded W →
    Eval.Mirrors W (enter c frame) (enter c.unplaced frame) (Value.Mirrors W)

structure BoundMirrors (W : Corpus) (bound bound' : List (Nat × Value)) : Prop where
  same : bound' = bound.map fun binding => (binding.1, binding.2.unplaced)
  coded : ∀ binding ∈ bound, binding.2.Coded W

section Calls

variable {W : Corpus} {enter : Enter} (entering : enter.Mirrors W)

theorem Closure.bindParams_mirrors (c : Closure) (frame : FrameId)
    {bound bound' : List (Nat × Value)} (given : BoundMirrors W bound bound') :
    Eval.Mirrors W (c.bindParams frame bound) (c.unplaced.bindParams frame bound')
      fun _ _ => True := by
  obtain ⟨rfl, coded⟩ := given
  induction bound with
  | nil => exact .pure trivial
  | cons binding rest ih =>
    obtain ⟨index, value⟩ := binding
    obtain ⟨here, others⟩ := List.forall_mem_cons.mp coded
    simp only [List.map_cons, bindParams]
    rw [show c.unplaced.params = c.params from rfl]
    cases c.params[index]? with
    | none => exact .fail
    | some name =>
      exact .bind (.change (fun s => s.define_unplaced frame name value) fun s held =>
        held.define here frame name) fun _ _ _ => ih others

include entering in
theorem Closure.invoke_mirrors {c : Closure} (coded : c.Coded W) (scope : FrameId)
    {bound bound' : List (Nat × Value)} (given : BoundMirrors W bound bound') :
    Eval.Mirrors W (c.invoke enter scope bound) (c.unplaced.invoke enter scope bound')
      (Value.Mirrors W) := by
  refine .bind (.updates (fun s => s.child_unplaced scope) fun s held => held.child scope) ?_
  rintro frame _ rfl
  refine .bind (c.bindParams_mirrors frame given) fun _ _ _ => ?_
  exact .bind (entering c frame coded) fun result result' ends => .pure ends.unwrap

theorem Closure.numbered_mirrors {args args' : List Value}
    (given : Value.MirrorsAll W args args') : BoundMirrors W (numbered args) (numbered args') := by
  obtain ⟨rfl, coded⟩ := given
  constructor
  · simp [numbered, List.zipIdx_map, Function.comp_def]
  · exact fun binding member => coded _ (of_mem_numbered member).2

include entering in
theorem Closure.call_mirrors (line line' : Nat) {c : Closure} (coded : c.Coded W)
    {args args' : List Value} (given : Value.MirrorsAll W args args') :
    Eval.Mirrors W (c.call enter line args) (c.unplaced.call enter line' args')
      (Value.Mirrors W) := by
  have length : args'.length = args.length := by rw [given.same, List.length_map]
  simp only [call, length, arity_unplaced]
  split
  · exact Closure.invoke_mirrors entering coded c.scope (numbered_mirrors given)
  · exact .fail

end Calls

namespace ArrayMethod

variable {W : Corpus}

section Callbacks

theorem filterCalls_mirrors {call call' : Value → Eval Value}
    (calls : ∀ v : Value, v.Coded W →
      Eval.Mirrors W (call v) (call' v.unplaced) (Value.Mirrors W))
    {members members' : List Value} (given : Value.MirrorsAll W members members') :
    Eval.Mirrors W (filterCalls call members) (filterCalls call' members')
      (Value.MirrorsAll W) := by
  obtain ⟨rfl, coded⟩ := given
  induction members with
  | nil => exact .pure .nil
  | cons member rest ih =>
    obtain ⟨here, others⟩ := List.forall_mem_cons.mp coded
    refine .bind (calls member here) fun kept kept' same => .bind (ih others) fun _ _ all => ?_
    rw [same.same, Value.truthy_unplaced]
    refine .pure ?_
    split
    · exact .cons (Value.mirrors here) all
    · exact all

theorem mapCalls_mirrors {call call' : Value → Eval Value}
    (calls : ∀ v : Value, v.Coded W →
      Eval.Mirrors W (call v) (call' v.unplaced) (Value.Mirrors W))
    {members members' : List Value} (given : Value.MirrorsAll W members members') :
    Eval.Mirrors W (mapCalls call members) (mapCalls call' members') (Value.MirrorsAll W) := by
  obtain ⟨rfl, coded⟩ := given
  induction members with
  | nil => exact .pure .nil
  | cons member rest ih =>
    obtain ⟨here, others⟩ := List.forall_mem_cons.mp coded
    refine .bind (calls member here) fun result result' same => ?_
    exact .bind (ih others) fun _ _ all => .pure (.cons same all)

theorem foldCalls_mirrors {call call' : Value → Value → Eval Value}
    (calls : ∀ acc v : Value, acc.Coded W → v.Coded W →
      Eval.Mirrors W (call acc v) (call' acc.unplaced v.unplaced) (Value.Mirrors W))
    {acc acc' : Value} (start : acc.Mirrors W acc') {members members' : List Value}
    (given : Value.MirrorsAll W members members') :
    Eval.Mirrors W (foldCalls call acc members) (foldCalls call' acc' members')
      (Value.Mirrors W) := by
  obtain ⟨rfl, coded⟩ := given
  induction members generalizing acc acc' with
  | nil => exact .pure start
  | cons member rest ih =>
    obtain ⟨here, others⟩ := List.forall_mem_cons.mp coded
    obtain ⟨rfl, before⟩ := start
    exact .bind (calls acc member before here) fun next next' same => ih same others

end Callbacks

variable {enter : Enter} (entering : enter.Mirrors W)

theorem callbackArg_coded {method : ArrayMethod} {params : Nat} {arg : Value} {c : Closure}
    (coded : arg.Coded W) (found : method.callbackArg params arg = .ok c) : c.Coded W := by
  rw [(callbackArg_eq_ok found).1] at coded
  exact coded

theorem callbackArg_mirrors {line line' : Nat} {method : ArrayMethod} {params : Nat} {arg : Value}
    (coded : arg.Coded W) :
    Eval.Mirrors W (Eval.ofExcept line (method.callbackArg params arg))
      (Eval.ofExcept line' (method.callbackArg params arg.unplaced))
      fun c c' => c' = c.unplaced ∧ c.Coded W :=
  .ofExcept Closure.unplaced (callbackArg_unplaced method params arg) fun _ found =>
    ⟨rfl, callbackArg_coded coded found⟩

theorem remove_mirrors (id : ArrayId) (position : Nat) :
    Eval.Mirrors W (Eval.update (remove · id position)) (Eval.update (remove · id position))
      (Value.Mirrors W) :=
  .update Value.unplaced (fun s => remove_unplaced s id position) fun _ coded =>
    ⟨Value.mirrors (coded.getD trivial id position), coded.modify fun v member =>
      coded.members id v (mem_of_mem_removed member)⟩

include entering in
theorem run_mirrors (line line' : Nat) (scope : FrameId) (receiver : ArrayId)
    {args args' : List Value} (given : Value.MirrorsAll W args args') (method : ArrayMethod) :
    Eval.Mirrors W (method.run enter line scope receiver args)
      (method.run enter line' scope receiver args') (Value.Mirrors W) := by
  obtain ⟨rfl, coded⟩ := given
  have argCoded : (args.headD .nil).Coded W := by
    cases args with
    | nil => trivial
    | cons arg rest => exact coded arg List.mem_cons_self
  have argSame : (args.map Value.unplaced).headD .nil = (args.headD .nil).unplaced := by
    cases args <;> rfl
  have one {c : Closure} (block : c.Coded W) (v : Value) (here : v.Coded W) :
      Eval.Mirrors W (c.invoke enter scope [(0, v)])
        (c.unplaced.invoke enter scope [(0, v.unplaced)]) (Value.Mirrors W) :=
    Closure.invoke_mirrors entering block scope ⟨rfl, by simpa using here⟩
  unfold run
  rw [argSame]
  generalize args.headD .nil = arg at argCoded ⊢
  refine .bind (.members receiver) ?_
  rintro members _ ⟨rfl, inside⟩
  have listed : Value.MirrorsAll W members.toList (members.map Value.unplaced).toList :=
    ⟨Array.toList_map .., fun v member => inside v (Array.mem_toList_iff.mp member)⟩
  have isEmpty : (members.map Value.unplaced).isEmpty = members.isEmpty := by
    simp only [Array.isEmpty, Array.size_map]
  cases method with
  | len =>
    rw [Array.size_map]
    exact .pure ⟨rfl, trivial⟩
  | empty =>
    rw [isEmpty]
    exact .pure ⟨rfl, trivial⟩
  | first =>
    refine .pure ?_
    rw [Array.getD_eq_getD_getElem?, Array.getD_eq_getD_getElem?, Array.getElem?_map]
    cases found : members[0]? with
    | none => exact ⟨rfl, trivial⟩
    | some v => exact Value.mirrors (inside v (Array.mem_of_getElem? found))
  | last =>
    refine .pure ?_
    rw [Array.back?_map]
    cases found : members.back? with
    | none => exact ⟨rfl, trivial⟩
    | some v => exact Value.mirrors (inside v (Array.mem_of_back? found))
  | tail =>
    rw [Array.size_map]
    by_cases none : members.isEmpty = true
    · simp only [isEmpty, none, if_true]
      exact .pure ⟨rfl, trivial⟩
    · simp only [isEmpty, none, Bool.false_eq_true, if_false]
      refine .newArray Array.map_extract.symm fun v member => inside v ?_
      obtain ⟨i, _, found⟩ := Array.mem_extract_iff_getElem.mp member
      exact Array.mem_of_getElem found
  | count =>
    refine .bind (.reads fun s => occurrences_unplaced s receiver arg) ?_
    rintro count _ rfl
    exact .pure ⟨rfl, trivial⟩
  | includes =>
    refine .bind (.reads fun s => isMember_unplaced s receiver arg) ?_
    rintro found _ rfl
    exact .pure ⟨rfl, trivial⟩
  | index =>
    refine .bind (.reads fun s => position?_unplaced s receiver arg) ?_
    rintro found _ rfl
    cases found <;> exact .pure ⟨rfl, trivial⟩
  | push =>
    refine .bind (.change (fun s => ?_) fun s held => held.modify fun v member => ?_)
      fun _ _ _ => .pure ⟨rfl, trivial⟩
    · exact s.modify_unplaced receiver _ _ fun values => Array.map_push.symm
    · rcases Array.mem_push.mp member with old | rfl
      · exact held.members receiver v old
      · exact argCoded
  | unshift =>
    refine .bind (.change (fun s => ?_) fun s held => held.modify fun v member => ?_)
      fun _ _ _ => .pure ⟨rfl, trivial⟩
    · refine s.modify_unplaced receiver _ _ fun values => ?_
      rw [Array.map_append]
      simp
    · rcases Array.mem_append.mp member with new | old
      · rw [Array.mem_singleton.mp new]
        exact argCoded
      · exact held.members receiver v old
  | pop =>
    refine .bind (.checks (integerArg_unplaced pop args)) ?_
    rintro index _ rfl
    refine .bind (.checks (by rw [Array.size_map])) ?_
    rintro position _ rfl
    exact remove_mirrors receiver position
  | shift =>
    refine .bind (.checks (integerArg_unplaced shift args)) ?_
    rintro index _ rfl
    refine .bind (.checks (by rw [Array.size_map])) ?_
    rintro position _ rfl
    cases position with
    | some position =>
      exact remove_mirrors receiver position
    | none => exact .pure ⟨rfl, trivial⟩
  | merge =>
    cases arg with
    | array other =>
      refine .bind (.members other) ?_
      rintro others _ ⟨rfl, outside⟩
      exact .newArray Array.map_append.symm fun v member =>
        (Array.mem_append.mp member).elim (inside v) (outside v)
    | _ => exact .fail
  | filter =>
    refine .bind (callbackArg_mirrors argCoded) ?_
    rintro block _ ⟨rfl, literal⟩
    exact .bind (filterCalls_mirrors (one literal) listed) fun kept kept' same => .newList same
  | map =>
    refine .bind (callbackArg_mirrors argCoded) ?_
    rintro block _ ⟨rfl, literal⟩
    exact .bind (mapCalls_mirrors (one literal) listed) fun results results' same => .newList same
  | reduce =>
    refine .bind (callbackArg_mirrors argCoded) ?_
    rintro block _ ⟨rfl, literal⟩
    have two (acc v : Value) (before : acc.Coded W) (here : v.Coded W) :
        Eval.Mirrors W (block.invoke enter scope [(0, acc), (1, v)])
          (block.unplaced.invoke enter scope [(0, acc.unplaced), (1, v.unplaced)])
          (Value.Mirrors W) :=
      Closure.invoke_mirrors entering literal scope ⟨rfl, by simp [before, here]⟩
    dsimp only
    rw [← List.map_drop, Array.toList_map]
    have rest : ∀ v ∈ args.drop 1, v.Coded W := fun v member =>
      coded v (List.mem_of_mem_drop member)
    have inside := listed.coded
    generalize args.drop 1 = given at rest ⊢
    generalize members.toList = visited at inside ⊢
    cases given with
    | cons seed _ =>
      have start := (List.forall_mem_cons.mp rest).1
      exact foldCalls_mirrors two (Value.mirrors start) (Value.mirrorsAll inside)
    | nil =>
      cases visited with
      | nil => exact .pure ⟨rfl, trivial⟩
      | cons seed others =>
        obtain ⟨start, inside⟩ := List.forall_mem_cons.mp inside
        exact foldCalls_mirrors two (Value.mirrors start) (Value.mirrorsAll inside)

include entering in
theorem dispatch_mirrors (line line' : Nat) (scope : FrameId) (name : String)
    (receiver : ArrayId) {args args' : List Value} (given : Value.MirrorsAll W args args') :
    Eval.Mirrors W (dispatch enter line scope name receiver args)
      (dispatch enter line' scope name receiver args') (Value.Mirrors W) := by
  have length : args'.length = args.length := by rw [given.same, List.length_map]
  simp only [dispatch, length]
  cases ofName? name with
  | none => exact .fail
  | some method =>
    dsimp only
    split
    · exact run_mirrors entering line line' scope receiver given method
    · exact .fail

end ArrayMethod

theorem Store.builtin?_unplaced (s : Store) (frame : FrameId) (callee : Expr) :
    s.unplaced.builtin? frame callee.unplaced = s.builtin? frame callee := by
  cases callee with
  | var span name =>
    change (if s.unplaced.contains frame name then none else Builtin.ofName? name) = _
    rw [contains_unplaced]
    rfl
  | cond span test consequence alternative => cases alternative <;> rfl
  | _ => rfl

section Evaluation

variable {W : Corpus} {enter : Enter} {lines : LineIndex} (frame : FrameId)

mutual

theorem Expr.eval_mirrors (entering : enter.Mirrors W) (e : Expr) (written : W.has lines e) :
    Eval.Mirrors W (e.eval enter lines frame) (e.unplaced.eval enter ⟨[]⟩ frame)
      (Value.Mirrors W) := by
  have parts := W.parts lines e written
  cases e with
  | int _ _ | uint _ _ | float _ _ | str _ _ | bool _ _ | nil _ =>
    rw [Expr.eval, Expr.unplaced, Expr.mapSpans, Expr.eval]
    exact .pure ⟨rfl, trivial⟩
  | var span name =>
    rw [Expr.eval, Expr.unplaced, Expr.mapSpans, Expr.eval]
    refine .bind (.read (fun found found' => found' = found.map Value.unplaced ∧
      ∀ v, found = some v → v.Coded W) fun s held =>
        ⟨s.get?_unplaced frame name, fun v found => held.get? found⟩) ?_
    rintro found _ ⟨rfl, coded⟩
    cases found with
    | some v => exact .pure (Value.mirrors (coded v rfl))
    | none => exact .fail
  | array _ members =>
    rw [Expr.eval, Expr.unplaced, Expr.mapSpans, Expr.eval]
    exact .bind (evalArgs_mirrors entering members parts) fun values values' same => .newList same
  | binary span op left right =>
    have leftCode := parts left List.mem_cons_self
    have rightCode := parts right (by simp [Expr.parts])
    rw [Expr.eval, Expr.unplaced, Expr.mapSpans, Expr.eval]
    refine .bind (left.eval_mirrors entering leftCode) fun a a' same => ?_
    obtain ⟨rfl, coded⟩ := same
    cases op with
    | logic op =>
      cases op with
      | and =>
        simp only [Value.truthy_unplaced]
        split
        · exact right.eval_mirrors entering rightCode
        · exact .pure (Value.mirrors coded)
      | or =>
        simp only [Value.truthy_unplaced]
        split
        · exact .pure (Value.mirrors coded)
        · exact right.eval_mirrors entering rightCode
    | strict op =>
      refine .bind (right.eval_mirrors entering rightCode) ?_
      rintro b _ ⟨rfl, _⟩
      refine .bind (.read (OutcomeMirrors W) fun s _ => ?_) fun _ _ same => same.ofExcept
      exact ⟨op.apply_unplaced s a b, fun v ok => (op.apply_outcome s a b).coded ok⟩
  | unary span op operand =>
    rw [Expr.eval, Expr.unplaced, Expr.mapSpans, Expr.eval]
    refine .bind (operand.eval_mirrors entering (parts operand List.mem_cons_self)) ?_
    rintro a _ ⟨rfl, _⟩
    exact OutcomeMirrors.ofExcept
      ⟨op.apply_unplaced a, fun v ok => (op.apply_outcome a).coded ok⟩
  | cond _ test consequence alternative =>
    have testCode := parts test List.mem_cons_self
    have consequenceCode := parts consequence (by simp [Expr.parts])
    cases alternative with
    | none =>
      rw [Expr.eval, Expr.unplaced, Expr.mapSpans, Expr.eval]
      refine .bind (test.eval_mirrors entering testCode) fun a a' same => ?_
      rw [same.same, Value.truthy_unplaced]
      split
      · exact consequence.eval_mirrors entering consequenceCode
      · exact .pure ⟨rfl, trivial⟩
    | some other =>
      rw [Expr.eval, Expr.unplaced, Expr.mapSpans, Expr.eval]
      refine .bind (test.eval_mirrors entering testCode) fun a a' same => ?_
      rw [same.same, Value.truthy_unplaced]
      split
      · exact consequence.eval_mirrors entering consequenceCode
      · exact other.eval_mirrors entering (parts other (by simp [Expr.parts]))
  | block _ body =>
    rw [Expr.eval, Expr.unplaced, Expr.mapSpans, Expr.eval]
    exact evalBody_mirrors entering body (Corpus.hasBody_of_block written)
  | function _ params body =>
    rw [Expr.eval, Expr.unplaced, Expr.mapSpans, Expr.eval]
    have made : Eval.Mirrors W (Eval.update (·.close params body frame lines))
        (Eval.update (·.close params body.unplaced frame ⟨[]⟩))
        fun c c' => c' = c.unplaced ∧ c.Coded W :=
      .update Closure.unplaced (fun s => s.close_unplaced params body frame lines) fun s held =>
        ⟨⟨rfl, _, written⟩, held.close params body frame lines⟩
    refine .bind made ?_
    rintro c _ ⟨rfl, coded⟩
    exact .pure ⟨rfl, coded⟩
  | call span callee args =>
    rw [Expr.eval, Expr.unplaced, Expr.mapSpans, Expr.eval]
    have given := evalArgs_mirrors entering args (List.forall_mem_cons.mp parts).2
    refine .bind (.reads fun s => s.builtin?_unplaced frame callee) ?_
    rintro found _ rfl
    cases found with
    | some builtin =>
      exact .bind given fun values values' same => builtin.run_mirrors _ _ same
    | none =>
      refine .bind (callee.eval_mirrors entering (parts callee List.mem_cons_self)) ?_
      rintro f _ ⟨rfl, coded⟩
      refine .bind given fun values values' same => ?_
      cases f with
      | closure c => exact Closure.call_mirrors entering _ _ coded same
      | _ => exact .fail
  | method _ receiver name nameSpan args =>
    rw [Expr.eval, Expr.unplaced, Expr.mapSpans, Expr.eval]
    refine .bind (receiver.eval_mirrors entering (parts receiver List.mem_cons_self)) ?_
    rintro target _ ⟨rfl, _⟩
    refine .bind (evalArgs_mirrors entering args (List.forall_mem_cons.mp parts).2) ?_
    intro values values' given
    cases target with
    | array id => exact ArrayMethod.dispatch_mirrors entering _ _ frame name id given
    | _ => exact .fail
  | index span target position =>
    rw [Expr.eval, Expr.unplaced, Expr.mapSpans, Expr.eval]
    refine .bind (target.eval_mirrors entering (parts target List.mem_cons_self)) ?_
    rintro a _ ⟨rfl, _⟩
    refine .bind (position.eval_mirrors entering (parts position (by simp [Expr.parts]))) ?_
    rintro b _ ⟨rfl, _⟩
    refine .bind (.read (OutcomeMirrors W) fun s held => ?_) fun _ _ same => same.ofExcept
    exact ⟨s.index_unplaced a b, fun v ok => s.index_coded held ok⟩

theorem evalArgs_mirrors (entering : enter.Mirrors W) (args : List Expr)
    (written : W.HasAll lines args) :
    Eval.Mirrors W (evalArgs enter lines frame args) (evalArgs enter ⟨[]⟩ frame (unplacedAll args))
      (Value.MirrorsAll W) := by
  cases args with
  | nil =>
    rw [evalArgs, unplacedAll, mapSpansAll, evalArgs]
    exact .pure .nil
  | cons arg rest =>
    rw [evalArgs, unplacedAll, mapSpansAll, evalArgs]
    refine .bind (arg.eval_mirrors entering written.cons.1) fun v v' here => ?_
    refine .bind (evalArgs_mirrors entering rest written.cons.2) fun values values' all => ?_
    exact .pure (.cons here.unwrap all)

theorem Stmt.eval_mirrors (entering : enter.Mirrors W) (stmt : Stmt)
    (written : W.HasAll lines stmt.parts) :
    Eval.Mirrors W (stmt.eval enter lines frame) (stmt.unplaced.eval enter ⟨[]⟩ frame)
      (Value.Mirrors W) := by
  cases stmt with
  | bind _ name e =>
    rw [Stmt.eval, Stmt.unplaced, Stmt.mapSpans, Stmt.eval]
    refine .bind (e.eval_mirrors entering (written e List.mem_cons_self)) ?_
    rintro v _ ⟨rfl, coded⟩
    rw [Value.isReturned_unplaced]
    split
    · exact .pure (Value.mirrors coded)
    · exact .bind (.change (fun s => s.define_unplaced frame name v) fun s held =>
        held.define coded frame name) fun _ _ _ => .pure ⟨rfl, trivial⟩
  | result _ value =>
    cases value with
    | none =>
      rw [Stmt.eval, Stmt.unplaced, Stmt.mapSpans, Stmt.eval]
      exact .pure ⟨rfl, trivial⟩
    | some e =>
      rw [Stmt.eval, Stmt.unplaced, Stmt.mapSpans, Stmt.eval]
      refine .bind (e.eval_mirrors entering (written e List.mem_cons_self)) fun v v' here => ?_
      exact .pure ⟨by rw [here.unwrap.same]; rfl, here.unwrap.coded⟩
  | expr _ e =>
    rw [Stmt.eval, Stmt.unplaced, Stmt.mapSpans, Stmt.eval]
    exact e.eval_mirrors entering (written e List.mem_cons_self)

theorem evalBody_mirrors (entering : enter.Mirrors W) (body : List Stmt)
    (written : W.HasBody lines body) :
    Eval.Mirrors W (evalBody enter lines frame body)
      (evalBody enter ⟨[]⟩ frame (unplacedBody body)) (Value.Mirrors W) := by
  match body with
  | [] =>
    rw [evalBody, unplacedBody, mapSpansBody, evalBody]
    exact .pure ⟨rfl, trivial⟩
  | [last] =>
    rw [evalBody]
    exact last.eval_mirrors entering written.cons.1
  | stmt :: next :: rest =>
    have goesOn := evalBody_mirrors entering (next :: rest) written.cons.2
    rw [evalBody]
    · refine .bind (stmt.eval_mirrors entering written.cons.1) fun v v' here => ?_
      obtain ⟨rfl, coded⟩ := here
      rw [Value.isReturned_unplaced]
      split
      · exact .pure (Value.mirrors coded)
      · exact goesOn
    · exact fun same => nomatch same

end

end Evaluation

theorem enterWithin_mirrors (W : Corpus) (room : Nat) : (enterWithin room).Mirrors W := by
  induction room with
  | zero => exact fun c frame _ => .fail
  | succ room ih => exact fun c frame coded => c.body.eval_mirrors frame ih coded.body

end MonkeyLang
