import MonkeyLang.Proofs.Eval.Frames
import MonkeyLang.Proofs.Eval.Sound
import MonkeyLang.Proofs.Store.Lists

namespace MonkeyLang

structure ArrayCall where
  name : String
  receiver : ArrayId
  args : List Value
  line : Nat
  scope : FrameId

namespace ArrayMethod

def plainNames : List (String × ArrayMethod) :=
  [("len", len), ("empty", empty), ("first", first), ("head", first), ("last", last),
   ("tail", tail), ("rest", tail), ("count", count), ("includes", includes), ("index", index),
   ("push", push), ("unshift", unshift), ("pop", pop), ("shift", shift), ("merge", merge)]

def callingNames : List String := ["filter", "grep", "map", "reduce"]

end ArrayMethod

def Heap.call (h : Heap) (c : ArrayCall) : Except RuntimeError Value × Heap :=
  match ArrayMethod.plainNames.lookup c.name with
  | some method =>
    ((h.answer c.receiver method c.args).1.mapError (⟨·, c.line⟩),
      (h.answer c.receiver method c.args).2)
  | none => (.error ⟨.noMethod c.name "array", c.line⟩, h)

def Heap.calls (h : Heap) : List ArrayCall → List (Except RuntimeError Value × Heap)
  | [] => []
  | c :: rest => h.call c :: (h.call c).2.calls rest

def ArrayCall.run (enter : Enter) (c : ArrayCall) : Eval Value :=
  ArrayMethod.dispatch enter c.line c.scope c.name c.receiver c.args

structure ArrayStep where
  before : Store
  call : ArrayCall
  result : Except RuntimeError Value
  after : Store

def ArrayCall.step (enter : Enter) (s : Store) (c : ArrayCall) : ArrayStep :=
  ⟨s, c, ((c.run enter).runIn s).1, ((c.run enter).runIn s).2⟩

def Store.arraySteps (enter : Enter) (s : Store) : List ArrayCall → List ArrayStep
  | [] => []
  | c :: rest => c.step enter s :: arraySteps enter (c.step enter s).after rest

namespace Eval

/-- The computation comes to an answer on plain lists, and leaves the lists that go with it. -/
def Answers (c : Eval Value) (s : Store) (line : Nat) (answer : Except Fault Value × Heap) : Prop :=
  ∃ t, c.runIn s = (answer.1.mapError (⟨·, line⟩), t) ∧ t.heap = answer.2

namespace Answers

variable {α : Type} {c : Eval Value} {s : Store} {line : Nat}
  {answer : Except Fault Value × Heap}

theorem ok {t : Store} {v : Value} (ran : c.runIn s = (.ok v, t))
    (same : answer = (.ok v, t.heap)) : c.Answers s line answer :=
  ⟨t, by rw [ran, same]; rfl, by rw [same]⟩

theorem error {fault : Fault} (ran : c.runIn s = (.error ⟨fault, line⟩, s))
    (same : answer = (.error fault, s.heap)) : c.Answers s line answer :=
  ⟨s, by rw [ran, same]; rfl, by rw [same]⟩

theorem newArray {members : Array Value} {values : List Value} (same : members.toList = values) :
    (Eval.newArray members).Answers s line (s.heap.add values) :=
  ok rfl (by rw [← same]; exact s.heap_alloc members)

theorem read {f : Store → α} {g : α → Eval Value} (next : (g (f s)).Answers s line answer) :
    (Eval.read f >>= g).Answers s line answer :=
  next

theorem checked {a : α} {g : α → Eval Value} (next : (g a).Answers s line answer) :
    (Eval.ofExcept line (.ok a) >>= g).Answers s line answer :=
  next

theorem refused {fault : Fault} {g : α → Eval Value} :
    (Eval.ofExcept line (.error fault) >>= g).Answers s line (.error fault, s.heap) :=
  error rfl rfl

end Answers

end Eval

namespace ArrayMethod

variable {s : Store} {id : ArrayId} {line : Nat}

section Removal

variable {members : Array Value} {place : Nat}

theorem exists_around (inside : place < members.size) :
    ∃ front value behind, members.toList = front ++ value :: behind ∧ front.length = place := by
  refine ⟨members.toList.take place, members[place], members.toList.drop (place + 1), ?_, ?_⟩
  · rw [← Array.getElem_toList, List.getElem_cons_drop, List.take_append_drop]
  · simpa using Nat.le_of_lt inside

theorem size_around {front behind : List Value} {value : Value}
    (split : members.toList = front ++ value :: behind) :
    members.size = front.length + (behind.length + 1) := by
  rw [← Array.length_toList, split, List.length_append, List.length_cons]

theorem remove_eq {front behind : List Value} {value : Value}
    (split : (s.members id).toList = front ++ value :: behind) :
    remove s id front.length = (value, s.modify id fun _ => (front ++ behind).toArray) := by
  have size := size_around split
  have found : (s.members id).getD front.length .nil = value := by
    rw [Array.getD_eq_getD_getElem?, ← Array.getElem?_toList, split]
    simp
  rw [remove, found]
  refine congrArg (Prod.mk value) (s.modify_congr (Array.toList_inj.mp ?_))
  split
  · rename_i last
    have none : behind = [] := List.length_eq_zero_iff.mp (by omega)
    rw [Array.toList_pop, split, none, List.dropLast_concat, List.append_nil]
  · have left : (front ++ value :: behind).eraseIdx front.length = front ++ behind := by
      rw [List.eraseIdx_append_of_length_le (Nat.le_refl _), Nat.sub_self, List.eraseIdx_cons_zero]
    rw [Array.eraseIdxIfInBounds_eq, dif_pos (by omega), Array.toList_eraseIdx, split, left]

theorem remove_around {front behind : List Value} {value : Value}
    (split : (s.members id).toList = front ++ value :: behind) :
    (remove s id front.length).1 = value ∧
      (remove s id front.length).2.heap = s.heap.put id (front ++ behind) := by
  rw [remove_eq split]
  exact ⟨rfl, s.heap_modify id _⟩

theorem remove_answers {front behind : List Value} {value : Value}
    (split : (s.members id).toList = front ++ value :: behind) :
    (Eval.update (remove · id front.length)).Answers s line
      (.ok value, s.heap.put id (front ++ behind)) := by
  obtain ⟨removed, left⟩ := remove_around split
  rw [← removed, ← left]
  exact .ok rfl rfl

theorem takeOut_inside {i : Int} (inside : 0 ≤ i ∧ i < (s.members id).size) :
    s.heap.takeOut id i = (.ok (remove s id i.toNat).1, (remove s id i.toNat).2.heap) := by
  have place : i.toNat < (s.members id).size := by omega
  obtain ⟨front, value, behind, split, length⟩ := exists_around place
  obtain ⟨removed, left⟩ := remove_around split
  rw [Heap.takeOut, if_neg (by omega), s.get_heap, split, ← length, removed, left]
  rw [List.drop_left, List.take_left]

theorem takeOut_outside {i : Int} (outside : ¬ (0 ≤ i ∧ i < (s.members id).size)) :
    s.heap.takeOut id i = (.error (.indexOutOfRange i), s.heap) := by
  rw [Heap.takeOut]
  split
  · rfl
  · rw [s.get_heap, List.drop_eq_nil_of_le (by simp; omega)]

end Removal

section Run

variable (enter : Enter) (scope : FrameId)

theorem bare_answers {method : ArrayMethod} (bare : method.arity.accepts 0 = true) :
    (method.run enter line scope id []).Answers s line (s.heap.answerBare id method) := by
  have held := s.get_heap id
  cases method with
  | len =>
    refine .ok (t := s) rfl ?_
    rw [Heap.answerBare, held, Array.length_toList]
  | empty =>
    refine .ok (t := s) rfl ?_
    rw [Heap.answerBare, held, Array.isEmpty_toList]
  | first =>
    refine .ok (t := s) rfl ?_
    rw [Heap.answerBare, held, List.headD_eq_head?_getD, List.head?_eq_getElem?,
      Array.getD_eq_getD_getElem?, Array.getElem?_toList]
  | last =>
    refine .ok (t := s) rfl ?_
    rw [Heap.answerBare, held, List.getLastD_eq_getLast?, Array.getLast?_toList]
  | tail =>
    refine .read ?_
    dsimp only
    rw [Heap.answerBare, held]
    cases split : (s.members id).toList with
    | nil =>
      rw [if_pos (by simpa using split)]
      exact .ok rfl rfl
    | cons first rest =>
      rw [if_neg fun none => by simp [Array.isEmpty_iff.mp none] at split]
      have size : (s.members id).size - 1 = rest.length := by
        rw [← Array.length_toList, split, List.length_cons, Nat.add_sub_cancel]
      exact .newArray (by simp [split, size])
  | pop =>
    refine .read (.checked ?_)
    rw [Heap.answerBare, held, popPosition]
    cases last : (s.members id).toList.getLast? with
    | none =>
      have empty : (s.members id).size = 0 := by simpa using last
      rw [if_pos empty]
      exact .refused
    | some value =>
      have split : (s.members id).toList = (s.members id).toList.dropLast ++ [value] :=
        (List.dropLast_append_getLast? value last).symm
      have size := size_around split
      have place : (s.members id).size - 1 = (s.members id).toList.dropLast.length := by
        rw [List.length_nil] at size
        omega
      have removed : (Eval.update (remove · id (s.members id).toList.dropLast.length)).Answers s
          line (.ok value, s.heap.put id ((s.members id).toList.dropLast ++ [])) :=
        remove_answers split
      rw [List.append_nil] at removed
      rw [if_neg (by omega), place]
      exact .checked removed
  | shift =>
    refine .read (.checked ?_)
    rw [Heap.answerBare, held, shiftPosition]
    cases split : (s.members id).toList with
    | nil =>
      rw [if_pos (by simpa using split)]
      exact .ok rfl rfl
    | cons first rest =>
      have around : (s.members id).toList = [] ++ first :: rest := split
      have size := size_around around
      rw [if_neg (by omega)]
      exact .checked (remove_answers around)
  | _ => cases bare

theorem given_answers {method : ArrayMethod} (uncalled : method.callsBack = false) {arg : Value}
    (one : method.arity.accepts 1 = true) :
    (method.run enter line scope id [arg]).Answers s line (s.heap.answerTo id arg method) := by
  have held := s.get_heap id
  cases method with
  | count =>
    refine .ok (t := s) rfl ?_
    simp only [Heap.answerTo, held, s.same_heap, List.headD_cons]
    rw [occurrences, Array.countP_toList]
  | includes =>
    refine .ok (t := s) rfl ?_
    simp only [Heap.answerTo, held, s.same_heap, List.headD_cons]
    rw [isMember, Array.any_toList]
  | index =>
    refine .read (.read ?_)
    simp only [Heap.answerTo, held, s.same_heap, List.headD_cons]
    have same (p : Value → Bool) :
        (s.members id).toList.findIdx? p = (s.members id).findIdx? p := by
      rcases s.members id with ⟨values⟩
      simp
    rw [position?, same]
    cases (s.members id).findIdx? fun member => s.valuesEqual member arg with
    | some place => exact .ok rfl rfl
    | none => exact .ok rfl rfl
  | push =>
    refine .ok (t := s.modify id (·.push arg)) rfl ?_
    rw [Heap.answerTo, held, s.heap_modify, Array.toList_push]
  | unshift =>
    refine .ok (t := s.modify id (#[arg] ++ ·)) rfl ?_
    rw [Heap.answerTo, held, s.heap_modify, Array.toList_append]
    rfl
  | pop =>
    refine .read ?_
    cases arg with
    | int i =>
      refine .checked ?_
      rw [Heap.answerTo, held, Array.length_toList, popPosition, fromEnd]
      generalize (if i.toInt < 0 then i.toInt + (s.members id).size else i.toInt) = place
      by_cases inside : 0 ≤ place ∧ place < (s.members id).size
      · rw [if_pos inside, takeOut_inside inside]
        exact .checked (.ok rfl rfl)
      · rw [if_neg inside, takeOut_outside inside]
        exact .refused
    | _ => exact .refused
  | shift =>
    refine .read ?_
    cases arg with
    | int i =>
      refine .checked ?_
      rw [Heap.answerTo, shiftPosition]
      by_cases inside : 0 ≤ i.toInt ∧ i.toInt < (s.members id).size
      · rw [if_pos inside, takeOut_inside inside]
        exact .checked (.ok rfl rfl)
      · rw [if_neg inside, takeOut_outside inside]
        exact .refused
    | _ => exact .refused
  | merge =>
    refine .read ?_
    cases arg with
    | array other =>
      refine .read (.newArray ?_)
      rw [Array.toList_append, held, s.get_heap]
    | _ => exact .error rfl rfl
  | filter | map | reduce => cases uncalled
  | _ => cases one

theorem run_answers {method : ArrayMethod} (uncalled : method.callsBack = false)
    {args : List Value} (enough : method.arity.accepts args.length = true) :
    (method.run enter line scope id args).Answers s line (s.heap.answer id method args) := by
  match args with
  | [] => exact bare_answers enter scope enough
  | [arg] => exact given_answers enter scope uncalled enough
  | _ :: _ :: _ => cases method <;> simp [arity, Arity.accepts, callsBack] at enough uncalled

theorem answer_refused {method : ArrayMethod} (uncalled : method.callsBack = false)
    {args : List Value} (refused : ¬ method.arity.accepts args.length = true) (h : Heap) :
    h.answer id method args = (.error (.argumentCount method.arity args.length), h) := by
  match args with
  | [] =>
    cases method with
    | len | empty | first | last | tail | pop | shift => exact absurd rfl refused
    | _ => rfl
  | [arg] =>
    cases method with
    | count | includes | index | push | unshift | pop | shift | merge => exact absurd rfl refused
    | filter | map | reduce => cases uncalled
    | _ => rfl
  | _ :: _ :: _ => rfl

theorem dispatch_answers {name : String} {method : ArrayMethod} (named : ofName? name = some method)
    (uncalled : method.callsBack = false) (args : List Value) :
    (dispatch enter line scope name id args).Answers s line (s.heap.answer id method args) := by
  rw [dispatch, named]
  dsimp only
  split
  · rename_i enough
    exact run_answers enter scope uncalled enough
  · rename_i refused
    rw [answer_refused uncalled refused]
    exact .error rfl rfl

end Run

theorem ofName?_eq {name : String} (plain : name ∉ callingNames) :
    ofName? name = plainNames.lookup name ∧
      ∀ method, ofName? name = some method → method.callsBack = false := by
  revert plain
  fun_cases ofName? name with
  | case16 | case17 | case18 | case19 => simp [callingNames]
  | case20 =>
    refine fun _ => ⟨(List.lookup_eq_none_iff.mpr ?_).symm, nofun⟩
    simp_all [plainNames]
  | _ => simp [plainNames, List.lookup, callsBack]

end ArrayMethod

namespace Machine

variable {m : Machine} {line : Nat} {scope : FrameId} {name : String} {receiver : ArrayId}
  {args : List Value}

/-- The machine makes a call of no function in one step. -/
theorem dispatch_plain (plain : name ∉ ArrayMethod.callingNames) (enter : Enter) :
    m.dispatch line scope name receiver args =
      m.finish (ArrayMethod.dispatch enter line scope name receiver args) := by
  cases named : ArrayMethod.ofName? name with
  | none => simp only [dispatch, ArrayMethod.dispatch, named]
  | some method =>
    have uncalled := (ArrayMethod.ofName?_eq plain).2 method named
    simp only [dispatch, ArrayMethod.dispatch, named]
    split
    · exact runMethod_plain uncalled enter
    · rfl

end Machine

namespace ArrayCall

def Plain (c : ArrayCall) : Prop := c.name ∉ ArrayMethod.callingNames

variable {c : ArrayCall}

theorem Plain.answers (plain : c.Plain) (enter : Enter) (s : Store) :
    (c.step enter s).result = (s.heap.call c).1 ∧
      (c.step enter s).after.heap = (s.heap.call c).2 := by
  obtain ⟨table, uncalled⟩ := ArrayMethod.ofName?_eq plain
  rw [Heap.call, ← table, step, run]
  cases named : ArrayMethod.ofName? c.name with
  | none =>
    rw [ArrayMethod.dispatch, named]
    exact ⟨rfl, rfl⟩
  | some method =>
    have answers : (ArrayMethod.dispatch enter c.line c.scope c.name c.receiver c.args).Answers s
        c.line (s.heap.answer c.receiver method c.args) :=
      ArrayMethod.dispatch_answers enter c.scope named (uncalled method named) c.args
    obtain ⟨t, ran, lists⟩ := answers
    rw [ran]
    exact ⟨rfl, lists⟩

theorem Plain.run_eq (plain : c.Plain) (enter : Enter) : c.run enter = c.run Machine.noCalls := by
  have uncalled := (ArrayMethod.ofName?_eq plain).2
  unfold run ArrayMethod.dispatch
  cases named : ArrayMethod.ofName? c.name with
  | none => rfl
  | some method =>
    have plain := uncalled method named
    cases method with
    | filter | map | reduce => cases plain
    | _ => rfl

theorem Plain.machine (plain : c.Plain) (s : Store) :
    ((Machine.mk s ⟨[]⟩ 0 [] (.done (.ok .nil))).dispatch c.line c.scope c.name c.receiver
      c.args).store = ((c.run Machine.noCalls).runIn s).2 := by
  rw [Machine.dispatch_plain plain Machine.noCalls]
  rfl

theorem Plain.sound (plain : c.Plain) (enter : Enter) {s : Store} (sound : s.Sound)
    (target : c.receiver ∈ s.handles) (live : ∀ v ∈ c.args, v.Live s) :
    (c.step enter s).after.Sound := by
  have held : (Machine.mk s ⟨[]⟩ 0 [] (.done (.ok .nil))).Held := ⟨sound, by simp⟩
  have ended := (held.dispatch c.line c.scope c.name target live).store
  rwa [plain.machine s, ← plain.run_eq enter] at ended

theorem Plain.frames (plain : c.Plain) (enter : Enter) (s : Store) (id : FrameId)
    (old : id.index < s.frames.size) : (c.step enter s).after.frame id = s.frame id := by
  have keeps : Eval.KeepsFrames none (c.run Machine.noCalls) :=
    ArrayMethod.dispatch_keepsFrames (fun _ _ => .pure) c.line c.scope c.name c.receiver c.args
  rw [step, plain.run_eq enter]
  exact (keeps s).others id old nofun

end ArrayCall

def Value.handle? : Value → Option ArrayId
  | array id => some id
  | returned value => value.handle?
  | _ => none

theorem Value.Live.handle {s : Store} {v : Value} {id : ArrayId} (live : v.Live s)
    (handle : v.handle? = some id) : id ∈ s.handles := by
  induction v with
  | array other =>
    cases handle
    exact live
  | returned value ih => exact ih live handle
  | _ => cases handle

namespace ArrayStep

/-- What is called is there, and so is what the arguments are handles of. -/
def Live (x : ArrayStep) : Prop :=
  x.call.receiver ∈ x.before.handles ∧ ∀ v ∈ x.call.args, v.Live x.before

structure Local (x : ArrayStep) : Prop where
  /-- It changes no array but its receiver, and no frame. -/
  others : ∀ id ∈ x.before.handles, id ≠ x.call.receiver →
    x.after.members id = x.before.members id
  frames : ∀ id, id.index < x.before.frames.size → x.after.frame id = x.before.frame id
  /-- Where it fails it changes nothing. -/
  failed : ∀ e, x.result = .error e → ∀ id, x.after.members id = x.before.members id
  /-- A copy has a handle that no value has, and nothing else changes. -/
  copied : x.call.name ∈ ["tail", "rest", "merge"] → ∀ id, x.result = .ok (.array id) →
    id ∉ x.before.handles ∧ (x.before.Holds fun v => v.handle? ≠ some id) ∧
      ∀ other ∈ x.before.handles, x.after.members other = x.before.members other
  /-- What is removed is returned, and the others keep their order. Only `shift` without an
      argument takes an array without members. -/
  removed : x.call.name ∈ ["pop", "shift"] → ∀ v, x.result = .ok v →
    (∃ front behind, (x.before.members x.call.receiver).toList = front ++ v :: behind ∧
      (x.after.members x.call.receiver).toList = front ++ behind) ∨
    x.call.name = "shift" ∧ x.call.args = [] ∧ v = .nil ∧
      x.before.members x.call.receiver = #[] ∧ x.after.members x.call.receiver = #[]

end ArrayStep

namespace ArrayCall

variable {c : ArrayCall} {enter : Enter} {s : Store} {method : ArrayMethod}

theorem removes_of_name (name : c.name ∈ ["pop", "shift"])
    (named : ArrayMethod.plainNames.lookup c.name = some method) :
    method = .pop ∧ c.name = "pop" ∨ method = .shift ∧ c.name = "shift" := by
  simp only [List.mem_cons, List.not_mem_nil, or_false] at name
  rcases name with name | name <;>
    rw [name] at named ⊢ <;> simp_all [ArrayMethod.plainNames, List.lookup]

theorem copies_of_name (name : c.name ∈ ["tail", "rest", "merge"])
    (named : ArrayMethod.plainNames.lookup c.name = some method) :
    method = .tail ∨ method = .merge := by
  simp only [List.mem_cons, List.not_mem_nil, or_false] at name
  rcases name with name | name | name <;>
    rw [name] at named <;> simp_all [ArrayMethod.plainNames, List.lookup]

theorem eq_ok_of_mapError {result : Except Fault Value} {line : Nat} {v : Value}
    (same : (.ok v : Except RuntimeError Value) = result.mapError (⟨·, line⟩)) :
    result = .ok v := by
  cases result with
  | ok w => exact congrArg Except.ok (Except.ok.inj same).symm
  | error fault => cases same

theorem eq_error_of_mapError {result : Except Fault Value} {line : Nat} {e : RuntimeError}
    (same : .error e = result.mapError (⟨·, line⟩)) : ∃ fault, result = .error fault := by
  cases result with
  | ok w => cases same
  | error fault => exact ⟨fault, rfl⟩

theorem local_of_answer {t : Store} {result : Except RuntimeError Value} (sound : s.Sound)
    (frames : ∀ id, id.index < s.frames.size → t.frame id = s.frame id)
    (target : c.receiver ∈ s.handles)
    (named : ArrayMethod.plainNames.lookup c.name = some method)
    (answered : result = (s.heap.answer c.receiver method c.args).1.mapError (⟨·, c.line⟩))
    (lists : t.heap = (s.heap.answer c.receiver method c.args).2) :
    ArrayStep.Local ⟨s, c, result, t⟩ := by
  have inside {id : ArrayId} (there : id ∈ s.handles) : id.index < s.heap.lists.length := by
    simpa [Store.heap] using Store.mem_handles.mp there
  have effect : s.heap.Effect c.receiver (s.heap.answer c.receiver method c.args) :=
    Heap.answer_effect method c.args
  refine ⟨fun id there different => ?_, frames, fun e failed id => ?_,
    fun name id returned => ?_, fun name v returned => ?_⟩
  · refine Store.members_of_heap ?_
    rw [lists]
    exact effect.others (inside there) different
  · obtain ⟨fault, refused⟩ := eq_error_of_mapError (failed.symm.trans answered)
    refine Store.members_of_heap ?_
    rw [lists, effect.failed refused]
  · have answer := eq_ok_of_mapError (returned.symm.trans answered)
    have copy : s.heap.Copy (s.heap.answer c.receiver method c.args) :=
      Heap.answer_copy (copies_of_name name named) c.args
    generalize s.heap.answer c.receiver method c.args = outcome at copy lists answer
    cases copy with
    | made values =>
      have fresh : id ∉ s.handles := fun there => by
        have made : id.index = s.heap.lists.length := by cases answer; rfl
        exact absurd (inside there) (by omega)
      refine ⟨fresh, sound.imp fun v live handle => fresh (live.handle handle),
        fun other there => Store.members_of_heap ?_⟩
      rw [lists]
      exact Heap.get_add (inside there)
    | nothing | refused => cases answer
  · have answer := eq_ok_of_mapError (returned.symm.trans answered)
    have known := removes_of_name name named
    have removal : s.heap.Removal c.receiver (method = .shift ∧ c.args = [])
        (s.heap.answer c.receiver method c.args) :=
      Heap.answer_removal (known.imp And.left And.left) c.args
    generalize s.heap.answer c.receiver method c.args = outcome at removal lists answer
    cases removal with
    | @taken front behind w split =>
      cases answer
      refine .inl ⟨front, behind, (s.get_heap _).symm.trans split, (t.get_heap _).symm.trans ?_⟩
      rw [lists]
      exact Heap.get_put (inside target)
    | nothing bare empty =>
      cases answer
      have before : s.members c.receiver = #[] := by
        rw [← Array.toList_inj, ← s.get_heap, empty]
      have after : t.members c.receiver = s.members c.receiver :=
        Store.members_of_heap (by rw [lists])
      refine .inr ⟨?_, bare.2, rfl, before, after.trans before⟩
      rcases known with ⟨pop, -⟩ | ⟨-, shift⟩
      · cases pop.symm.trans bare.1
      · exact shift
    | refused => cases answer

theorem Plain.local (plain : c.Plain) (sound : s.Sound) (live : (c.step enter s).Live) :
    (c.step enter s).Local := by
  have frames := plain.frames enter s
  obtain ⟨result, lists⟩ := plain.answers enter s
  rw [Heap.call] at result lists
  cases named : ArrayMethod.plainNames.lookup c.name with
  | some method =>
    rw [named] at result lists
    exact local_of_answer sound frames live.1 named result lists
  | none =>
    rw [named] at result lists
    have same (id : ArrayId) : (c.step enter s).after.members id = s.members id :=
      Store.members_of_heap (by rw [lists])
    exact ⟨fun id _ _ => same id, frames, fun _ _ => same,
      fun _ id returned => (nomatch returned.symm.trans result),
      fun _ v returned => (nomatch returned.symm.trans result)⟩

end ArrayCall

theorem Store.arraySteps_heap (enter : Enter) (s : Store) {calls : List ArrayCall}
    (plain : ∀ c ∈ calls, c.Plain) :
    (s.arraySteps enter calls).map (fun x => (x.result, x.after.heap)) = s.heap.calls calls := by
  induction calls generalizing s with
  | nil => rfl
  | cons c rest ih =>
    obtain ⟨here, later⟩ := List.forall_mem_cons.mp plain
    obtain ⟨result, lists⟩ := here.answers enter s
    rw [arraySteps, Heap.calls, List.map_cons, ih _ later, result, lists]

/-- Whatever handles they are given, calls of methods that call no function come to what they come
    to on plain lists; each of them changes its receiver alone, and what they make is new. -/
theorem Store.arrays_are_lists (enter : Enter) {s : Store} (sound : s.Sound)
    {calls : List ArrayCall} (plain : ∀ c ∈ calls, c.Plain)
    (live : ∀ x ∈ s.arraySteps enter calls, x.Live) :
    (s.arraySteps enter calls).map (fun x => (x.result, x.after.heap)) = s.heap.calls calls ∧
      ∀ x ∈ s.arraySteps enter calls, x.before.Sound ∧ x.Local := by
  refine ⟨s.arraySteps_heap enter plain, ?_⟩
  induction calls generalizing s with
  | nil => simp [arraySteps]
  | cons c rest ih =>
    obtain ⟨here, later⟩ := List.forall_mem_cons.mp plain
    obtain ⟨there, others⟩ := List.forall_mem_cons.mp live
    refine List.forall_mem_cons.mpr ⟨⟨sound, here.local sound there⟩, ?_⟩
    exact ih (here.sound enter sound there.1 there.2) later others

/-- The second array contains the first one and itself. -/
def Store.tangled : Store :=
  ⟨#[.empty none], #[#[.int 1], #[.array ⟨0⟩, .array ⟨1⟩]], 0, ""⟩

theorem Store.tangled_sound : tangled.Sound := by
  refine ⟨fun ⟨i⟩ v member => ?_, fun ⟨i⟩ binding member => ?_⟩
  · match i with
    | 0 =>
      simp only [tangled, members, Array.getD_eq_getD_getElem?] at member
      rw [Array.mem_singleton.mp member]
      trivial
    | 1 =>
      have both : v = .array ⟨0⟩ ∨ v = .array ⟨1⟩ := by simpa [tangled, members] using member
      rcases both with rfl | rfl <;> exact mem_handles.mpr (by decide)
    | i + 2 => simp [tangled, members] at member
  · have none : tangled.frame ⟨i⟩ = .empty none := by cases i <;> rfl
    rw [none] at member
    cases member

section Tangled

open Store (tangled mem_handles)

def tangledCalls : List ArrayCall :=
  [⟨"push", ⟨1⟩, [.array ⟨1⟩], 1, Store.globals⟩, ⟨"merge", ⟨1⟩, [.array ⟨0⟩], 2, Store.globals⟩,
   ⟨"pop", ⟨2⟩, [], 3, Store.globals⟩, ⟨"rest", ⟨0⟩, [], 4, Store.globals⟩,
   ⟨"pop", ⟨3⟩, [], 5, Store.globals⟩]

theorem tangledCalls_live : ∀ x ∈ tangled.arraySteps enterFirst tangledCalls, x.Live := by
  refine List.forall_mem_cons.mpr ⟨⟨mem_handles.mpr (by decide), ?_⟩, ?_⟩
  · exact List.forall_mem_singleton.mpr (mem_handles.mpr (by decide))
  refine List.forall_mem_cons.mpr ⟨⟨mem_handles.mpr (by decide), ?_⟩, ?_⟩
  · exact List.forall_mem_singleton.mpr (mem_handles.mpr (by decide))
  -- The last three calls have no arguments.
  refine List.forall_mem_cons.mpr ⟨⟨mem_handles.mpr (by decide), nofun⟩, ?_⟩
  refine List.forall_mem_cons.mpr ⟨⟨mem_handles.mpr (by decide), nofun⟩, ?_⟩
  exact List.forall_mem_cons.mpr ⟨⟨mem_handles.mpr (by decide), nofun⟩, nofun⟩

/-- An array is put into itself and joined with one of its members; the copies are arrays of their
    own, so the last call finds nothing. -/
theorem Store.arrays_are_lists_tangled :
    (tangled.arraySteps enterFirst tangledCalls).map ArrayStep.result =
        [.ok (.array ⟨1⟩), .ok (.array ⟨2⟩), .ok (.int 1), .ok (.array ⟨3⟩),
          .error ⟨.indexOutOfRange (-1), 5⟩] ∧
      ∀ x ∈ tangled.arraySteps enterFirst tangledCalls, x.before.Sound ∧ x.Local := by
  have plain : ∀ c ∈ tangledCalls, c.Plain := by
    simp [tangledCalls, ArrayCall.Plain, ArrayMethod.callingNames]
  obtain ⟨answers, steps⟩ := arrays_are_lists enterFirst tangled_sound plain tangledCalls_live
  refine ⟨?_, steps⟩
  have results := congrArg (List.map Prod.fst) answers
  rw [List.map_map] at results
  exact results

end Tangled

end MonkeyLang
