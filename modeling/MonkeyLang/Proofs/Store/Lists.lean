import MonkeyLang.Eval.ArrayMethod
import MonkeyLang.Proofs.Store.Handles
import MonkeyLang.Proofs.Value.Equality

namespace MonkeyLang

/-- A list for each handle. The handle is the place of the list. -/
structure Heap where
  lists : List (List Value)

namespace Heap

def get (h : Heap) (id : ArrayId) : List Value := h.lists.getD id.index []

def put (h : Heap) (id : ArrayId) (values : List Value) : Heap := ⟨h.lists.set id.index values⟩

def add (h : Heap) (values : List Value) : Except Fault Value × Heap :=
  (.ok (.array ⟨h.lists.length⟩), ⟨h.lists ++ [values]⟩)

def same (h : Heap) (a b : Value) : Bool :=
  Store.valuesEqual ⟨#[], (h.lists.map List.toArray).toArray, 0, ""⟩ a b

def takeOut (h : Heap) (id : ArrayId) (place : Int) : Except Fault Value × Heap :=
  if place < 0 then (.error (.indexOutOfRange place), h)
  else match (h.get id).drop place.toNat with
    | [] => (.error (.indexOutOfRange place), h)
    | value :: behind => (.ok value, h.put id ((h.get id).take place.toNat ++ behind))

def answerBare (h : Heap) (id : ArrayId) : ArrayMethod → Except Fault Value × Heap
  | .len => (.ok (.int (.ofNat (h.get id).length)), h)
  | .empty => (.ok (.bool (h.get id).isEmpty), h)
  | .first => (.ok ((h.get id).headD .nil), h)
  | .last => (.ok ((h.get id).getLastD .nil), h)
  | .tail =>
    match h.get id with
    | [] => (.ok .nil, h)
    | _ :: rest => h.add rest
  | .pop =>
    match (h.get id).getLast? with
    | none => (.error (.indexOutOfRange (-1)), h)
    | some last => (.ok last, h.put id (h.get id).dropLast)
  | .shift =>
    match h.get id with
    | [] => (.ok .nil, h)
    | first :: rest => (.ok first, h.put id rest)
  | method => (.error (.argumentCount method.arity 0), h)

def answerTo (h : Heap) (id : ArrayId) (arg : Value) : ArrayMethod → Except Fault Value × Heap
  | .count => (.ok (.int (.ofNat ((h.get id).countP (h.same · arg)))), h)
  | .includes => (.ok (.bool ((h.get id).any (h.same · arg))), h)
  | .index =>
    match (h.get id).findIdx? (h.same · arg) with
    | some place => (.ok (.int (.ofNat place)), h)
    | none => (.ok .nil, h)
  | .push => (.ok (.array id), h.put id (h.get id ++ [arg]))
  | .unshift => (.ok (.array id), h.put id (arg :: h.get id))
  | .pop =>
    match arg with
    | .int i => h.takeOut id (if i.toInt < 0 then i.toInt + (h.get id).length else i.toInt)
    | other => (.error (.argumentKind "pop" .integer other.typeName), h)
  | .shift =>
    match arg with
    | .int i => h.takeOut id i.toInt
    | other => (.error (.argumentKind "shift" .integer other.typeName), h)
  | .merge =>
    match arg with
    | .array other => h.add (h.get id ++ h.get other)
    | other => (.error (.argumentKind "merge" .array other.typeName), h)
  | method => (.error (.argumentCount method.arity 1), h)

def answer (h : Heap) (id : ArrayId) (method : ArrayMethod) : List Value → Except Fault Value × Heap
  | [] => h.answerBare id method
  | [arg] => h.answerTo id arg method
  | args => (.error (.argumentCount method.arity args.length), h)

end Heap

namespace Heap

variable {h : Heap} {id other : ArrayId} {values : List Value}

theorem get_put (inside : id.index < h.lists.length) : (h.put id values).get id = values := by
  simp [get, put, inside]

theorem get_put_of_ne (different : other ≠ id) : (h.put id values).get other = h.get other := by
  obtain ⟨i⟩ := id
  obtain ⟨j⟩ := other
  have apart : i ≠ j := fun same => different (congrArg ArrayId.mk same.symm)
  simp [get, put, apart]

theorem get_add (old : id.index < h.lists.length) : (h.add values).2.get id = h.get id := by
  simp [get, add, List.getElem?_append_left old]

inductive Effect (h : Heap) (id : ArrayId) : Except Fault Value × Heap → Prop
  | reads (result : Except Fault Value) : Effect h id (result, h)
  | puts (v : Value) (values : List Value) : Effect h id (.ok v, h.put id values)
  | adds (values : List Value) : Effect h id (h.add values)

/-- A member is taken out, or there is none where that is no fault, and the list stays. -/
inductive Removal (h : Heap) (id : ArrayId) (lenient : Prop) : Except Fault Value × Heap → Prop
  | taken {front behind : List Value} {v : Value} (split : h.get id = front ++ v :: behind) :
      Removal h id lenient (.ok v, h.put id (front ++ behind))
  | nothing (allowed : lenient) (empty : h.get id = []) : Removal h id lenient (.ok .nil, h)
  | refused (fault : Fault) : Removal h id lenient (.error fault, h)

inductive Copy (h : Heap) : Except Fault Value × Heap → Prop
  | made (values : List Value) : Copy h (h.add values)
  | nothing : Copy h (.ok .nil, h)
  | refused (fault : Fault) : Copy h (.error fault, h)

theorem takeOut_removal (lenient : Prop) (place : Int) :
    h.Removal id lenient (h.takeOut id place) := by
  rw [takeOut]
  split
  · exact .refused _
  · split
    · exact .refused _
    · rename_i value behind rest
      exact .taken (by rw [← rest, List.take_append_drop])

theorem answer_removal {method : ArrayMethod} (removes : method = .pop ∨ method = .shift)
    (args : List Value) :
    h.Removal id (method = .shift ∧ args = []) (h.answer id method args) := by
  match args with
  | [] =>
    rcases removes with rfl | rfl
    · rw [answer, answerBare]
      split
      · exact .refused _
      · rename_i last found
        have split := (List.dropLast_append_getLast? last found).symm
        rw [← List.append_nil (h.get id).dropLast]
        exact .taken split
    · rw [answer, answerBare]
      split
      · rename_i empty
        exact .nothing ⟨rfl, rfl⟩ empty
      · rename_i first rest split
        rw [← List.nil_append rest]
        exact .taken split
  | [arg] =>
    rcases removes with rfl | rfl <;> cases arg <;>
      first | exact takeOut_removal _ _ | exact .refused _
  | _ :: _ :: _ => exact .refused _

theorem answer_copy {method : ArrayMethod} (copies : method = .tail ∨ method = .merge)
    (args : List Value) : h.Copy (h.answer id method args) := by
  match args with
  | [] =>
    rcases copies with rfl | rfl
    · rw [answer, answerBare]
      split
      · exact .nothing
      · exact .made _
    · exact .refused _
  | [arg] =>
    rcases copies with rfl | rfl
    · exact .refused _
    · cases arg <;> first | exact .made _ | exact .refused _
  | _ :: _ :: _ => exact .refused _

theorem Removal.effect {lenient : Prop} {answer : Except Fault Value × Heap}
    (removal : h.Removal id lenient answer) : h.Effect id answer := by
  cases removal with
  | taken => exact .puts _ _
  | nothing | refused => exact .reads _

theorem Copy.effect {answer : Except Fault Value × Heap} (copy : h.Copy answer) :
    h.Effect id answer := by
  cases copy with
  | made values => exact .adds values
  | nothing | refused => exact .reads _

theorem answer_effect (method : ArrayMethod) (args : List Value) :
    h.Effect id (h.answer id method args) := by
  match args with
  | [] =>
    cases method with
    | tail => exact (answer_copy (.inl rfl) []).effect
    | pop => exact (answer_removal (.inl rfl) []).effect
    | shift => exact (answer_removal (.inr rfl) []).effect
    | _ => exact .reads _
  | [arg] =>
    cases method with
    | merge => exact (answer_copy (.inr rfl) [arg]).effect
    | pop => exact (answer_removal (.inl rfl) [arg]).effect
    | shift => exact (answer_removal (.inr rfl) [arg]).effect
    | push | unshift => exact .puts _ _
    | index =>
      rw [answer, answerTo]
      split <;> exact .reads _
    | _ => exact .reads _
  | _ :: _ :: _ => exact .reads _

theorem Effect.others {answer : Except Fault Value × Heap} (effect : h.Effect id answer)
    (old : other.index < h.lists.length) (different : other ≠ id) :
    answer.2.get other = h.get other := by
  cases effect with
  | reads => rfl
  | puts v values => exact get_put_of_ne different
  | adds values => exact get_add old

theorem Effect.failed {answer : Except Fault Value × Heap} (effect : h.Effect id answer)
    {fault : Fault} (failed : answer.1 = .error fault) : answer.2 = h := by
  cases effect with
  | reads => rfl
  | puts | adds => cases failed

end Heap

namespace Store

def heap (s : Store) : Heap := ⟨s.arrays.toList.map Array.toList⟩

variable (s : Store)

theorem get_heap (id : ArrayId) : s.heap.get id = (s.members id).toList := by
  simp only [heap, Heap.get, members, List.getD_eq_getElem?_getD, Array.getD_eq_getD_getElem?,
    List.getElem?_map, Array.getElem?_toList]
  cases s.arrays[id.index]? <;> rfl

theorem members_of_heap {s t : Store} {id : ArrayId} (same : t.heap.get id = s.heap.get id) :
    t.members id = s.members id := by
  rw [get_heap, get_heap] at same
  exact Array.toList_inj.mp same

theorem heap_modify (id : ArrayId) (f : Array Value → Array Value) :
    (s.modify id f).heap = s.heap.put id (f (s.members id)).toList := by
  simp only [heap, Heap.put, modify, Heap.mk.injEq]
  refine List.ext_getElem? fun i => ?_
  simp only [List.getElem?_map, Array.getElem?_toList, Array.getElem?_modify, List.getElem?_set,
    List.length_map, Array.length_toList]
  by_cases here : id.index = i
  · subst here
    by_cases inside : id.index < s.arrays.size
    · simp [inside, members, Array.getD_eq_getD_getElem?]
    · simp [inside]
  · simp [here]

theorem heap_alloc (values : Array Value) :
    Heap.add s.heap values.toList = (.ok (.array (s.alloc values).1), (s.alloc values).2.heap) := by
  simp [heap, Heap.add, alloc]

theorem Agrees.of_members {s t : Store} (held : ∀ id, t.members id = s.members id)
    {R : Value → Value → Prop} {a b : Value} (agrees : s.Agrees R a b) : t.Agrees R a b :=
  agrees.imp (fun _ _ _ _ related => related) fun x y _ _ members => by rwa [held, held]

theorem valuesEqual_of_members {s t : Store} (held : ∀ id, t.members id = s.members id)
    (a b : Value) : t.valuesEqual a b = s.valuesEqual a b := by
  have equality : t.IsEquality fun a b => s.valuesEqual a b = true :=
    fun a b related => (isEquality_valuesEqual s a b related).of_members held
  have equality' : s.IsEquality fun a b => t.valuesEqual a b = true :=
    fun a b related => (isEquality_valuesEqual t a b related).of_members fun id => (held id).symm
  exact Bool.eq_iff_iff.mpr ⟨equality'.valuesEqual, equality.valuesEqual⟩

theorem same_heap (a b : Value) : s.heap.same a b = s.valuesEqual a b := by
  refine valuesEqual_of_members (fun id => ?_) a b
  simp only [heap, members, List.map_map, Array.getD_eq_getD_getElem?, List.getElem?_toArray,
    List.getElem?_map, Array.getElem?_toList]
  cases s.arrays[id.index]? <;> rfl

end Store

end MonkeyLang
