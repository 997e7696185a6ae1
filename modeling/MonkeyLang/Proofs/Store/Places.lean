import MonkeyLang.Proofs.Ast.Places
import MonkeyLang.Proofs.Store.Handles

namespace MonkeyLang

def Closure.unplaced (c : Closure) : Closure :=
  { c with body := c.body.unplaced, lines := ⟨[]⟩ }

@[simp] theorem Closure.arity_unplaced (c : Closure) : c.unplaced.arity = c.arity := rfl

namespace Value

def unplaced : Value → Value
  | closure c => closure c.unplaced
  | returned value => returned value.unplaced
  | int n => int n
  | uint n => uint n
  | float x => float x
  | str s => str s
  | bool b => bool b
  | nil => nil
  | array id => array id

@[simp] theorem truthy_unplaced (v : Value) : v.unplaced.truthy = v.truthy := by
  induction v with
  | returned value ih => exact ih
  | _ => rfl

@[simp] theorem typeName_unplaced (v : Value) : v.unplaced.typeName = v.typeName := by
  cases v <;> rfl

@[simp] theorem isReturned_unplaced (v : Value) : v.unplaced.isReturned = v.isReturned := by
  cases v <;> rfl

@[simp] theorem unwrap_unplaced (v : Value) : v.unplaced.unwrap = v.unwrap.unplaced := by
  cases v <;> rfl

end Value

def unplacedBinding (binding : String × Value) : String × Value := (binding.1, binding.2.unplaced)

namespace Frame

def unplaced (frame : Frame) : Frame :=
  { frame with bindings := frame.bindings.map unplacedBinding }

variable (frame : Frame) (name : String)

theorem find?_unplaced : frame.unplaced.find? name = (frame.find? name).map Value.unplaced := by
  obtain ⟨bindings, parent⟩ := frame
  simp only [unplaced, find?]
  induction bindings with
  | nil => rfl
  | cons binding rest ih =>
    obtain ⟨key, value⟩ := binding
    simp only [List.map_cons, unplacedBinding, List.lookup_cons]
    cases name == key with
    | true => rfl
    | false => exact ih

theorem binds_unplaced : frame.unplaced.binds name = frame.binds name := by
  simp only [unplaced, binds, List.any_map]
  rfl

theorem insert_unplaced (value : Value) (bindings : List (String × Value)) :
    insert name value.unplaced (bindings.map unplacedBinding) =
      (insert name value bindings).map unplacedBinding := by
  fun_induction insert name value bindings with
  | case1 => rfl
  | case2 old rest => simp [insert, unplacedBinding]
  | case3 other old rest ne before => simp [insert, unplacedBinding, ne, before]
  | case4 other old rest ne before ih =>
    simp only [List.map_cons, unplacedBinding, insert, ne, before, if_false]
    exact congrArg _ ih

theorem define_unplaced (value : Value) :
    frame.unplaced.define name value.unplaced = (frame.define name value).unplaced := by
  simp only [define, unplaced, insert_unplaced]

end Frame

namespace Store

def unplaced (s : Store) : Store :=
  { s with
    frames := s.frames.map Frame.unplaced
    arrays := s.arrays.map fun members => members.map Value.unplaced }

variable (s : Store)

section Reading

theorem frame_unplaced (id : FrameId) : s.unplaced.frame id = (s.frame id).unplaced := by
  simp only [frame, unplaced, Array.getD_eq_getD_getElem?, Array.getElem?_map]
  cases s.frames[id.index]? <;> rfl

theorem members_unplaced (id : ArrayId) :
    s.unplaced.members id = (s.members id).map Value.unplaced := by
  simp only [members, unplaced, Array.getD_eq_getD_getElem?, Array.getElem?_map]
  cases s.arrays[id.index]? with
  | none => exact Array.map_empty.symm
  | some members => rfl

theorem members_toList_unplaced (id : ArrayId) :
    (s.unplaced.members id).toList = (s.members id).toList.map Value.unplaced := by
  rw [members_unplaced, Array.toList_map]

theorem getD_unplaced (id : ArrayId) (i : Nat) :
    (s.unplaced.members id).getD i .nil = ((s.members id).getD i .nil).unplaced := by
  simp only [members_unplaced, Array.getD_eq_getD_getElem?, Array.getElem?_map]
  cases (s.members id)[i]? <;> rfl

theorem parent_unplaced (id : FrameId) :
    (s.unplaced.frame id).parent = (s.frame id).parent := by
  rw [frame_unplaced]
  rfl

theorem get?_unplaced (id : FrameId) (name : String) :
    s.unplaced.get? id name = (s.get? id name).map Value.unplaced := by
  fun_induction Store.get? s id name with
  | case1 id value here =>
    rw [Store.get?, frame_unplaced, Frame.find?_unplaced, here]
    rfl
  | case2 id absent parent up older ih =>
    rw [Store.get?, parent_unplaced, frame_unplaced, Frame.find?_unplaced, absent, up]
    simpa only [Option.map_none, older, if_true] using ih
  | case3 id absent parent up newer =>
    rw [Store.get?, parent_unplaced, frame_unplaced, Frame.find?_unplaced, absent, up]
    simp only [Option.map_none, newer, if_false]
  | case4 id absent up =>
    rw [Store.get?, parent_unplaced, frame_unplaced, Frame.find?_unplaced, absent, up]
    rfl

theorem contains_unplaced (id : FrameId) (name : String) :
    s.unplaced.contains id name = s.contains id name := by
  fun_induction Store.contains s id name with
  | case1 id ih =>
    rw [Store.contains, parent_unplaced, frame_unplaced, Frame.binds_unplaced]
    cases (s.frame id).parent with
    | none => rfl
    | some parent =>
      by_cases older : parent.index < id.index
      · simp only [older, if_true, ih parent older]
      · simp only [older, if_false]

end Reading

section Writing

theorem child_unplaced (parent : FrameId) :
    s.unplaced.child parent = ((s.child parent).1, (s.child parent).2.unplaced) := by
  simp [child, unplaced, Frame.unplaced, Frame.empty]

theorem define_unplaced (id : FrameId) (name : String) (value : Value) :
    s.unplaced.define id name value.unplaced = (s.define id name value).unplaced := by
  simp only [define, unplaced, Store.mk.injEq, and_true]
  refine Array.ext_getElem? fun i => ?_
  simp only [Array.getElem?_modify, Array.getElem?_map]
  split
  · cases s.frames[i]? with
    | none => rfl
    | some frame => exact congrArg some (Frame.define_unplaced frame name value)
  · rfl

theorem alloc_unplaced (values : Array Value) :
    s.unplaced.alloc (values.map Value.unplaced) =
      ((s.alloc values).1, (s.alloc values).2.unplaced) := by
  simp [alloc, unplaced]

theorem modify_unplaced (id : ArrayId) (f g : Array Value → Array Value)
    (same : ∀ values, g (values.map Value.unplaced) = (f values).map Value.unplaced) :
    s.unplaced.modify id g = (s.modify id f).unplaced := by
  simp only [modify, unplaced, Store.mk.injEq, and_true, true_and]
  refine Array.ext_getElem? fun i => ?_
  simp only [Array.getElem?_modify, Array.getElem?_map]
  split
  · cases s.arrays[i]? with
    | none => rfl
    | some values => exact congrArg some (same values)
  · rfl

theorem close_unplaced (params : List String) (body : Expr) (scope : FrameId)
    (lines : LineIndex) :
    s.unplaced.close params body.unplaced scope ⟨[]⟩ =
      ((s.close params body scope lines).1.unplaced,
        (s.close params body scope lines).2.unplaced) := rfl

theorem print_unplaced (text : List Char) : s.unplaced.print text = (s.print text).unplaced := rfl

end Writing

end Store

end MonkeyLang
