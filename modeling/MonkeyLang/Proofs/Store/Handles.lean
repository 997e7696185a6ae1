import MonkeyLang.Value.Handles

namespace MonkeyLang

namespace Store

variable (s : Store)

section Members

@[simp] theorem members_root (id : ArrayId) : s.root.2.members id = s.members id := rfl

@[simp] theorem members_child (parent : FrameId) (id : ArrayId) :
    (s.child parent).2.members id = s.members id := rfl

@[simp] theorem members_define (frame : FrameId) (name : String) (value : Value) (id : ArrayId) :
    (s.define frame name value).members id = s.members id := rfl

@[simp] theorem members_close (params : List String) (body : Expr) (scope : FrameId)
    (lines : LineIndex) (id : ArrayId) :
    (s.close params body scope lines).2.members id = s.members id := rfl

@[simp] theorem members_print (text : List Char) (id : ArrayId) :
    (s.print text).members id = s.members id := rfl

theorem members_alloc (members : Array Value) (id : ArrayId) :
    (s.alloc members).2.members id =
      if id.index = s.arrays.size then members else s.members id := by
  simp only [alloc, Store.members, Array.getD_eq_getD_getElem?, Array.getElem?_push]
  split <;> rfl

theorem members_modify (id : ArrayId) (f : Array Value → Array Value) (other : ArrayId) :
    (s.modify id f).members other =
      if other = id ∧ id ∈ s.handles then f (s.members id) else s.members other := by
  obtain ⟨i⟩ := id
  obtain ⟨j⟩ := other
  simp only [modify, Store.members, mem_handles, Array.getD_eq_getD_getElem?,
    Array.getElem?_modify, ArrayId.mk.injEq]
  by_cases same : i = j
  · subst same
    by_cases inside : i < s.arrays.size <;> simp [inside]
  · simp [same, Ne.symm same]

theorem modify_congr {id : ArrayId} {f g : Array Value → Array Value}
    (same : f (s.members id) = g (s.members id)) : s.modify id f = s.modify id g := by
  have arrays : s.arrays.modify id.index f = s.arrays.modify id.index g := by
    refine Array.ext_getElem? fun i => ?_
    rw [Array.getElem?_modify, Array.getElem?_modify]
    by_cases here : id.index = i
    · subst here
      rw [if_pos rfl, if_pos rfl]
      cases found : s.arrays[id.index]? with
      | none => rfl
      | some members =>
        have held : s.members id = members := by
          rw [Store.members, Array.getD_eq_getD_getElem?, found, Option.getD_some]
        rw [held] at same
        exact congrArg some same
    · rw [if_neg here, if_neg here]
  rw [modify, modify, arrays]

end Members

section Frames

@[simp] theorem frame_alloc (members : Array Value) (id : FrameId) :
    (s.alloc members).2.frame id = s.frame id := rfl

@[simp] theorem frame_modify (array : ArrayId) (f : Array Value → Array Value) (id : FrameId) :
    (s.modify array f).frame id = s.frame id := rfl

@[simp] theorem frame_close (params : List String) (body : Expr) (scope : FrameId)
    (lines : LineIndex) (id : FrameId) :
    (s.close params body scope lines).2.frame id = s.frame id := rfl

@[simp] theorem frame_print (text : List Char) (id : FrameId) :
    (s.print text).frame id = s.frame id := rfl

theorem frame_child (parent id : FrameId) :
    (s.child parent).2.frame id =
      if id.index = s.frames.size then .empty (some parent) else s.frame id := by
  simp only [child, frame, Array.getD_eq_getD_getElem?, Array.getElem?_push]
  split <;> rfl

theorem frame_define (id : FrameId) (name : String) (value : Value) (other : FrameId) :
    (s.define id name value).frame other =
      if other = id ∧ id.index < s.frames.size then (s.frame id).define name value
      else s.frame other := by
  obtain ⟨i⟩ := id
  obtain ⟨j⟩ := other
  simp only [define, frame, Array.getD_eq_getD_getElem?, Array.getElem?_modify, FrameId.mk.injEq]
  by_cases same : i = j
  · subst same
    by_cases inside : i < s.frames.size <;> simp [inside]
  · simp [same, Ne.symm same]

end Frames

end Store

theorem Frame.mem_insert {name : String} {value : Value} {bindings : List (String × Value)}
    {binding : String × Value} (member : binding ∈ Frame.insert name value bindings) :
    binding = (name, value) ∨ binding ∈ bindings := by
  fun_induction Frame.insert name value bindings with
  | case1 => exact .inl (List.mem_singleton.mp member)
  | case2 old rest =>
    exact (List.mem_cons.mp member).imp_right (List.mem_cons_of_mem _)
  | case3 other old rest _ _ => exact List.mem_cons.mp member
  | case4 other old rest _ _ ih =>
    rcases List.mem_cons.mp member with rfl | later
    · exact .inr List.mem_cons_self
    · exact (ih later).imp_right (List.mem_cons_of_mem _)

namespace Store

structure Holds (s : Store) (P : Value → Prop) : Prop where
  members : ∀ id, ∀ v ∈ s.members id, P v
  bindings : ∀ id, ∀ binding ∈ (s.frame id).bindings, P binding.2

theorem holds_initial (P : Value → Prop) : initial.Holds P where
  members id v member := by simp [initial, Store.members] at member
  bindings id binding member := by
    have empty : (initial.frame id).bindings = [] := by
      obtain ⟨i⟩ := id
      cases i <;> simp [initial, frame, Frame.empty]
    rw [empty] at member
    cases member

namespace Holds

variable {s : Store} {P Q : Value → Prop} (holds : s.Holds P)

include holds

theorem imp (weaker : ∀ v, P v → Q v) : s.Holds Q :=
  ⟨fun id v member => weaker v (holds.members id v member),
    fun id binding member => weaker binding.2 (holds.bindings id binding member)⟩

theorem mem_toList {id : ArrayId} {v : Value} (member : v ∈ (s.members id).toList) : P v :=
  holds.members id v (Array.mem_toList_iff.mp member)

theorem getD (nil : P .nil) (id : ArrayId) (i : Nat) : P ((s.members id).getD i .nil) := by
  rw [Array.getD_eq_getD_getElem?]
  cases found : (s.members id)[i]? with
  | none => exact nil
  | some v => exact holds.members id v (Array.mem_of_getElem? found)

theorem get? {id : FrameId} {name : String} {v : Value} (found : s.get? id name = some v) :
    P v := by
  fun_induction Store.get? s id name with
  | case1 id value here =>
    cases found
    obtain ⟨before, after, split, _⟩ := List.lookup_eq_some_iff.mp here
    exact holds.bindings id (name, v) (split ▸ List.mem_append_right _ List.mem_cons_self)
  | case2 id _ parent up older ih => exact ih found
  | case3 => cases found
  | case4 => cases found

theorem child (parent : FrameId) : (s.child parent).2.Holds P where
  members := holds.members
  bindings id binding member := by
    rw [frame_child] at member
    split at member
    · cases member
    · exact holds.bindings id binding member

theorem define {v : Value} (value : P v) (id : FrameId) (name : String) :
    (s.define id name v).Holds P where
  members := holds.members
  bindings other binding member := by
    rw [frame_define] at member
    split at member
    · rcases Frame.mem_insert member with rfl | old
      · exact value
      · exact holds.bindings id binding old
    · exact holds.bindings other binding member

theorem close (params : List String) (body : Expr) (scope : FrameId) (lines : LineIndex) :
    (s.close params body scope lines).2.Holds P :=
  ⟨holds.members, holds.bindings⟩

theorem alloc {values : Array Value} (members : ∀ v ∈ values, P v) :
    (s.alloc values).2.Holds P where
  members id v member := by
    rw [members_alloc] at member
    split at member
    · exact members v member
    · exact holds.members id v member
  bindings := holds.bindings

theorem modify {id : ArrayId} {f : Array Value → Array Value}
    (members : ∀ v ∈ f (s.members id), P v) : (s.modify id f).Holds P where
  members other v member := by
    rw [members_modify] at member
    split at member
    · exact members v member
    · exact holds.members other v member
  bindings := holds.bindings

end Holds

end Store

end MonkeyLang
