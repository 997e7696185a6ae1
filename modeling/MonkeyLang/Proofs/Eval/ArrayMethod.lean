import MonkeyLang.Proofs.Eval.Machine
import MonkeyLang.Proofs.Eval.Operators
import MonkeyLang.Proofs.Eval.Triple

namespace MonkeyLang

namespace ArrayMethod

def callsBack : ArrayMethod → Bool
  | filter | map | reduce => true
  | _ => false

def edited? (receiver : ArrayId) : ArrayMethod → Option ArrayId
  | push | unshift | pop | shift => some receiver
  | _ => none

/-- The result of a method that is run in the store, and the store after it. -/
inductive Outcome (s : Store) (line : Nat) (receiver : ArrayId) (arg : Value)
    (method : ArrayMethod) : Except RuntimeError Value × Store → Prop
  | flat {v : Value} {tree : Unfolding} (alone : v.flat? = some tree) :
      Outcome s line receiver arg method (.ok v, s)
  | member {v : Value} (inside : v ∈ s.members receiver) :
      Outcome s line receiver arg method (.ok v, s)
  | made {values : Array Value} (inside : ∀ v ∈ values, ∃ id, v ∈ s.members id) :
      Outcome s line receiver arg method (.ok (.array (s.alloc values).1), (s.alloc values).2)
  | edited {v : Value} {f : Array Value → Array Value}
      (edits : method.edited? receiver = some receiver)
      (left : ∀ w ∈ f (s.members receiver), w ∈ s.members receiver ∨ w = arg)
      (result : v = .array receiver ∨ v = .nil ∨ v ∈ s.members receiver) :
      Outcome s line receiver arg method (.ok v, s.modify receiver f)
  | refused {fault : Fault} (argument : ArgumentFault fault) :
      Outcome s line receiver arg method (.error ⟨fault, line⟩, s)

section Members

variable {members : Array Value} {v : Value}

theorem nil_or_mem (position : Nat) :
    members.getD position .nil = .nil ∨ members.getD position .nil ∈ members := by
  rw [Array.getD_eq_getD_getElem?]
  cases found : members[position]? with
  | none => exact .inl rfl
  | some v => exact .inr (Array.mem_of_getElem? found)

theorem mem_of_mem_removed {position : Nat}
    (member : v ∈ if position + 1 = members.size then members.pop
      else members.eraseIdxIfInBounds position) : v ∈ members := by
  split at member
  · rw [← Array.mem_toList_iff, Array.toList_pop] at member
    exact Array.mem_toList_iff.mp (List.dropLast_subset _ member)
  · rw [Array.eraseIdxIfInBounds_eq] at member
    split at member
    · exact Array.mem_of_mem_eraseIdx member
    · exact member

end Members

section Run

variable {s : Store} {line : Nat} {receiver : ArrayId} {arg : Value} {method : ArrayMethod}

theorem Outcome.memberOrNil {v : Value} (inside : v = .nil ∨ v ∈ s.members receiver) :
    Outcome s line receiver arg method (.ok v, s) := by
  rcases inside with rfl | inside
  · exact .flat rfl
  · exact .member inside

theorem Outcome.removed (edits : method.edited? receiver = some receiver) (position : Nat) :
    Outcome s line receiver arg method
      ((Eval.update (remove · receiver position)).runIn s) :=
  .edited edits (fun _ member => .inl (mem_of_mem_removed member)) (.inr (nil_or_mem position))

theorem Outcome.checked {α : Type} {result : Except Fault α} {next : α → Eval Value}
    (argument : ∀ fault, result = .error fault → ArgumentFault fault)
    (passed : ∀ a, Outcome s line receiver arg method ((next a).runIn s)) :
    Outcome s line receiver arg method ((Eval.ofExcept line result >>= next).runIn s) := by
  cases result with
  | ok a => exact passed a
  | error fault => exact .refused (argument fault rfl)

theorem run_outcome (alone : method.callsBack = false) (enter : Enter) (line : Nat)
    (scope : FrameId) (receiver : ArrayId) (args : List Value) (s : Store) :
    Outcome s line receiver (args.headD .nil) method
      ((method.run enter line scope receiver args).runIn s) := by
  cases method with
  | len | empty | count | includes => exact .flat rfl
  | first => exact .memberOrNil (nil_or_mem 0)
  | last =>
    refine .memberOrNil ?_
    cases found : (s.members receiver).back? with
    | none => exact .inl rfl
    | some v => exact .inr (Array.mem_of_back? found)
  | tail =>
    simp only [run, Eval.runIn_bind, Eval.runIn_read]
    split
    · exact .flat rfl
    · refine .made fun v member => ⟨receiver, ?_⟩
      obtain ⟨i, _, found⟩ := Array.mem_extract_iff_getElem.mp member
      exact Array.mem_of_getElem found
  | index =>
    simp only [run, Eval.runIn_bind, Eval.runIn_read]
    cases position? s receiver (args.headD .nil) <;> exact .flat rfl
  | push =>
    refine .edited rfl (fun w member => ?_) (.inl rfl)
    exact Array.mem_push.mp member
  | unshift =>
    refine .edited rfl (fun w member => ?_) (.inl rfl)
    exact (Array.mem_append.mp member).symm.imp_right Array.mem_singleton.mp
  | pop =>
    refine .checked (fun _ => integerArg_fault) fun index => ?_
    exact .checked (fun _ => popPosition_fault) fun position => .removed rfl position
  | shift =>
    refine .checked (fun _ => integerArg_fault) fun index => ?_
    refine .checked (fun _ => shiftPosition_fault) fun position => ?_
    cases position with
    | none => exact .flat rfl
    | some position => exact .removed rfl position
  | merge =>
    simp only [run, Eval.runIn_bind, Eval.runIn_read]
    split
    · rename_i other _
      refine .made fun v member => ?_
      exact (Array.mem_append.mp member).elim (⟨receiver, ·⟩) (⟨other, ·⟩)
    · exact .refused (.kind ..)
  | filter | map | reduce => cases alone

end Run

end ArrayMethod

theorem Machine.runMethod_plain {m : Machine} {line : Nat} {scope : FrameId} {receiver : ArrayId}
    {args : List Value} {method : ArrayMethod} (alone : method.callsBack = false) (enter : Enter) :
    m.runMethod line scope receiver args method =
      m.finish (method.run enter line scope receiver args) := by
  cases method with
  | filter | map | reduce => cases alone
  | _ => rfl

end MonkeyLang
