import MonkeyLang.Proofs.Eval.ArrayCalls
import MonkeyLang.Proofs.Eval.Checked

namespace MonkeyLang

namespace Store

variable {s : Store} {id : ArrayId}

theorem index_inside {front behind : List Value} {v : Value} {i : Int64}
    (split : (s.members id).toList = front ++ v :: behind)
    (position : fromEnd i.toInt (s.members id).size = front.length) :
    s.index (.array id) (.int i) = .ok v := by
  have found : (s.members id)[front.length]? = some v := by
    rw [← Array.getElem?_toList, split]
    simp
  simp only [index, position]
  rw [if_neg (by omega), Int.toNat_natCast, Array.getD_eq_getD_getElem?, found, Option.getD_some]

theorem index_outside {i : Int64}
    (outside : ¬ (0 ≤ fromEnd i.toInt (s.members id).size ∧
      fromEnd i.toInt (s.members id).size < (s.members id).size)) :
    s.index (.array id) (.int i) = .ok .nil := by
  simp only [index]
  generalize fromEnd i.toInt (s.members id).size = position at outside
  by_cases negative : position < 0
  · rw [if_pos negative]
  · rw [if_neg negative, Array.getD_eq_getD_getElem?, Array.getElem?_eq_none (by omega),
      Option.getD_none]

end Store

namespace ArrayMethod

def removal (line : Nat) (s : Store) (id : ArrayId) (position : Int) :
    Except RuntimeError Value × Store :=
  if 0 ≤ position ∧ position < (s.members id).size then
    (.ok (remove s id position.toNat).1, (remove s id position.toNat).2)
  else (.error ⟨.indexOutOfRange position, line⟩, s)

section Removal

variable {line : Nat} {s : Store} {id : ArrayId} {position : Int}

theorem removal_inside {front behind : List Value} {v : Value}
    (split : (s.members id).toList = front ++ v :: behind) (here : position = front.length) :
    removal line s id position = (.ok v, s.modify id fun _ => (front ++ behind).toArray) := by
  have size := size_around split
  rw [removal, if_pos (by omega), here, Int.toNat_natCast, remove_eq split]

theorem removal_outside (outside : ¬ (0 ≤ position ∧ position < (s.members id).size)) :
    removal line s id position = (.error ⟨.indexOutOfRange position, line⟩, s) :=
  if_neg outside

end Removal

section Calls

variable (enter : Enter) (line : Nat) (scope : FrameId) (s : Store) (id : ArrayId)

theorem runIn_removed (position : Int) :
    (Eval.ofExcept line (if 0 ≤ position ∧ position < (s.members id).size then .ok position.toNat
        else .error (.indexOutOfRange position)) >>=
      fun place => Eval.update (remove · id place)).runIn s = removal line s id position := by
  rw [removal]
  split <;> rfl

theorem runIn_pop (i : Int64) :
    (dispatch enter line scope "pop" id [.int i]).runIn s =
      removal line s id (fromEnd i.toInt (s.members id).size) :=
  runIn_removed line s id _

theorem pop_bare : (dispatch enter line scope "pop" id []).runIn s =
    (dispatch enter line scope "pop" id [.int (-1)]).runIn s := by
  have last : fromEnd (Int64.toInt (-1)) (s.members id).size = (s.members id).size - 1 := by
    rw [fromEnd, if_pos (by decide)]
    exact Int.add_comm ..
  rw [runIn_pop, last]
  change (Eval.ofExcept line (popPosition (s.members id).size none) >>=
      fun place => Eval.update (remove · id place)).runIn s = _
  rw [popPosition, ← runIn_removed]
  by_cases empty : (s.members id).size = 0
  · rw [if_pos empty, if_neg (by omega), empty]
    rfl
  · rw [if_neg empty, if_pos (by omega)]
    have place : ((s.members id).size - 1 : Int).toNat = (s.members id).size - 1 := by omega
    rw [place]

theorem runIn_shift (i : Int64) :
    (dispatch enter line scope "shift" id [.int i]).runIn s = removal line s id i.toInt := by
  change (Eval.ofExcept line (shiftPosition (s.members id).size (some i.toInt)) >>= _).runIn s = _
  rw [shiftPosition, removal]
  split <;> rfl

theorem shift_eq (i : Int64) : (dispatch enter line scope "shift" id [.int i]).runIn s =
    if 0 ≤ i.toInt then (dispatch enter line scope "pop" id [.int i]).runIn s
    else (.error ⟨.indexOutOfRange i.toInt, line⟩, s) := by
  rw [runIn_shift, runIn_pop]
  split
  · rename_i positive
    rw [fromEnd, if_neg (Int.not_lt.mpr positive)]
  · exact removal_outside (by omega)

theorem shift_bare (some : (s.members id).size ≠ 0) :
    (dispatch enter line scope "shift" id []).runIn s =
      (dispatch enter line scope "shift" id [.int 0]).runIn s := by
  have first : Int64.toInt 0 = 0 := rfl
  have bare : (Eval.ofExcept line (shift.integerArg [])).runIn s = (.ok none, s) := rfl
  have placed : (Eval.ofExcept line (shiftPosition (s.members id).size none)).runIn s =
      (.ok (.some 0), s) := by
    rw [shiftPosition, if_neg some]
    rfl
  rw [runIn_shift, first]
  change (shift.run enter line scope id []).runIn s = _
  rw [run, Eval.runIn_bind_ok (Eval.runIn_read ..)]
  dsimp only
  rw [Eval.runIn_bind_ok bare, Eval.runIn_bind_ok placed, removal, if_pos (by omega)]
  rfl

end Calls

/-- In an array, the position of a word is the word itself, or the word and the size together if it
    is negative; the sum is a word again. Where there is a member at the position, an index gives it
    and `pop` takes it away; elsewhere the one gives nil and the other fails without a change.
    `shift` does what `pop` does, but refuses negative words as they are. -/
theorem removed_where_indexed (enter : Enter) (line : Nat) (scope : FrameId) (s : Store)
    (id : ArrayId) (i : Int64) :
    let members := (s.members id).toList
    let position : Int := if i.toInt < 0 then i.toInt + members.length else i.toInt
    let call name args := (dispatch enter line scope name id args).runIn s
    (if 0 ≤ position ∧ position < members.length then
      ∃ front v behind, members = front ++ v :: behind ∧ position = front.length ∧
        s.index (.array id) (.int i) = .ok v ∧
        call "pop" [.int i] = (.ok v, s.modify id fun _ => (front ++ behind).toArray)
    else s.index (.array id) (.int i) = .ok .nil ∧
      call "pop" [.int i] = (.error ⟨.indexOutOfRange position, line⟩, s)) ∧
    call "shift" [.int i] =
      (if 0 ≤ i.toInt then call "pop" [.int i]
      else (.error ⟨.indexOutOfRange i.toInt, line⟩, s)) ∧
    call "pop" [] = call "pop" [.int (-1)] ∧
    (members ≠ [] → call "shift" [] = call "shift" [.int 0]) ∧
    (members.length < 2 ^ 63 →
      ∃ word, fromEnd? i members.length = some word ∧ word.toInt = position) := by
  intro members position call
  have size : members.length = (s.members id).size := Array.length_toList
  have counted : fromEnd i.toInt (s.members id).size = position := by rw [← size, fromEnd]
  have popped : call "pop" [.int i] = removal line s id position := by
    rw [← counted]
    exact runIn_pop ..
  refine ⟨?_, ?_, ?_, ?_, ?_⟩
  · split
    · rename_i inside
      have place : position.toNat < (s.members id).size := by omega
      obtain ⟨front, v, behind, split, length⟩ := exists_around place
      have here : position = front.length := by omega
      refine ⟨front, v, behind, split, here, Store.index_inside split (counted.trans here), ?_⟩
      rw [popped, removal_inside split here]
    · rename_i outside
      rw [size] at outside
      refine ⟨Store.index_outside (by rwa [counted]), ?_⟩
      rw [popped, removal_outside outside]
  · exact shift_eq ..
  · exact pop_bare ..
  · intro some
    refine shift_bare enter line scope s id ?_
    rw [← size]
    exact fun none => some (List.length_eq_zero_iff.mp none)
  · intro fits
    rw [size] at fits ⊢
    rw [← counted]
    exact fromEnd?_eq fits i

/-- The first of two members is at the position -2. -/
theorem removed_where_indexed_front :
    let s := (Store.initial.alloc #[.int 10, .int 20]).2
    let call name args := (dispatch enterFirst 1 Store.globals name ⟨0⟩ args).runIn s
    s.index (.array ⟨0⟩) (.int (-2)) = .ok (.int 10) ∧
      call "pop" [.int (-2)] = (.ok (.int 10), s.modify ⟨0⟩ fun _ => #[.int 20]) ∧
      call "shift" [.int (-2)] = (.error ⟨.indexOutOfRange (-2), 1⟩, s) ∧
      (s.members ⟨0⟩).toList ≠ [] ∧ call "shift" [] = call "shift" [.int 0] ∧
      (s.members ⟨0⟩).toList.length < 2 ^ 63 ∧
      ∃ word, fromEnd? (-2) (s.members ⟨0⟩).toList.length = some word ∧ word.toInt = 0 := by
  intro s call
  have members : s.members ⟨0⟩ = #[.int 10, .int 20] := rfl
  have some : (s.members ⟨0⟩).toList ≠ [] := by simp [members]
  have fits : (s.members ⟨0⟩).toList.length < 2 ^ 63 := by simp [members]
  obtain ⟨taken, shifted, -, first, word⟩ :=
    removed_where_indexed enterFirst 1 Store.globals s ⟨0⟩ (-2)
  rw [if_pos (by decide)] at taken
  obtain ⟨front, v, behind, split, position, indexed, popped⟩ := taken
  obtain rfl : front = [] := List.length_eq_zero_iff.mp (Int.natCast_eq_zero.mp position.symm)
  cases split
  exact ⟨indexed, popped, shifted, some, first some, fits, word fits⟩

end ArrayMethod

end MonkeyLang
