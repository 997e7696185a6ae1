import Mathlib.Algebra.Ring.Int.Defs
import Mathlib.Algebra.Ring.Nat
import MonkeyLang.Eval
import MonkeyLang.Proofs.Eval.Triple

/-!
Operations in machine words. Those that a machine has no answer for have none here: sums that
overflow, divisions by zero, places outside a list, logical operators on two values. Main
statements: on lists and strings that a machine has room for, each operation of evaluation has an
answer, and it is that of evaluation.
-/

namespace MonkeyLang

def signed? (size : Nat) : Option Int64 :=
  if size < 2 ^ 63 then some (Int64.ofNat size) else none

def plus? (a b : Int64) : Option Int64 :=
  if -2 ^ 63 ≤ a.toInt + b.toInt ∧ a.toInt + b.toInt < 2 ^ 63 then some (a + b) else none

def sum? (a b : Nat) : Option Nat := if a + b < 2 ^ 64 then some (a + b) else none

def unlessZero {α : Type} [DecidableEq α] [OfNat α 0] (divide : α → α → α) (a b : α) : Option α :=
  if b = 0 then none else some (divide a b)

def fromEnd? (i : Int64) (size : Nat) : Option Int64 := do
  let size ← signed? size
  if i < 0 then plus? i size else some i

def isPosition? (position : Int64) (size : Nat) : Option Bool := do
  let size ← signed? size
  return 0 ≤ position ∧ position < size

/-- The number of the place that a word that is not negative stands for. -/
def place (position : Int64) : Nat := position.toUInt64.toNat

namespace Store

def index? (s : Store) : Value → Value → Option (Except Fault Value)
  | .array id, .int i => do
    let position ← fromEnd? i (s.members id).size
    if ← isPosition? position (s.members id).size then
      return .ok (← (s.members id)[place position]?)
    else
      return .ok .nil
  | .array _, position => some (.error (.wrongType (.position position.typeName)))
  | target, _ => some (.error (.wrongType (.target target.typeName)))

end Store

/-- The operators on two values; the logical ones are none of them. -/
def BinOp.answer? (s : Store) : BinOp → Value → Value → Option (Except Fault Value)
  | .logic _, _, _ => none
  | .strict .div, .int a, .int b =>
    if b = 0 then some (.error .divisionByZero) else (unlessZero (· / ·) a b).map (.ok ∘ .int)
  | .strict .div, .uint a, .uint b =>
    if b = 0 then some (.error .divisionByZero) else (unlessZero (· / ·) a b).map (.ok ∘ .uint)
  | .strict .mod, .int a, .int b =>
    if b = 0 then some (.error .divisionByZero) else (unlessZero (· % ·) a b).map (.ok ∘ .int)
  | .strict .mod, .uint a, .uint b =>
    if b = 0 then some (.error .divisionByZero) else (unlessZero (· % ·) a b).map (.ok ∘ .uint)
  | .strict op, a, b => some (op.apply s a b)

namespace ArrayMethod

def wordArg (method : ArrayMethod) : List Value → Except Fault (Option Int64)
  | [] => .ok none
  | .int n :: _ => .ok (some n)
  | other :: _ => .error (.argumentKind method.name .integer other.typeName)

def popPosition? (size : Nat) : Option Int64 → Option (Except Fault Nat)
  | none => some (popPosition size none)
  | some i => do
    let position ← fromEnd? i size
    if ← isPosition? position size then return .ok (place position)
    else return .error (.indexOutOfRange position.toInt)

def shiftPosition? (size : Nat) : Option Int64 → Option (Except Fault (Option Nat))
  | none => some (shiftPosition size none)
  | some i => do
    if ← isPosition? i size then return .ok (some (place i))
    else return .error (.indexOutOfRange i.toInt)

def remove? (s : Store) (id : ArrayId) (position : Nat) : Option (Value × Store) :=
  if position < (s.members id).size then some (remove s id position) else none

def mergedSize? (s : Store) (receiver : ArrayId) : Value → Option Nat
  | .array other => sum? (s.members receiver).size (s.members other).size
  | _ => some 0

def run? (enter : Enter) (line : Nat) (scope : FrameId) (receiver : ArrayId) (args : List Value)
    (s : Store) (method : ArrayMethod) : Option (Except RuntimeError Value × Store) :=
  match method with
  | len => do return (.ok (.int (← signed? (s.members receiver).size)), s)
  | count => do return (.ok (.int (← signed? (occurrences s receiver (args.headD .nil)))), s)
  | index =>
    match position? s receiver (args.headD .nil) with
    | some position => do return (.ok (.int (← signed? position)), s)
    | none => some (.ok .nil, s)
  | pop =>
    match method.wordArg args with
    | .error fault => some (.error ⟨fault, line⟩, s)
    | .ok word => do
      match ← popPosition? (s.members receiver).size word with
      | .error fault => return (.error ⟨fault, line⟩, s)
      | .ok position =>
        let (v, t) ← remove? s receiver position
        return (.ok v, t)
  | shift =>
    match method.wordArg args with
    | .error fault => some (.error ⟨fault, line⟩, s)
    | .ok word => do
      match ← shiftPosition? (s.members receiver).size word with
      | .error fault => return (.error ⟨fault, line⟩, s)
      | .ok none => return (.ok .nil, s)
      | .ok (some position) =>
        let (v, t) ← remove? s receiver position
        return (.ok v, t)
  | merge =>
    (mergedSize? s receiver (args.headD .nil)).map fun _ =>
      (merge.run enter line scope receiver args).runIn s
  | _ => some ((method.run enter line scope receiver args).runIn s)

end ArrayMethod

namespace Builtin

def runOn? (line : Nat) (s : Store) (arg : Value) (builtin : Builtin) :
    Option (Except RuntimeError Value × Store) :=
  match builtin, arg with
  | len, .str t => do return (.ok (.int (← signed? t.length)), s)
  | len, .array id => do return (.ok (.int (← signed? (s.members id).size)), s)
  | _, _ => some ((builtin.runOn line arg).runIn s)

def run? (line : Nat) (s : Store) (args : List Value) (builtin : Builtin) :
    Option (Except RuntimeError Value × Store) :=
  match builtin with
  | puts => some ((builtin.run line args).runIn s)
  | _ =>
    if args.length = 1 then do builtin.runOn? line s (← args[0]?)
    else some (.error ⟨.argumentCount (.exactly 1) args.length, line⟩, s)

end Builtin

def Store.Fits (s : Store) : Prop := ∀ id, (s.members id).size < 2 ^ 63

section Words

theorem signed?_eq {size : Nat} (fits : size < 2 ^ 63) : signed? size = some (Int64.ofNat size) :=
  if_pos fits

theorem fromEnd?_eq {size : Nat} (fits : size < 2 ^ 63) (i : Int64) :
    ∃ position, fromEnd? i size = some position ∧ position.toInt = fromEnd i.toInt size := by
  have low := i.le_toInt
  have high := i.toInt_lt
  have length := Int64.toInt_ofNat_of_lt fits
  rw [fromEnd?, signed?_eq fits, Option.bind_eq_bind, Option.bind_some, fromEnd]
  simp only [Int64.lt_iff_toInt_lt, Int64.toInt_zero]
  by_cases negative : i.toInt < 0
  · rw [if_pos negative, if_pos negative, plus?, if_pos (by omega)]
    refine ⟨_, rfl, ?_⟩
    rw [Int64.toInt_add, length]
    exact Int.bmod_eq_of_le (by omega) (by omega)
  · rw [if_neg negative, if_neg negative]
    exact ⟨i, rfl, rfl⟩

example : fromEnd? Int64.minValue 3 = some (Int64.minValue + 3) := by decide

theorem isPosition?_eq {size : Nat} (fits : size < 2 ^ 63) (position : Int64) :
    isPosition? position size = some (decide (0 ≤ position.toInt ∧ position.toInt < size)) := by
  rw [isPosition?, signed?_eq fits, Option.bind_eq_bind, Option.bind_some]
  simp only [Int64.le_iff_toInt_le, Int64.lt_iff_toInt_lt, Int64.toInt_zero,
    Int64.toInt_ofNat_of_lt fits]
  rfl

theorem place_eq {position : Int64} (positive : 0 ≤ position.toInt) :
    place position = position.toInt.toNat := by
  have up : 0 ≤ position := Int64.le_iff_toInt_le.mpr (by rwa [Int64.toInt_zero])
  rw [place, Int64.toNat_toUInt64_of_le up, Int64.toNat_toInt]

end Words

theorem Store.index?_eq {s : Store} (fits : s.Fits) (a b : Value) :
    s.index? a b = some (s.index a b) := by
  fun_cases Store.index? s a b with
  | case1 id i =>
    obtain ⟨position, found, means⟩ := fromEnd?_eq (fits id) i
    rw [found, Option.bind_eq_bind, Option.bind_some, isPosition?_eq (fits id), index, ← means]
    by_cases inside : 0 ≤ position.toInt ∧ position.toInt < (s.members id).size
    · have up : ¬position.toInt < 0 := by omega
      have within : position.toNatClampNeg < (s.members id).size := by
        rw [← Int64.toNat_toInt]
        omega
      simp [inside, place_eq inside.1, up, Array.getElem?_eq_getElem within]
    · by_cases negative : position.toInt < 0
      · simp [inside, negative]
      · have behind : (s.members id).size ≤ position.toNatClampNeg := by
          rw [← Int64.toNat_toInt]
          omega
        simp [inside, negative, Array.getElem?_eq_none behind]
  | case2 => rw [index]; assumption
  | case3 => rw [index] <;> assumption

theorem BinOp.answer?_eq (s : Store) (op : StrictOp) (a b : Value) :
    (BinOp.strict op).answer? s a b = some (op.apply s a b) := by
  generalize same : BinOp.strict op = op'
  fun_cases BinOp.answer? s op' a b with
  | case1 => cases same
  | case2 | case4 | case6 | case8 =>
    cases same
    simp [StrictOp.apply, StrictOp.arithmetic?]
  | case3 a b other | case5 a b other | case7 a b other | case9 a b other =>
    cases same
    simp [StrictOp.apply, StrictOp.arithmetic?, unlessZero, other]
  | case10 =>
    cases same
    rfl

example (s : Store) (a b : Value) : (BinOp.logic .and).answer? s a b = none := rfl

namespace ArrayMethod

variable {size : Nat}

theorem wordArg_cases (method : ArrayMethod) (args : List Value) :
    (∃ fault, method.wordArg args = .error fault ∧ method.integerArg args = .error fault) ∨
      ∃ word, method.wordArg args = .ok word ∧
        method.integerArg args = .ok (word.map Int64.toInt) := by
  fun_cases wordArg method args with
  | case1 => exact .inr ⟨none, rfl, rfl⟩
  | case2 n => exact .inr ⟨some n, rfl, rfl⟩
  | case3 other rest kind =>
    refine .inl ⟨_, rfl, ?_⟩
    rw [integerArg]
    exact kind

theorem popPosition?_eq (fits : size < 2 ^ 63) (word : Option Int64) :
    popPosition? size word = some (popPosition size (word.map Int64.toInt)) := by
  cases word with
  | none => rfl
  | some i =>
    obtain ⟨position, found, means⟩ := fromEnd?_eq fits i
    rw [popPosition?, found, Option.bind_eq_bind, Option.bind_some, isPosition?_eq fits,
      Option.map_some, popPosition, ← means]
    by_cases inside : 0 ≤ position.toInt ∧ position.toInt < size
    · simp [inside, place_eq inside.1]
    · simp [inside]

theorem shiftPosition?_eq (fits : size < 2 ^ 63) (word : Option Int64) :
    shiftPosition? size word = some (shiftPosition size (word.map Int64.toInt)) := by
  cases word with
  | none => rfl
  | some i =>
    rw [shiftPosition?, isPosition?_eq fits, Option.map_some, shiftPosition]
    by_cases inside : 0 ≤ i.toInt ∧ i.toInt < size
    · simp [inside, place_eq inside.1]
    · simp [inside]

theorem popPosition_lt {index : Option Int} {position : Nat}
    (found : popPosition size index = .ok position) : position < size := by
  revert found
  fun_cases popPosition size index with
  | case1 => exact fun found => nomatch found
  | case2 some =>
    rintro ⟨⟩
    omega
  | case3 i position inside =>
    rintro ⟨⟩
    omega
  | case4 => exact fun found => nomatch found

theorem shiftPosition_lt {index : Option Int} {position : Nat}
    (found : shiftPosition size index = .ok (some position)) : position < size := by
  revert found
  fun_cases shiftPosition size index with
  | case1 =>
    split
    · exact fun found => nomatch found
    · rintro ⟨⟩
      omega
  | case2 i inside =>
    rintro ⟨⟩
    omega
  | case3 => exact fun found => nomatch found

theorem mergedSize?_eq {s : Store} (fits : s.Fits) (receiver : ArrayId) (arg : Value) :
    ∃ size, mergedSize? s receiver arg = some size := by
  cases arg with
  | array other =>
    have here := fits receiver
    have there := fits other
    exact ⟨_, if_pos (by omega)⟩
  | _ => exact ⟨0, rfl⟩

theorem run?_eq {s : Store} (fits : s.Fits) (enter : Enter) (line : Nat) (scope : FrameId)
    (receiver : ArrayId) (args : List Value) (method : ArrayMethod) :
    method.run? enter line scope receiver args s =
      some ((method.run enter line scope receiver args).runIn s) := by
  cases method with
  | len =>
    rw [run?, signed?_eq (fits receiver)]
    rfl
  | count =>
    have few : occurrences s receiver (args.headD .nil) < 2 ^ 63 :=
      Nat.lt_of_le_of_lt (Array.countP_le_size ..) (fits receiver)
    rw [run?, signed?_eq few]
    rfl
  | index =>
    rw [run?, run]
    simp only [Eval.runIn_bind, Eval.runIn_read]
    cases found : position? s receiver (args.headD .nil) with
    | none => rfl
    | some position =>
      have inside : position < 2 ^ 63 :=
        Nat.lt_trans (Array.findIdx?_eq_some_iff_findIdx_eq.mp found).1 (fits receiver)
      dsimp only
      rw [signed?_eq inside]
      rfl
  | pop =>
    rw [run?, run]
    simp only [Eval.runIn_bind, Eval.runIn_read]
    rcases wordArg_cases pop args with ⟨fault, given, read⟩ | ⟨word, given, read⟩
    · rw [given, read]
      rfl
    rw [given, read]
    dsimp only
    rw [popPosition?_eq (fits receiver)]
    cases found : popPosition (s.members receiver).size (word.map Int64.toInt) with
    | error fault => simp [Eval.ofExcept, found]
    | ok position => simp [Eval.ofExcept, found, remove?, popPosition_lt found]
  | shift =>
    rw [run?, run]
    simp only [Eval.runIn_bind, Eval.runIn_read]
    rcases wordArg_cases shift args with ⟨fault, given, read⟩ | ⟨word, given, read⟩
    · rw [given, read]
      rfl
    rw [given, read]
    dsimp only
    rw [shiftPosition?_eq (fits receiver)]
    rcases found : shiftPosition (s.members receiver).size (word.map Int64.toInt) with
      fault | none | position
    · simp [Eval.ofExcept, found]
    · simp [Eval.ofExcept, found]
    · simp [Eval.ofExcept, found, remove?, shiftPosition_lt found]
  | merge =>
    obtain ⟨size, roomy⟩ := mergedSize?_eq fits receiver (args.headD .nil)
    rw [run?, roomy]
    rfl
  | _ => rfl

end ArrayMethod

namespace Builtin

theorem runOn?_eq {s : Store} (fits : s.Fits) (line : Nat) (arg : Value)
    (short : ∀ t, arg = .str t → t.length < 2 ^ 63) (builtin : Builtin) :
    builtin.runOn? line s arg = some ((builtin.runOn line arg).runIn s) := by
  fun_cases runOn? line s arg builtin with
  | case1 t =>
    rw [signed?_eq (short t rfl)]
    rfl
  | case2 id =>
    rw [signed?_eq (fits id)]
    rfl
  | case3 => rfl

theorem run?_eq {s : Store} (fits : s.Fits) (line : Nat) (args : List Value)
    (short : ∀ t, .str t ∈ args → t.length < 2 ^ 63) (builtin : Builtin) :
    builtin.run? line s args = some ((builtin.run line args).runIn s) := by
  cases builtin with
  | puts => rfl
  | _ =>
    rw [run?]
    · cases args with
      | nil => rfl
      | cons arg rest =>
        cases rest with
        | nil =>
          rw [if_pos List.length_singleton, List.getElem?_cons_zero, Option.bind_eq_bind,
            Option.bind_some]
          exact runOn?_eq fits line arg (fun t same => short t (by simp [same])) _
        | cons => rfl
    · simp

end Builtin

end MonkeyLang
