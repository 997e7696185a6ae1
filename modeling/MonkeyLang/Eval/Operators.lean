import MonkeyLang.Fault
import MonkeyLang.Number.Remainder
import MonkeyLang.Value.Equality

namespace MonkeyLang

def Value.order? : Value → Value → Option Ordering
  | .int a, .int b => some (compare a b)
  | .uint a, .uint b => some (compare a b)
  | .float a, .float b =>
    if a < b then some .lt else if a == b then some .eq else if b < a then some .gt else none
  | .str a, .str b => some (compare a b)
  | _, _ => none

namespace StrictOp

def arithmetic? : StrictOp → Value → Value → Option (Except Fault Value)
  | add, .int a, .int b => some (.ok (.int (a + b)))
  | add, .uint a, .uint b => some (.ok (.uint (a + b)))
  | add, .float a, .float b => some (.ok (.float (a + b)))
  | add, .str a, .str b => some (.ok (.str (a ++ b)))
  | sub, .int a, .int b => some (.ok (.int (a - b)))
  | sub, .uint a, .uint b => some (.ok (.uint (a - b)))
  | sub, .float a, .float b => some (.ok (.float (a - b)))
  | mul, .int a, .int b => some (.ok (.int (a * b)))
  | mul, .uint a, .uint b => some (.ok (.uint (a * b)))
  | mul, .float a, .float b => some (.ok (.float (a * b)))
  | div, .int a, .int b => some (if b = 0 then .error .divisionByZero else .ok (.int (a / b)))
  | div, .uint a, .uint b => some (if b = 0 then .error .divisionByZero else .ok (.uint (a / b)))
  | div, .float a, .float b => some (.ok (.float (a / b)))
  | mod, .int a, .int b => some (if b = 0 then .error .divisionByZero else .ok (.int (a % b)))
  | mod, .uint a, .uint b => some (if b = 0 then .error .divisionByZero else .ok (.uint (a % b)))
  | mod, .float a, .float b => some (.ok (.float (floatRemainder a b)))
  | _, _, _ => none

def holds : StrictOp → Ordering → Bool
  | lt, order => order = .lt
  | gt, order => order = .gt
  | le, order => order ≠ .gt
  | ge, order => order ≠ .lt
  | _, _ => false

def apply (s : Store) (op : StrictOp) (a b : Value) : Except Fault Value :=
  let mismatch : Fault := .wrongType (.operands op a.typeName b.typeName)
  match op with
  | eq => .ok (.bool (s.valuesEqual a b))
  | ne => .ok (.bool (!s.valuesEqual a b))
  | lt | gt | le | ge =>
    match a.order? b with
    | some order => .ok (.bool (op.holds order))
    | none => .error mismatch
  | add | sub | mul | div | mod =>
    match op.arithmetic? a b with
    | some result => result
    | none => .error mismatch

end StrictOp

def UnOp.apply : UnOp → Value → Except Fault Value
  | .neg, .int n => .ok (.int (-n))
  | .neg, .float x => .ok (.float (-x))
  | .neg, operand => .error (.wrongType (.negation operand.typeName))
  | .not, operand => .ok (.bool (!operand.truthy))

def fromEnd (index : Int) (size : Nat) : Int :=
  if index < 0 then index + size else index

def Store.index (s : Store) : Value → Value → Except Fault Value
  | .array id, .int i =>
    let members := s.members id
    let position := fromEnd i.toInt members.size
    .ok (if position < 0 then .nil else members.getD position.toNat .nil)
  | .array _, position => .error (.wrongType (.position position.typeName))
  | target, _ => .error (.wrongType (.target target.typeName))

end MonkeyLang
