import MonkeyLang.Eval.Monad
import MonkeyLang.Eval.Operators

/-!
The methods of arrays. The functions given to `filter`, `map` and `reduce` run in new frames
inside the scope of the call, on the members that the array had when the method started.
-/

namespace MonkeyLang

inductive ArrayMethod
  | len | empty | first | last | tail
  | count | includes | index
  | push | unshift | pop | shift
  | merge | filter | map | reduce
deriving DecidableEq

namespace ArrayMethod

def ofName? : String → Option ArrayMethod
  | "len" => some len
  | "empty" => some empty
  | "first" | "head" => some first
  | "last" => some last
  | "tail" | "rest" => some tail
  | "count" => some count
  | "includes" => some includes
  | "index" => some index
  | "push" => some push
  | "unshift" => some unshift
  | "pop" => some pop
  | "shift" => some shift
  | "merge" => some merge
  | "filter" | "grep" => some filter
  | "map" => some map
  | "reduce" => some reduce
  | _ => none

def name : ArrayMethod → String
  | len => "len"
  | empty => "empty"
  | first => "first"
  | last => "last"
  | tail => "tail"
  | count => "count"
  | includes => "includes"
  | index => "index"
  | push => "push"
  | unshift => "unshift"
  | pop => "pop"
  | shift => "shift"
  | merge => "merge"
  | filter => "filter"
  | map => "map"
  | reduce => "reduce"

def arity : ArrayMethod → Arity
  | len | empty | first | last | tail => .exactly 0
  | count | includes | index | push | unshift | merge | filter | map => .exactly 1
  | pop | shift => .either 0 1
  | reduce => .either 1 2

def popPosition (size : Nat) : Option Int → Except Fault Nat
  | none => if size = 0 then .error (.indexOutOfRange (-1)) else .ok (size - 1)
  | some i =>
    let position := fromEnd i size
    if 0 ≤ position ∧ position < size then .ok position.toNat
    else .error (.indexOutOfRange position)

/-- The place of the member that `shift` removes, if it removes one. Its index is not counted
    from the end. -/
def shiftPosition (size : Nat) : Option Int → Except Fault (Option Nat)
  | none => .ok (if size = 0 then none else some 0)
  | some i => if 0 ≤ i ∧ i < size then .ok (some i.toNat) else .error (.indexOutOfRange i)

def position? (s : Store) (id : ArrayId) (needle : Value) : Option Nat :=
  (s.members id).findIdx? fun member => s.valuesEqual member needle

def occurrences (s : Store) (id : ArrayId) (needle : Value) : Nat :=
  (s.members id).countP fun member => s.valuesEqual member needle

def isMember (s : Store) (id : ArrayId) (needle : Value) : Bool :=
  (s.members id).any fun member => s.valuesEqual member needle

def remove (s : Store) (id : ArrayId) (position : Nat) : Value × Store :=
  ((s.members id).getD position .nil, s.modify id fun members =>
    if position + 1 = members.size then members.pop else members.eraseIdxIfInBounds position)

def integerArg (method : ArrayMethod) : List Value → Except Fault (Option Int)
  | [] => .ok none
  | .int n :: _ => .ok (some n.toInt)
  | other :: _ => .error (.argumentKind method.name .integer other.typeName)

def describeCallback : Value → String
  | .closure c => s!"function of {c.arity} parameter(s)"
  | value => value.typeName

def callbackArg (method : ArrayMethod) (params : Nat) (arg : Value) : Except Fault Closure :=
  let mismatch := Except.error (.argumentKind method.name (.callback params) (describeCallback arg))
  match arg with
  | .closure c => if c.arity = params then .ok c else mismatch
  | _ => mismatch

def filterCalls (call : Value → Eval Value) : List Value → Eval (List Value)
  | [] => pure []
  | member :: rest => do
    let kept ← call member
    let others ← filterCalls call rest
    return if kept.truthy then member :: others else others

def mapCalls (call : Value → Eval Value) : List Value → Eval (List Value)
  | [] => pure []
  | member :: rest => do
    let result ← call member
    let others ← mapCalls call rest
    return result :: others

def foldCalls (call : Value → Value → Eval Value) (acc : Value) : List Value → Eval Value
  | [] => pure acc
  | member :: rest => do
    let acc ← call acc member
    foldCalls call acc rest

def run (enter : Enter) (line : Nat) (scope : FrameId) (receiver : ArrayId) (args : List Value)
    (method : ArrayMethod) : Eval Value := do
  let arg := args.headD .nil
  let members ← Eval.read (·.members receiver)
  match method with
  | len => return .int (Int64.ofNat members.size)
  | empty => return .bool members.isEmpty
  | first => return members.getD 0 .nil
  | last => return members.back?.getD .nil
  | tail => if members.isEmpty then return .nil else Eval.newArray (members.extract 1 members.size)
  | count => return .int (Int64.ofNat (← Eval.read (occurrences · receiver arg)))
  | includes => return .bool (← Eval.read (isMember · receiver arg))
  | index =>
    match ← Eval.read (position? · receiver arg) with
    | some position => return .int (Int64.ofNat position)
    | none => return .nil
  | push =>
    Eval.change (·.modify receiver (·.push arg))
    return .array receiver
  | unshift =>
    Eval.change (·.modify receiver (#[arg] ++ ·))
    return .array receiver
  | pop =>
    let index ← Eval.ofExcept line (method.integerArg args)
    let position ← Eval.ofExcept line (popPosition members.size index)
    Eval.update (remove · receiver position)
  | shift =>
    let index ← Eval.ofExcept line (method.integerArg args)
    match ← Eval.ofExcept line (shiftPosition members.size index) with
    | some position => Eval.update (remove · receiver position)
    | none => return .nil
  | merge =>
    match arg with
    | .array other => Eval.newArray (members ++ (← Eval.read (·.members other)))
    | _ => Eval.fail line (.argumentKind method.name .array arg.typeName)
  | filter =>
    let block ← Eval.ofExcept line (method.callbackArg 1 arg)
    let kept ← filterCalls (fun member => block.invoke enter scope [(0, member)]) members.toList
    Eval.newArray kept.toArray
  | map =>
    let block ← Eval.ofExcept line (method.callbackArg 1 arg)
    let results ← mapCalls (fun member => block.invoke enter scope [(0, member)]) members.toList
    Eval.newArray results.toArray
  | reduce =>
    let block ← Eval.ofExcept line (method.callbackArg 2 arg)
    let call acc member := block.invoke enter scope [(0, acc), (1, member)]
    match args.drop 1, members.toList with
    | seed :: _, members => foldCalls call seed members
    | [], seed :: rest => foldCalls call seed rest
    | [], [] => return .nil

def dispatch (enter : Enter) (line : Nat) (scope : FrameId) (name : String) (receiver : ArrayId)
    (args : List Value) : Eval Value :=
  match ofName? name with
  | none => Eval.fail line (.noMethod name "array")
  | some method =>
    if method.arity.accepts args.length then method.run enter line scope receiver args
    else Eval.fail line (.argumentCount method.arity args.length)

end ArrayMethod

end MonkeyLang
