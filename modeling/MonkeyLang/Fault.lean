import MonkeyLang.Value.Codec

namespace MonkeyLang

inductive Arity
  | exactly (count : Nat)
  | either (few many : Nat)
deriving DecidableEq

namespace Arity

def accepts : Arity → Nat → Bool
  | exactly n, count => count = n
  | either few many, count => count = few || count = many

def text : Arity → String
  | exactly n => toString n
  | either few many => s!"{few}|{many}"

end Arity

inductive Expectation
  | integer | string | array | stringOrArray
  | callback (params : Nat)
deriving DecidableEq

def Expectation.text : Expectation → String
  | integer => "integer"
  | string => "string"
  | array => "array"
  | stringOrArray => "string or array"
  | callback 1 => "function of one parameter"
  | callback _ => "function of two parameters"

inductive TypeFault
  | operands (op : StrictOp) (left right : String)
  | negation (operand : String)
  | position (found : String)
  | target (found : String)
deriving DecidableEq

def TypeFault.text : TypeFault → String
  | operands op left right => s!"{left} {op.spelling} {right}"
  | negation operand => s!"cannot negate {operand}"
  | position found => s!"array index must be integer, got {found}"
  | target found => s!"cannot index {found}"

inductive Fault
  | argumentCount (expected : Arity) (got : Nat)
  | argumentKind (callee : String) (expected : Expectation) (got : String)
  | indexOutOfRange (index : Int)
  | noMethod (name typeName : String)
  | undefinedVariable (name : String)
  | notCallable (typeName : String)
  | wrongType (fault : TypeFault)
  | divisionByZero
  | stackOverflow
  | encode (fault : EncodeFault)
  | decode (fault : DecodeFault)
  /-- A function was entered with a value for a parameter that it does not have. No program does
      so. -/
  | undeclaredParameter (index declared : Nat)

def Fault.message : Fault → String
  | argumentCount expected got =>
    s!"ArgumentError: wrong number of arguments (expected {expected.text}, got {got})"
  | argumentKind callee expected got =>
    s!"ParamTypeError: first argument of `{callee}` should be {expected.text}, got {got}"
  | indexOutOfRange index => s!"IndexError: index {index} out of range"
  | noMethod name typeName => s!"NoMethodError: undefined method `{name}` for {typeName}"
  | undefinedVariable name => s!"undefined variable: {name}"
  | notCallable typeName => s!"value of type {typeName} is not callable"
  | wrongType fault => s!"type error: {fault.text}"
  | divisionByZero => "division by zero"
  | stackOverflow => "stack overflow: too deep recursion"
  | encode fault => s!"cannot serialize: {fault.message}"
  | decode fault => s!"cannot deserialize: {fault.message}"
  | undeclaredParameter index declared =>
    s!"closure parameter {index} bound, but only {declared} declared"

/-- A fault and the line of the expression that raised it; line 0 where there is no source. -/
structure RuntimeError where
  fault : Fault
  line : Nat

def RuntimeError.describe (e : RuntimeError) : String := s!"line {e.line}: {e.fault.message}"

end MonkeyLang
