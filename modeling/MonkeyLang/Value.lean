import MonkeyLang.Ast
import MonkeyLang.Lines

/-!
Values. Arrays are shared and mutable: a value holds the handle of an array, and its members are
in the store. A function value holds its own code and the frame that its literal was evaluated in.
-/

namespace MonkeyLang

structure ArrayId where
  index : Nat
deriving DecidableEq, Hashable, Inhabited

structure FrameId where
  index : Nat
deriving DecidableEq, Inhabited

/-- A function value. The `id` tells apart the values that one literal has at different times;
    `lines` belongs to the source text of the literal. -/
structure Closure where
  id : Nat
  params : List String
  body : Expr
  scope : FrameId
  lines : LineIndex
deriving Inhabited

def Closure.arity (c : Closure) : Nat := c.params.length

inductive Value
  | int (n : Int64)
  | uint (n : UInt64)
  | float (x : Float)
  | str (s : String)
  | bool (b : Bool)
  | nil
  | array (id : ArrayId)
  | closure (c : Closure)
  /-- The value of a `return` on its way to the end of the function. -/
  | returned (value : Value)
deriving Inhabited

namespace Value

def truthy : Value → Bool
  | bool b => b
  | nil => false
  | returned value => value.truthy
  | _ => true

def typeName : Value → String
  | int _ => "integer"
  | uint _ => "uinteger"
  | float _ => "float"
  | str _ => "string"
  | bool _ => "boolean"
  | nil => "nil"
  | array _ => "array"
  | closure _ => "function"
  | returned _ => "return"

def isReturned : Value → Bool
  | returned _ => true
  | _ => false

def unwrap : Value → Value
  | returned value => value
  | value => value

end Value

end MonkeyLang
