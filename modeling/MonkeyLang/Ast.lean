import MonkeyLang.Span

namespace MonkeyLang

inductive StrictOp
  | add | sub | mul | div | mod
  | eq | ne | lt | gt | le | ge
deriving DecidableEq, Inhabited

inductive LogicOp
  | and | or
deriving DecidableEq, Inhabited

inductive BinOp
  | strict (op : StrictOp)
  | logic (op : LogicOp)
deriving DecidableEq, Inhabited

inductive UnOp
  | neg | not
deriving DecidableEq, Inhabited

namespace StrictOp

def spelling : StrictOp → String
  | add => "+"
  | sub => "-"
  | mul => "*"
  | div => "/"
  | mod => "%"
  | eq => "=="
  | ne => "!="
  | lt => "<"
  | gt => ">"
  | le => "<="
  | ge => ">="

def name : StrictOp → String
  | add => "Add"
  | sub => "Sub"
  | mul => "Mul"
  | div => "Div"
  | mod => "Mod"
  | eq => "Eq"
  | ne => "Ne"
  | lt => "Lt"
  | gt => "Gt"
  | le => "Le"
  | ge => "Ge"

end StrictOp

def LogicOp.name : LogicOp → String
  | and => "And"
  | or => "Or"

def BinOp.name : BinOp → String
  | strict op => op.name
  | logic op => op.name

def UnOp.name : UnOp → String
  | neg => "Neg"
  | not => "Not"

mutual

inductive Expr
  | int (span : Span) (value : Int64)
  | uint (span : Span) (value : UInt64)
  | float (span : Span) (value : Float)
  | str (span : Span) (value : String)
  | bool (span : Span) (value : Bool)
  | nil (span : Span)
  | var (span : Span) (name : String)
  | array (span : Span) (members : List Expr)
  | binary (span : Span) (op : BinOp) (left right : Expr)
  | unary (span : Span) (op : UnOp) (operand : Expr)
  /-- A conditional; without an alternative it is `nil` when the condition fails. -/
  | cond (span : Span) (test consequence : Expr) (alternative : Option Expr)
  | block (span : Span) (body : List Stmt)
  | function (span : Span) (params : List String) (body : Expr)
  | call (span : Span) (callee : Expr) (args : List Expr)
  | method (span : Span) (receiver : Expr) (name : String) (nameSpan : Span) (args : List Expr)
  | index (span : Span) (target position : Expr)

inductive Stmt
  | bind (span : Span) (name : String) (value : Expr)
  | result (span : Span) (value : Option Expr)
  | expr (span : Span) (value : Expr)

end

instance : Inhabited Expr := ⟨.nil default⟩

instance : Inhabited Stmt := ⟨.expr default default⟩

def Expr.span : Expr → Span
  | .int s _ | .uint s _ | .float s _ | .str s _ | .bool s _ | .nil s | .var s _ | .array s _
  | .binary s _ _ _ | .unary s _ _ | .cond s _ _ _ | .block s _ | .function s _ _ | .call s _ _
  | .method s _ _ _ _ | .index s _ _ => s

def Stmt.span : Stmt → Span
  | .bind s _ _ | .result s _ | .expr s _ => s

structure Program where
  body : List Stmt
deriving Inhabited

end MonkeyLang
