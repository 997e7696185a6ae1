import MonkeyLang.Ast
import MonkeyLang.Json

namespace MonkeyLang

def Span.json (s : Span) : Json :=
  .object [("start", .int s.start), ("end", .int s.stop)]

def Json.placed (node : Json) (span : Span) : Json :=
  .object [("node", node), ("span", span.json)]

def Json.tagged (kind : String) (content : Json) : Json :=
  .object [(kind, content)]

def Json.record (kind : String) (parts : List (String × Json)) : Json :=
  .object [(kind, .object parts)]

mutual

def Expr.json : Expr → Json
  | .int span n => .placed (.tagged "IntLit" (.int n.toInt)) span
  | .uint span n => .placed (.tagged "UIntLit" (.int n.toNat)) span
  | .float span x => .placed (.tagged "FloatLit" (.float x)) span
  | .str span s => .placed (.tagged "StringLit" (.str s)) span
  | .bool span b => .placed (.tagged "BoolLit" (.bool b)) span
  | .nil span => .placed (.str "Nil") span
  | .var span name => .placed (.tagged "Var" (.str name)) span
  | .array span members => .placed (.tagged "Array" (.list (exprsJson members))) span
  | .binary span op left right =>
    .placed (.record "Binary"
      [("left", left.json), ("op", .str op.name), ("right", right.json)]) span
  | .unary span op operand =>
    .placed (.record "Unary" [("op", .str op.name), ("expr", operand.json)]) span
  | .cond span test consequence none =>
    .placed (.record "If" [("cond", test.json), ("then_branch", consequence.json),
      ("else_branch", .null)]) span
  | .cond span test consequence (some alternative) =>
    .placed (.record "If" [("cond", test.json), ("then_branch", consequence.json),
      ("else_branch", alternative.json)]) span
  | .block span body => .placed (.tagged "Block" (.list (stmtsJson body))) span
  | .function span params body =>
    .placed (.record "Function" [("params", .list (params.map .str)), ("body", body.json)]) span
  | .call span callee args =>
    .placed (.record "Call" [("callee", callee.json), ("args", .list (exprsJson args))]) span
  | .method span receiver name nameSpan args =>
    .placed (.record "MethodCall" [("receiver", receiver.json),
      ("method", .placed (.str name) nameSpan), ("args", .list (exprsJson args))]) span
  | .index span target position =>
    .placed (.record "Index" [("expr", target.json), ("index", position.json)]) span

def exprsJson : List Expr → List Json
  | [] => []
  | e :: rest => e.json :: exprsJson rest

def Stmt.json : Stmt → Json
  | .bind span name value =>
    .placed (.record "Let" [("name", .str name), ("value", value.json)]) span
  | .result span none => .placed (.tagged "Return" .null) span
  | .result span (some value) => .placed (.tagged "Return" value.json) span
  | .expr span value => .placed (.tagged "Expr" value.json) span

def stmtsJson : List Stmt → List Json
  | [] => []
  | s :: rest => s.json :: stmtsJson rest

end

def Program.json (program : Program) : Json :=
  .object [("stmts", .list (stmtsJson program.body))]

end MonkeyLang
