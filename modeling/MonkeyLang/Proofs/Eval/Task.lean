import MonkeyLang.Eval

/-!
The tasks of an evaluation: pieces of syntax, calls and methods. A task starts others on its way,
each in the store that the ones before it left; so the tasks within a program are all that happens
when it runs, store by store.
-/

namespace MonkeyLang

structure Site where
  room : Nat
  lines : LineIndex
  frame : FrameId

inductive Task
  | expr (site : Site) (e : Expr)
  | args (site : Site) (es : List Expr)
  | stmt (site : Site) (item : Stmt)
  | body (site : Site) (items : List Stmt)
  | call (room line : Nat) (c : Closure) (values : List Value)
  | invoke (room : Nat) (c : Closure) (scope : FrameId) (bound : List (Nat × Value))
  | params (c : Closure) (frame : FrameId) (bound : List (Nat × Value))
  | method (room line : Nat) (scope : FrameId) (name : String) (receiver : ArrayId)
      (values : List Value)

namespace Task

abbrev Output : Task → Type
  | args .. => List Value
  | params .. => Unit
  | _ => Value

def eval : (task : Task) → Eval task.Output
  | expr site e => e.eval (enterWithin site.room) site.lines site.frame
  | args site es => evalArgs (enterWithin site.room) site.lines site.frame es
  | stmt site item => item.eval (enterWithin site.room) site.lines site.frame
  | body site items => evalBody (enterWithin site.room) site.lines site.frame items
  | call room line c values => c.call (enterWithin room) line values
  | invoke room c scope bound => c.invoke (enterWithin room) scope bound
  | params c frame bound => c.bindParams frame bound
  | method room line scope name receiver values =>
    ArrayMethod.dispatch (enterWithin room) line scope name receiver values

def Ends (task : Task) (s : Store) (output : task.Output) (t : Store) : Prop :=
  task.eval.runIn s = (.ok output, t)

def needsRight (a : Value) : BinOp → Bool
  | .strict _ => true
  | .logic .and => a.truthy
  | .logic .or => !a.truthy

/-- The value that `reduce` starts from, and the members that it visits. -/
def folded? (values members : List Value) : Option (Value × List Value) :=
  match values.drop 1, members with
  | seed :: _, members => some (seed, members)
  | [], seed :: rest => some (seed, rest)
  | [], [] => none

/-- `Starts task s part t`: on its way from the store `s` the task starts the part, in the store
    `t`. -/
inductive Starts : Task → Store → Task → Store → Prop
  | members {site : Site} {span : Span} {s : Store} {es : List Expr} :
      Starts (expr site (.array span es)) s (args site es) s
  | left {site : Site} {span : Span} {s : Store} {op : BinOp} {left right : Expr} :
      Starts (expr site (.binary span op left right)) s (expr site left) s
  | right {site : Site} {span : Span} {s t : Store} {op : BinOp} {left right : Expr} {a : Value}
      (before : (expr site left).Ends s a t) (needed : needsRight a op = true) :
      Starts (expr site (.binary span op left right)) s (expr site right) t
  | operand {site : Site} {span : Span} {s : Store} {op : UnOp} {operand : Expr} :
      Starts (expr site (.unary span op operand)) s (expr site operand) s
  | test {site : Site} {span : Span} {s : Store} {test consequence : Expr}
      {alternative : Option Expr} :
      Starts (expr site (.cond span test consequence alternative)) s (expr site test) s
  | consequence {site : Site} {span : Span} {s t : Store} {test consequence : Expr}
      {alternative : Option Expr} {a : Value} (before : (expr site test).Ends s a t)
      (holds : a.truthy = true) :
      Starts (expr site (.cond span test consequence alternative)) s (expr site consequence) t
  | alternative {site : Site} {span : Span} {s t : Store} {test consequence alternative : Expr}
      {a : Value} (before : (expr site test).Ends s a t) (fails : a.truthy = false) :
      Starts (expr site (.cond span test consequence (some alternative))) s
        (expr site alternative) t
  | block {site : Site} {span : Span} {s : Store} {items : List Stmt} :
      Starts (expr site (.block span items)) s (body site items) s
  | builtinArgs {site : Site} {span : Span} {s : Store} {callee : Expr} {es : List Expr}
      {builtin : Builtin} (found : s.builtin? site.frame callee = some builtin) :
      Starts (expr site (.call span callee es)) s (args site es) s
  | callee {site : Site} {span : Span} {s : Store} {callee : Expr} {es : List Expr}
      (other : s.builtin? site.frame callee = none) :
      Starts (expr site (.call span callee es)) s (expr site callee) s
  | callArgs {site : Site} {span : Span} {s t : Store} {callee : Expr} {es : List Expr}
      {f : Value} (other : s.builtin? site.frame callee = none)
      (before : (expr site callee).Ends s f t) :
      Starts (expr site (.call span callee es)) s (args site es) t
  | call {site : Site} {span : Span} {s t u : Store} {callee : Expr} {es : List Expr}
      {c : Closure} {values : List Value} (other : s.builtin? site.frame callee = none)
      (before : (expr site callee).Ends s (.closure c) t)
      (given : (args site es).Ends t values u) :
      Starts (expr site (.call span callee es)) s
        (call site.room (site.lines.lineOf span.start) c values) u
  | receiver {site : Site} {span nameSpan : Span} {s : Store} {receiver : Expr} {name : String}
      {es : List Expr} :
      Starts (expr site (.method span receiver name nameSpan es)) s (expr site receiver) s
  | methodArgs {site : Site} {span nameSpan : Span} {s t : Store} {receiver : Expr}
      {name : String} {es : List Expr} {target : Value}
      (before : (expr site receiver).Ends s target t) :
      Starts (expr site (.method span receiver name nameSpan es)) s (args site es) t
  | method {site : Site} {span nameSpan : Span} {s t u : Store} {receiver : Expr}
      {name : String} {es : List Expr} {id : ArrayId} {values : List Value}
      (before : (expr site receiver).Ends s (.array id) t)
      (given : (args site es).Ends t values u) :
      Starts (expr site (.method span receiver name nameSpan es)) s
        (method site.room (site.lines.lineOf nameSpan.start) site.frame name id values) u
  | target {site : Site} {span : Span} {s : Store} {target position : Expr} :
      Starts (expr site (.index span target position)) s (expr site target) s
  | position {site : Site} {span : Span} {s t : Store} {target position : Expr} {a : Value}
      (before : (expr site target).Ends s a t) :
      Starts (expr site (.index span target position)) s (expr site position) t
  | firstArg {site : Site} {s : Store} {e : Expr} {rest : List Expr} :
      Starts (args site (e :: rest)) s (expr site e) s
  | laterArgs {site : Site} {s t : Store} {e : Expr} {rest : List Expr} {v : Value}
      (before : (expr site e).Ends s v t) :
      Starts (args site (e :: rest)) s (args site rest) t
  | bound {site : Site} {span : Span} {s : Store} {name : String} {e : Expr} :
      Starts (stmt site (.bind span name e)) s (expr site e) s
  | returned {site : Site} {span : Span} {s : Store} {e : Expr} :
      Starts (stmt site (.result span (some e))) s (expr site e) s
  | alone {site : Site} {span : Span} {s : Store} {e : Expr} :
      Starts (stmt site (.expr span e)) s (expr site e) s
  | firstStmt {site : Site} {s : Store} {first : Stmt} {rest : List Stmt} :
      Starts (body site (first :: rest)) s (stmt site first) s
  | laterStmts {site : Site} {s t : Store} {first next : Stmt} {rest : List Stmt} {v : Value}
      (before : (stmt site first).Ends s v t) (goesOn : v.isReturned = false) :
      Starts (body site (first :: next :: rest)) s (body site (next :: rest)) t
  | invoked {room line : Nat} {s : Store} {c : Closure} {values : List Value}
      (enough : values.length = c.arity) :
      Starts (call room line c values) s (invoke room c c.scope (Closure.numbered values)) s
  | params {room : Nat} {s : Store} {c : Closure} {scope : FrameId}
      {bound : List (Nat × Value)} :
      Starts (invoke room c scope bound) s (params c (s.child scope).1 bound) (s.child scope).2
  | laterParams {s : Store} {c : Closure} {frame : FrameId} {index : Nat} {v : Value}
      {rest : List (Nat × Value)} {name : String} (declared : c.params[index]? = some name) :
      Starts (params c frame ((index, v) :: rest)) s (params c frame rest)
        (s.define frame name v)
  | entered {room : Nat} {s t : Store} {c : Closure} {scope : FrameId}
      {bound : List (Nat × Value)}
      (before : (params c (s.child scope).1 bound).Ends (s.child scope).2 () t) :
      Starts (invoke (room + 1) c scope bound) s
        (expr ⟨room, c.lines, (s.child scope).1⟩ c.body) t
  | filtered {room line : Nat} {s t : Store} {scope : FrameId} {name : String} {id : ArrayId}
      {values before after kept : List Value} {block : Closure} {member : Value}
      (named : ArrayMethod.ofName? name = some .filter) (enough : values.length = 1)
      (given : ArrayMethod.filter.callbackArg 1 (values.headD .nil) = .ok block)
      (split : (s.members id).toList = before ++ member :: after)
      (ran : (ArrayMethod.filterCalls (fun v => (invoke room block scope [(0, v)]).eval)
        before).runIn s = (.ok kept, t)) :
      Starts (method room line scope name id values) s (invoke room block scope [(0, member)]) t
  | mapped {room line : Nat} {s t : Store} {scope : FrameId} {name : String} {id : ArrayId}
      {values before after results : List Value} {block : Closure} {member : Value}
      (named : ArrayMethod.ofName? name = some .map) (enough : values.length = 1)
      (given : ArrayMethod.map.callbackArg 1 (values.headD .nil) = .ok block)
      (split : (s.members id).toList = before ++ member :: after)
      (ran : (ArrayMethod.mapCalls (fun v => (invoke room block scope [(0, v)]).eval)
        before).runIn s = (.ok results, t)) :
      Starts (method room line scope name id values) s (invoke room block scope [(0, member)]) t
  | reduced {room line : Nat} {s t : Store} {scope : FrameId} {name : String} {id : ArrayId}
      {values visited before after : List Value} {block : Closure} {seed member acc : Value}
      (named : ArrayMethod.ofName? name = some .reduce)
      (enough : values.length = 1 ∨ values.length = 2)
      (given : ArrayMethod.reduce.callbackArg 2 (values.headD .nil) = .ok block)
      (seeded : folded? values (s.members id).toList = some (seed, visited))
      (split : visited = before ++ member :: after)
      (ran : (ArrayMethod.foldCalls
        (fun acc v => (invoke room block scope [(0, acc), (1, v)]).eval) seed before).runIn s =
          (.ok acc, t)) :
      Starts (method room line scope name id values) s
        (invoke room block scope [(0, acc), (1, member)]) t

/-- The task itself, in its own store, and all that it starts, directly or by way of others. -/
inductive Within (task : Task) (s : Store) : Task → Store → Prop
  | self : Within task s task s
  | part {middle part : Task} {t u : Store} (outer : Within task s middle t)
      (starts : middle.Starts t part u) : Within task s part u

end Task

end MonkeyLang
