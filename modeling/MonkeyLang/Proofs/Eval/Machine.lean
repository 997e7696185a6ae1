import MonkeyLang.Eval

/-!
A machine that runs programs step by step. It has no bound of its own: what is left to do is on a
stack, a call puts the body of the function on it, whatever its size, and the number of open bodies
and the current table of lines are registers that are set when a body is opened and set back when it
is left, with a value or an error.
-/

namespace MonkeyLang

namespace Machine

inductive Use
  | members
  | builtin (line : Nat) (builtin : Builtin)
  | call (line : Nat) (callee : Value)
  | method (name : String) (nameSpan : Span) (receiver : Value) (frame : FrameId)

/-- What `filter`, `map` and `reduce` have so far; lists are in reverse order. -/
inductive Gathered
  | kept (members : List Value)
  | results (values : List Value)
  | folded (acc : Value)

structure Loop where
  block : Closure
  scope : FrameId
  gathered : Gathered
  members : List Value

namespace Gathered

def bound (member : Value) : Gathered → List (Nat × Value)
  | folded acc => [(0, acc), (1, member)]
  | _ => [(0, member)]

def add (member result : Value) : Gathered → Gathered
  | kept members => kept (if result.truthy then member :: members else members)
  | results values => results (result :: values)
  | folded _ => folded result

def finish : Gathered → Eval Value
  | kept members => Eval.newArray members.reverse.toArray
  | results values => Eval.newArray values.reverse.toArray
  | folded acc => return acc

end Gathered

inductive Pending
  | right (line : Nat) (op : BinOp) (right : Expr) (frame : FrameId)
  | strict (line : Nat) (op : StrictOp) (left : Value)
  | unary (line : Nat) (op : UnOp)
  | branch (consequence : Expr) (alternative : Option Expr) (frame : FrameId)
  | arg (use : Use) (values : List Value) (rest : List Expr) (frame : FrameId)
  | callee (line : Nat) (args : List Expr) (frame : FrameId)
  | receiver (name : String) (nameSpan : Span) (args : List Expr) (frame : FrameId)
  | position (line : Nat) (position : Expr) (frame : FrameId)
  | index (line : Nat) (target : Value)
  | bind (name : String) (frame : FrameId)
  | result
  | body (next : Stmt) (rest : List Stmt) (frame : FrameId)
  | loop (loop : Loop) (member : Value)
  /-- The end of a body; `lines` is the table of the caller. -/
  | leave (lines : LineIndex)

inductive Control
  | expr (e : Expr) (frame : FrameId)
  /-- Values in reverse order are there, expressions are left. -/
  | args (use : Use) (values : List Value) (rest : List Expr) (frame : FrameId)
  | stmt (item : Stmt) (frame : FrameId)
  | body (items : List Stmt) (frame : FrameId)
  | call (line : Nat) (c : Closure) (values : List Value)
  | invoke (c : Closure) (scope : FrameId) (bound : List (Nat × Value))
  | enter (c : Closure) (frame : FrameId)
  | loop (loop : Loop)
  | done (result : Except RuntimeError Value)

end Machine

structure Machine where
  store : Store
  lines : LineIndex
  /-- The number of open bodies. -/
  depth : Nat
  pending : List Machine.Pending
  control : Machine.Control

namespace Machine

def goto (m : Machine) (control : Control) : Machine := { m with control }

def wait (m : Machine) (pending : Pending) (control : Control) : Machine :=
  { m with pending := pending :: m.pending, control }

def finish (m : Machine) (computation : Eval Value) : Machine :=
  { m with
    store := (computation.runIn m.store).2
    control := .done (computation.runIn m.store).1 }

def lineOf (m : Machine) (span : Span) : Nat := m.lines.lineOf span.start

def noCalls : Enter := fun _ _ => return .nil

def startLoop (m : Machine) (line : Nat) (scope : FrameId) (block : Except Fault Closure)
    (gathered : Gathered) (members : List Value) : Machine :=
  match block with
  | .ok block => m.goto (.loop ⟨block, scope, gathered, members⟩)
  | .error fault => m.finish (Eval.fail line fault)

def runMethod (m : Machine) (line : Nat) (scope : FrameId) (receiver : ArrayId)
    (values : List Value) (method : ArrayMethod) : Machine :=
  let arg := values.headD .nil
  let members := (m.store.members receiver).toList
  match method with
  | .filter => m.startLoop line scope (method.callbackArg 1 arg) (.kept []) members
  | .map => m.startLoop line scope (method.callbackArg 1 arg) (.results []) members
  | .reduce =>
    match values.drop 1, members with
    | seed :: _, members => m.startLoop line scope (method.callbackArg 2 arg) (.folded seed) members
    | [], seed :: rest => m.startLoop line scope (method.callbackArg 2 arg) (.folded seed) rest
    | [], [] => m.startLoop line scope (method.callbackArg 2 arg) (.folded .nil) []
  | _ => m.finish (method.run noCalls line scope receiver values)

def dispatch (m : Machine) (line : Nat) (scope : FrameId) (name : String) (receiver : ArrayId)
    (values : List Value) : Machine :=
  match ArrayMethod.ofName? name with
  | none => m.finish (Eval.fail line (.noMethod name "array"))
  | some method =>
    if method.arity.accepts values.length then m.runMethod line scope receiver values method
    else m.finish (Eval.fail line (.argumentCount method.arity values.length))

def apply (m : Machine) (values : List Value) : Use → Machine
  | .members => m.finish (Eval.newArray values.toArray)
  | .builtin line builtin => m.finish (builtin.run line values)
  | .call line callee =>
    match callee with
    | .closure c => m.goto (.call line c values)
    | other => m.finish (Eval.fail line (.notCallable other.typeName))
  | .method name nameSpan receiver frame =>
    match receiver with
    | .array id => m.dispatch (m.lineOf nameSpan) frame name id values
    | other => m.finish (Eval.fail (m.lineOf nameSpan) (.noMethod name other.typeName))

def stepExpr (m : Machine) (frame : FrameId) : Expr → Machine
  | .int _ n => m.goto (.done (.ok (.int n)))
  | .uint _ n => m.goto (.done (.ok (.uint n)))
  | .float _ x => m.goto (.done (.ok (.float x)))
  | .str _ s => m.goto (.done (.ok (.str s)))
  | .bool _ b => m.goto (.done (.ok (.bool b)))
  | .nil _ => m.goto (.done (.ok .nil))
  | .var span name =>
    match m.store.get? frame name with
    | some value => m.goto (.done (.ok value))
    | none => m.finish (Eval.fail (m.lineOf span) (.undefinedVariable name))
  | .array _ members => m.goto (.args .members [] members frame)
  | .binary span op left right => m.wait (.right (m.lineOf span) op right frame) (.expr left frame)
  | .unary span op operand => m.wait (.unary (m.lineOf span) op) (.expr operand frame)
  | .cond _ test consequence alternative =>
    m.wait (.branch consequence alternative frame) (.expr test frame)
  | .block _ items => m.goto (.body items frame)
  | .function _ params body =>
    m.finish (return .closure (← Eval.update (·.close params body frame m.lines)))
  | .call span callee args =>
    match m.store.builtin? frame callee with
    | some builtin => m.goto (.args (.builtin (m.lineOf span) builtin) [] args frame)
    | none => m.wait (.callee (m.lineOf span) args frame) (.expr callee frame)
  | .method _ receiver name nameSpan args =>
    m.wait (.receiver name nameSpan args frame) (.expr receiver frame)
  | .index span target position =>
    m.wait (.position (m.lineOf span) position frame) (.expr target frame)

def stepStmt (m : Machine) (frame : FrameId) : Stmt → Machine
  | .bind _ name e => m.wait (.bind name frame) (.expr e frame)
  | .result _ none => m.goto (.done (.ok (.returned .nil)))
  | .result _ (some e) => m.wait .result (.expr e frame)
  | .expr _ e => m.goto (.expr e frame)

def resume (m : Machine) (v : Value) : Pending → Machine
  | .right line op right frame =>
    match op with
    | .logic .and => if v.truthy then m.goto (.expr right frame) else m.goto (.done (.ok v))
    | .logic .or => if v.truthy then m.goto (.done (.ok v)) else m.goto (.expr right frame)
    | .strict op => m.wait (.strict line op v) (.expr right frame)
  | .strict line op left => m.finish (Eval.ofExcept line (op.apply m.store left v))
  | .unary line op => m.finish (Eval.ofExcept line (op.apply v))
  | .branch consequence alternative frame =>
    if v.truthy then m.goto (.expr consequence frame)
    else match alternative with
      | some other => m.goto (.expr other frame)
      | none => m.goto (.done (.ok .nil))
  | .arg use values rest frame => m.goto (.args use (v.unwrap :: values) rest frame)
  | .callee line args frame => m.goto (.args (.call line v) [] args frame)
  | .receiver name nameSpan args frame =>
    m.goto (.args (.method name nameSpan v frame) [] args frame)
  | .position line position frame => m.wait (.index line v) (.expr position frame)
  | .index line target => m.finish (Eval.ofExcept line (m.store.index target v))
  | .bind name frame =>
    if v.isReturned then m.goto (.done (.ok v))
    else { m with store := m.store.define frame name v, control := .done (.ok .nil) }
  | .result => m.goto (.done (.ok (.returned v.unwrap)))
  | .body next rest frame =>
    if v.isReturned then m.goto (.done (.ok v)) else m.goto (.body (next :: rest) frame)
  | .loop loop member => m.goto (.loop { loop with gathered := loop.gathered.add member v })
  | .leave lines => { m with lines, depth := m.depth - 1, control := .done (.ok v.unwrap) }

def unwind (m : Machine) : Pending → Machine
  | .leave lines => { m with lines, depth := m.depth - 1 }
  | _ => m

def bindAll? (c : Closure) (frame : FrameId) : List (Nat × Value) → Store → Option Store
  | [], s => some s
  | (index, value) :: rest, s =>
    match c.params[index]? with
    | none => none
    | some name => bindAll? c frame rest (s.define frame name value)

/-- One step. There is none from an end, and none where a parameter would be bound that is not
    declared. -/
def step (m : Machine) : Option Machine :=
  match m.control with
  | .expr e frame => some (m.stepExpr frame e)
  | .args use values [] _ => some (m.apply values.reverse use)
  | .args use values (e :: rest) frame => some (m.wait (.arg use values rest frame) (.expr e frame))
  | .stmt item frame => some (m.stepStmt frame item)
  | .body [] _ => some (m.goto (.done (.ok .nil)))
  | .body [last] frame => some (m.goto (.stmt last frame))
  | .body (item :: next :: rest) frame => some (m.wait (.body next rest frame) (.stmt item frame))
  | .call line c values =>
    if values.length = c.arity then some (m.goto (.invoke c c.scope (Closure.numbered values)))
    else some (m.finish (Eval.fail line (.argumentCount (.exactly c.arity) values.length)))
  | .invoke c scope bound =>
    let (frame, inner) := m.store.child scope
    (bindAll? c frame bound inner).map fun store => { m with store, control := .enter c frame }
  | .enter c frame =>
    if maxDepth < m.depth + 1 then
      some (m.finish (Eval.fail (c.lines.lineOf c.body.span.start) .stackOverflow))
    else
      some { m with
        lines := c.lines
        depth := m.depth + 1
        pending := .leave m.lines :: m.pending
        control := .expr c.body frame }
  | .loop ⟨_, _, gathered, []⟩ => some (m.finish gathered.finish)
  | .loop ⟨block, scope, gathered, member :: rest⟩ =>
    some (m.wait (.loop ⟨block, scope, gathered, rest⟩ member)
      (.invoke block scope (gathered.bound member)))
  | .done result =>
    match m.pending with
    | [] => none
    | pending :: rest =>
      match result with
      | .ok v => some ({ m with pending := rest }.resume v pending)
      | .error _ => some ({ m with pending := rest }.unwind pending)

def after : Nat → Machine → Option Machine
  | 0, m => some m
  | n + 1, m => m.step.bind (after n)

end Machine

end MonkeyLang
