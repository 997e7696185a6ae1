import MonkeyLang.Eval.ArrayMethod
import MonkeyLang.Eval.Builtin

/-!
Evaluation. It goes down the syntax of a body; at a call it goes on in the body of the function,
and the number of bodies that may still be entered goes down by one. So it always ends.
-/

namespace MonkeyLang

def Store.builtin? (s : Store) (frame : FrameId) : Expr → Option Builtin
  | .var _ name => if s.contains frame name then none else Builtin.ofName? name
  | _ => none

mutual

/-- The value of an expression in a frame. Bodies of functions are evaluated by `enter`, and
    errors get their lines from the table of the source text that the expression stands in. -/
def Expr.eval (enter : Enter) (lines : LineIndex) (frame : FrameId) : Expr → Eval Value
  | .int _ n => return .int n
  | .uint _ n => return .uint n
  | .float _ x => return .float x
  | .str _ s => return .str s
  | .bool _ b => return .bool b
  | .nil _ => return .nil
  | .var span name => do
    match ← Eval.read (·.get? frame name) with
    | some value => return value
    | none => Eval.fail (lines.lineOf span.start) (.undefinedVariable name)
  | .array _ members => do
    Eval.newArray (← evalArgs enter lines frame members).toArray
  | .binary span op left right => do
    let a ← left.eval enter lines frame
    match op with
    | .logic .and => if a.truthy then right.eval enter lines frame else return a
    | .logic .or => if a.truthy then return a else right.eval enter lines frame
    | .strict op =>
      let b ← right.eval enter lines frame
      Eval.ofExcept (lines.lineOf span.start) (← Eval.read (op.apply · a b))
  | .unary span op operand => do
    let a ← operand.eval enter lines frame
    Eval.ofExcept (lines.lineOf span.start) (op.apply a)
  | .cond _ test consequence alternative => do
    if (← test.eval enter lines frame).truthy then consequence.eval enter lines frame
    else match alternative with
      | some other => other.eval enter lines frame
      | none => return .nil
  | .block _ body => evalBody enter lines frame body
  | .function _ params body => do
    return .closure (← Eval.update (·.close params body frame lines))
  | .call span callee args => do
    match ← Eval.read (·.builtin? frame callee) with
    | some builtin => builtin.run (lines.lineOf span.start) (← evalArgs enter lines frame args)
    | none =>
      let f ← callee.eval enter lines frame
      let values ← evalArgs enter lines frame args
      match f with
      | .closure c => c.call enter (lines.lineOf span.start) values
      | other => Eval.fail (lines.lineOf span.start) (.notCallable other.typeName)
  | .method _ receiver name nameSpan args => do
    let target ← receiver.eval enter lines frame
    let values ← evalArgs enter lines frame args
    match target with
    | .array id => ArrayMethod.dispatch enter (lines.lineOf nameSpan.start) frame name id values
    | other => Eval.fail (lines.lineOf nameSpan.start) (.noMethod name other.typeName)
  | .index span target position => do
    let a ← target.eval enter lines frame
    let b ← position.eval enter lines frame
    Eval.ofExcept (lines.lineOf span.start) (← Eval.read (·.index a b))

/-- The values of arguments or members; a `return` in them gives its value. -/
def evalArgs (enter : Enter) (lines : LineIndex) (frame : FrameId) :
    List Expr → Eval (List Value)
  | [] => return []
  | arg :: rest => do
    let value ← arg.eval enter lines frame
    let values ← evalArgs enter lines frame rest
    return value.unwrap :: values

def Stmt.eval (enter : Enter) (lines : LineIndex) (frame : FrameId) : Stmt → Eval Value
  | .bind _ name e => do
    let value ← e.eval enter lines frame
    if value.isReturned then return value
    Eval.change (·.define frame name value)
    return .nil
  | .result _ none => return .returned .nil
  | .result _ (some e) => do
    let value ← e.eval enter lines frame
    return .returned value.unwrap
  | .expr _ e => e.eval enter lines frame

def evalBody (enter : Enter) (lines : LineIndex) (frame : FrameId) : List Stmt → Eval Value
  | [] => return .nil
  | [last] => last.eval enter lines frame
  | stmt :: rest => do
    let value ← stmt.eval enter lines frame
    if value.isReturned then return value
    evalBody enter lines frame rest

end

def maxDepth : Nat := 10000

/-- Enters a body where `room` further bodies may be open, itself included. -/
def enterWithin : (room : Nat) → Enter
  | 0, c, _ => Eval.fail (c.lines.lineOf c.body.span.start) .stackOverflow
  | room + 1, c, frame => c.body.eval (enterWithin room) c.lines frame

def enterFirst : Enter := enterWithin maxDepth

end MonkeyLang
