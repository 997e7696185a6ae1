import MonkeyLang.Fault

namespace MonkeyLang

abbrev Eval := ExceptT RuntimeError (StateM Store)

namespace Eval

def fail {α : Type} (line : Nat) (fault : Fault) : Eval α := throw ⟨fault, line⟩

def ofExcept {α : Type} (line : Nat) : Except Fault α → Eval α
  | .ok a => pure a
  | .error fault => fail line fault

def read {α : Type} (f : Store → α) : Eval α := return f (← get)

def change (f : Store → Store) : Eval Unit := modify f

def update {α : Type} (f : Store → α × Store) : Eval α := modifyGet f

def runIn {α : Type} (computation : Eval α) (s : Store) : Except RuntimeError α × Store :=
  computation.run.run s

def newArray (members : Array Value) : Eval Value :=
  return .array (← update (·.alloc members))

end Eval

/-- How the body of a function is evaluated, in the frame made for the call. -/
abbrev Enter := Closure → FrameId → Eval Value

namespace Closure

def bindParams (c : Closure) (frame : FrameId) : List (Nat × Value) → Eval Unit
  | [] => pure ()
  | (index, value) :: rest =>
    match c.params[index]? with
    | none => Eval.fail 0 (.undeclaredParameter index c.arity)
    | some name => do
      Eval.change (·.define frame name value)
      bindParams c frame rest

def invoke (enter : Enter) (c : Closure) (scope : FrameId) (bound : List (Nat × Value)) :
    Eval Value := do
  let frame ← Eval.update (·.child scope)
  c.bindParams frame bound
  let result ← enter c frame
  return result.unwrap

def numbered (args : List Value) : List (Nat × Value) :=
  args.zipIdx.map fun (value, index) => (index, value)

def call (enter : Enter) (line : Nat) (c : Closure) (args : List Value) : Eval Value :=
  if args.length = c.arity then c.invoke enter c.scope (numbered args)
  else Eval.fail line (.argumentCount (.exactly c.arity) args.length)

end Closure

end MonkeyLang
