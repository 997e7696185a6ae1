import MonkeyLang.Value

/-!
The store: the frames of bindings, the members of the arrays, and what was printed. Handles are
places in it, so an array or a frame is never given up.
-/

namespace MonkeyLang

/-- The bindings of one scope, in the order of their names, and the scope around it. -/
structure Frame where
  bindings : List (String × Value)
  parent : Option FrameId
deriving Inhabited

namespace Frame

def empty (parent : Option FrameId) : Frame := ⟨[], parent⟩

def find? (frame : Frame) (name : String) : Option Value := frame.bindings.lookup name

def binds (frame : Frame) (name : String) : Bool :=
  frame.bindings.any fun binding => binding.1 = name

def insert (name : String) (value : Value) : List (String × Value) → List (String × Value)
  | [] => [(name, value)]
  | (other, old) :: rest =>
    if name = other then (name, value) :: rest
    else if name < other then (name, value) :: (other, old) :: rest
    else (other, old) :: insert name value rest

def define (frame : Frame) (name : String) (value : Value) : Frame :=
  { frame with bindings := insert name value frame.bindings }

end Frame

structure Store where
  frames : Array Frame
  arrays : Array (Array Value)
  /-- The number of function values made so far. -/
  closures : Nat
  /-- What was printed and not yet taken. -/
  output : String
deriving Inhabited

namespace Store

def globals : FrameId := ⟨0⟩

def initial : Store := ⟨#[.empty none], #[], 0, ""⟩

def frame (s : Store) (id : FrameId) : Frame := s.frames.getD id.index (.empty none)

def root (s : Store) : FrameId × Store :=
  (⟨s.frames.size⟩, { s with frames := s.frames.push (.empty none) })

def child (s : Store) (parent : FrameId) : FrameId × Store :=
  (⟨s.frames.size⟩, { s with frames := s.frames.push (.empty (some parent)) })

def define (s : Store) (id : FrameId) (name : String) (value : Value) : Store :=
  { s with frames := s.frames.modify id.index (·.define name value) }

/-- The value of a name in the nearest frame that binds it. A frame lies inside an older one. -/
def get? (s : Store) (id : FrameId) (name : String) : Option Value :=
  match (s.frame id).find? name with
  | some value => some value
  | none =>
    match (s.frame id).parent with
    | some parent => if parent.index < id.index then get? s parent name else none
    | none => none
termination_by id.index

def contains (s : Store) (id : FrameId) (name : String) : Bool :=
  (s.frame id).binds name ||
    match (s.frame id).parent with
    | some parent => if parent.index < id.index then contains s parent name else false
    | none => false
termination_by id.index

def members (s : Store) (id : ArrayId) : Array Value := s.arrays.getD id.index #[]

def alloc (s : Store) (members : Array Value) : ArrayId × Store :=
  (⟨s.arrays.size⟩, { s with arrays := s.arrays.push members })

def modify (s : Store) (id : ArrayId) (f : Array Value → Array Value) : Store :=
  { s with arrays := s.arrays.modify id.index f }

def close (s : Store) (params : List String) (body : Expr) (scope : FrameId)
    (lines : LineIndex) : Closure × Store :=
  (⟨s.closures, params, body, scope, lines⟩, { s with closures := s.closures + 1 })

def print (s : Store) (text : List Char) : Store :=
  { s with output := s.output ++ String.ofList text }

end Store

end MonkeyLang
