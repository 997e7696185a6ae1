import MonkeyLang.Json.Reader
import MonkeyLang.Value.Unfolding

/-!
Arrays as JSON text and back. An empty array is written as `null`, and `null` is read as nil
inside an array and as the empty array by itself. JSON does not know unsigned numbers: a whole
number is read as a signed integer if it fits one.
-/

namespace MonkeyLang

inductive EncodeFault
  | containsItself
  | nonFinite (x : Float)
  | functionValue
  | escapedReturn

def EncodeFault.message : EncodeFault → String
  | containsItself => "array contains itself"
  | nonFinite x => "non-finite float " ++ String.ofList (Layout.display.text x)
  | functionValue => "function values have no JSON form"
  | escapedReturn => "return value escaped its function"

inductive DecodeFault
  | malformed (fault : Json.Fault) (line column : Nat)
  | notArray (kind : String)
  | object

def DecodeFault.message : DecodeFault → String
  | malformed fault line column => s!"{fault.message} at line {line} column {column}"
  | notArray kind => s!"not an array: {kind}"
  | object => "objects are not supported"

namespace Unfolding

mutual

def repeats : Unfolding → Bool
  | array members => anyRepeats members
  | again => true
  | _ => false

def anyRepeats : List Unfolding → Bool
  | [] => false
  | member :: rest => member.repeats || anyRepeats rest

end

def listJson : List Json → Json
  | [] => .null
  | items => .list items

mutual

def json : Unfolding → Except EncodeFault Json
  | int n => .ok (.int n.toInt)
  | uint n => .ok (.int n.toNat)
  | float x => if x.isFinite then .ok (.float x) else .error (.nonFinite x)
  | str s => .ok (.str s)
  | bool b => .ok (.bool b)
  | nil => .ok .null
  | array members => (membersJson members).map listJson
  | again => .error .containsItself
  | closure _ => .error .functionValue
  | returned _ => .error .escapedReturn

def membersJson : List Unfolding → Except EncodeFault (List Json)
  | [] => .ok []
  | member :: rest =>
    match member.json with
    | .error fault => .error fault
    | .ok item => (membersJson rest).map (item :: ·)

end

end Unfolding

/-- The JSON text of an array with the given members. That it contains itself counts before all
    other faults. -/
def Store.encode (s : Store) (members : List Value) : Except EncodeFault (List Char) :=
  let trees := s.unfoldAll [] members
  if Unfolding.anyRepeats trees then .error .containsItself
  else (Unfolding.membersJson trees).map fun items => (Unfolding.listJson items).text

namespace Json

def kindName : Json → String
  | null => "null"
  | bool _ => "boolean"
  | int _ | float _ => "number"
  | str _ => "string"
  | list _ => "array"
  | object _ => "object"

def wholeValue (n : Int) : Value :=
  if n < 0x8000000000000000 then .int (Int64.ofInt n) else .uint (UInt64.ofNat n.toNat)

mutual

def load (s : Store) : Json → Except DecodeFault (Value × Store)
  | null => .ok (.nil, s)
  | bool b => .ok (.bool b, s)
  | int n => .ok (wholeValue n, s)
  | float x => .ok (.float x, s)
  | str t => .ok (.str t, s)
  | list items =>
    match loadAll s items with
    | .error fault => .error fault
    | .ok (members, s) =>
      let (id, s) := s.alloc members.toArray
      .ok (.array id, s)
  | object _ => .error .object

def loadAll (s : Store) : List Json → Except DecodeFault (List Value × Store)
  | [] => .ok ([], s)
  | item :: rest =>
    match load s item with
    | .error fault => .error fault
    | .ok (value, s) =>
      match loadAll s rest with
      | .error fault => .error fault
      | .ok (values, s) => .ok (value :: values, s)

end

end Json

def Store.decode (s : Store) (text : List Char) : Except DecodeFault (ArrayId × Store) :=
  match Json.ofText text with
  | .error e =>
    let lines := LineIndex.ofText text
    .error (.malformed e.fault (lines.lineOf e.offset) (lines.columnOf e.offset))
  | .ok .null => .ok (s.alloc #[])
  | .ok (.list items) =>
    match Json.loadAll s items with
    | .error fault => .error fault
    | .ok (members, s) => .ok (s.alloc members.toArray)
  | .ok json => .error (.notArray json.kindName)

end MonkeyLang
