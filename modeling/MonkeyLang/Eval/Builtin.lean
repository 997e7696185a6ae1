import MonkeyLang.Eval.Monad
import MonkeyLang.Value.Display

namespace MonkeyLang

inductive Builtin
  | puts | len | type | toJson | fromJson
deriving DecidableEq

namespace Builtin

def ofName? : String → Option Builtin
  | "puts" => some puts
  | "len" => some len
  | "type" => some type
  | "to_json" => some toJson
  | "from_json" => some fromJson
  | _ => none

def name : Builtin → String
  | puts => "puts"
  | len => "len"
  | type => "type"
  | toJson => "to_json"
  | fromJson => "from_json"

def printAll (s : Store) (args : List Value) : Store :=
  args.foldl (fun s arg => s.print (s.text arg ++ ['\n'])) s

def runOn (line : Nat) (arg : Value) (builtin : Builtin) : Eval Value :=
  let mismatch (expected : Expectation) : Eval Value :=
    Eval.fail line (.argumentKind builtin.name expected arg.typeName)
  match builtin, arg with
  | puts, _ => return .nil
  | len, .str s => return .int (Int64.ofNat s.length)
  | len, .array id => return .int (Int64.ofNat (← Eval.read (·.members id)).size)
  | len, _ => mismatch .stringOrArray
  | type, _ => return .str arg.typeName
  | toJson, .array id => do
    match ← Eval.read fun s => s.encode (s.members id).toList with
    | .ok text => return .str (String.ofList text)
    | .error fault => Eval.fail line (.encode fault)
  | toJson, _ => mismatch .array
  | fromJson, .str text => do
    match ← Eval.read (·.decode text.toList) with
    | .ok (id, s) =>
      set s
      return .array id
    | .error fault => Eval.fail line (.decode fault)
  | fromJson, _ => mismatch .string

def run (line : Nat) (args : List Value) (builtin : Builtin) : Eval Value :=
  match builtin, args with
  | puts, _ => do
    Eval.change (printAll · args)
    return .nil
  | _, [arg] => builtin.runOn line arg
  | _, _ => Eval.fail line (.argumentCount (.exactly 1) args.length)

end Builtin

end MonkeyLang
