import MonkeyLang.Eval
import MonkeyLang.Grammar.Derivation

/-!
Running source texts. The bindings of one text stay for the next one; every text starts with no
body open and with its own table of lines.
-/

namespace MonkeyLang

inductive Failure
  | source (error : SourceError)
  | runtime (error : RuntimeError)

namespace Failure

def describe : Failure → String
  | source e => e.describe
  | runtime e => e.describe

def stage : Failure → String
  | source e => e.stage
  | runtime _ => "Runtime"

end Failure

def Program.eval (lines : LineIndex) (program : Program) : Eval Value := do
  let value ← evalBody enterFirst lines Store.globals program.body
  return value.unwrap

def Store.run (s : Store) (text : List Char) : Except Failure Value × Store :=
  match Program.ofText text with
  | .error e => (.error (.source e), s)
  | .ok program =>
    match (program.eval (LineIndex.ofText text)).runIn s with
    | (.ok value, s) => (.ok value, s)
    | (.error e, s) => (.error (.runtime e), s)

/-- The store after a session: source texts run one after the other, from the first store on. -/
def Store.session (texts : List (List Char)) : Store :=
  texts.foldl (fun s text => (s.run text).2) .initial

def Store.takeOutput (s : Store) : String × Store := (s.output, { s with output := "" })

end MonkeyLang
