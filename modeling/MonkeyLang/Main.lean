import MonkeyLang.Command
import MonkeyLang.Repl

namespace MonkeyLang

def readText (name : String) : IO (Except FileFault (List Char)) := do
  try
    let bytes ← IO.FS.readBinFile name
    match String.fromUTF8? bytes with
    | some text => return .ok text.toList
    | none => return .error .notText
  catch _ => return .error .missing

def finish (o : Outcome) : IO UInt32 := do
  IO.print o.output
  o.errorOutput.forM IO.eprintln
  return o.code.toUInt32

def printOutput : Repl.Output → IO Unit
  | .text text => IO.print text
  | .report report => report.lines.forM IO.eprintln

partial def interact (input : IO.FS.Stream) (state : Repl.State) : IO UInt32 := do
  IO.print state.prompt
  (← IO.getStdout).flush
  let line ← input.getLine
  match Repl.linesOf line.toList with
  | [] =>
    IO.print Repl.farewell
    return Repl.Ending.farewell.code.toUInt32
  | line :: _ =>
    let (outputs, next) := state.take line
    outputs.forM printOutput
    match next with
    | .line next => interact input next
    | .ending ending => return ending.code.toUInt32

def usage : String := "usage: monkey run FILE | repl | eval SOURCE | parse FILE | tokens FILE"

def onFile (name : String) (command : List Char → Outcome) : IO UInt32 := do
  finish (Command.onFile name (← readText name) command)

end MonkeyLang

open MonkeyLang in
def main (args : List String) : IO UInt32 := do
  match args with
  | ["run", file] => onFile file (Command.run file)
  | ["parse", file] => onFile file Command.parse
  | ["tokens", file] => onFile file Command.tokens
  | ["eval", text] | ["eval", "--", text] => finish (Command.eval text.toList)
  | ["repl"] =>
    IO.print Repl.banner
    interact (← IO.getStdin) .start
  | _ =>
    IO.eprintln usage
    return 2
