import MonkeyLang.Ast.Json
import MonkeyLang.Report

namespace MonkeyLang

inductive FileFault
  | missing
  | notText
deriving DecidableEq

def FileFault.message : FileFault → String
  | missing => "No such file or directory (os error 2)"
  | notText => "stream did not contain valid UTF-8"

structure Outcome where
  code : Nat
  output : String
  reports : List Report
  message : Option String

namespace Outcome

def success (output : String) : Outcome := ⟨0, output, [], none⟩

def failure (output : String) (reports : List Report) (message : String) : Outcome :=
  ⟨1, output, reports, some message⟩

/-- The lines that are printed of errors: the reports, and the last word. -/
def errorOutput (o : Outcome) : List String :=
  o.reports.flatMap Report.lines ++
    o.message.toList.flatMap fun message => s!"Error: {message}".splitOn "\n"

/-- The lines among them that begin a report or the last word. -/
def errorLines (o : Outcome) : List String := o.errorOutput.filter (·.startsWith "Error:")

def locations (o : Outcome) : List String := o.reports.filterMap Report.location?

end Outcome

namespace Command

def execute (name : String) (text : List Char) (shown : Store → Value → List Char) : Outcome :=
  match Store.initial.run text with
  | (.ok value, s) => .success (s.output ++ String.ofList (shown s value))
  | (.error e, s) => .failure s.output [.of name text e] e.describe

def valueLine (s : Store) : Value → List Char
  | .nil => []
  | value => s.text value ++ ['\n']

def run (name : String) (text : List Char) : Outcome := execute name text fun _ _ => []

def eval (text : List Char) : Outcome := execute "<eval>" text valueLine

def parse (text : List Char) : Outcome :=
  match Program.ofText text with
  | .ok program => .success (String.ofList (program.json.pretty ++ ['\n']))
  | .error e => .failure "" [] e.describe

def lexemeLine (l : Lexeme) : List Char :=
  l.token.listing ++ (" @ " ++ l.span.text ++ "\n").toList

def tokens (text : List Char) : Outcome :=
  match Lexeme.ofText text with
  | .ok lexemes => .success (String.ofList (lexemes.flatMap lexemeLine))
  | .error e => .failure "" [] (SourceError.lexical e).describe

def onFile (name : String) (content : Except FileFault (List Char))
    (command : List Char → Outcome) : Outcome :=
  match content with
  | .ok text => command text
  | .error fault => .failure "" [] s!"IO error: {name}: {fault.message}"

end Command

end MonkeyLang
