import MonkeyLang.Repl.Typed
import MonkeyLang.Report
import MonkeyLang.Text.Blank

namespace MonkeyLang

namespace Repl

/-- The number of brackets that a text leaves open, strings left out. Behind a backslash in a
    string the next character does not count. The number has 32 bits and wraps around. -/
def openBrackets (depth : Int32) (inString : Bool) : List Char → Int32
  | [] => depth
  | c :: rest =>
    if inString then
      if c = '\\' then
        match rest with
        | [] => depth
        | _ :: rest => openBrackets depth true rest
      else openBrackets depth (c ≠ '"') rest
    else if c = '"' then openBrackets depth true rest
    else if c = '(' || c = '[' || c.toNat = 0x7b then openBrackets (depth + 1) false rest
    else if c = ')' || c = ']' || c.toNat = 0x7d then openBrackets (depth - 1) false rest
    else openBrackets depth false rest

def needsMore (text : List Char) : Bool := 0 < openBrackets 0 false text

inductive Command
  | quit | help | bindings | clear
  | unknown (text : List Char)

def Command.ofText (text : List Char) : Command :=
  match String.ofList text with
  | ":quit" | ":q" | ":exit" => quit
  | ":help" | ":h" | ":?" => help
  | ":env" => bindings
  | ":clear" => clear
  | _ => unknown text

def banner : String :=
  "Monkey REPL v0.1.0\nType :help for help, :quit to exit.\n\n"

def farewell : String := "Goodbye!\n"

def helpLines : List String :=
  ["Monkey REPL Commands:",
   "  :help, :h, :?   Show this help",
   "  :quit, :q       Exit the REPL",
   "  :env            List global bindings",
   "  :clear          Clear the screen",
   "",
   "You can enter:",
   "  - Bindings: let a = [1, 2, 3];",
   "  - Expressions: a.map(fn(x) \x7b x * 2 \x7d)",
   "  - Several lines, while brackets are open",
   "",
   "Array methods:",
   "  len empty first/head last tail/rest count includes index",
   "  push unshift pop shift merge map filter/grep reduce",
   "",
   "Built-in functions:",
   "  puts(x, ...)    Print each value on its own line",
   "  len(x)          Length of a string or array",
   "  type(x)         Type name of a value",
   "  to_json(a)      Encode an array as JSON text",
   "  from_json(s)    Decode JSON text into an array"]

def helpText : String := String.join (helpLines.map (· ++ "\n"))

def clearText : String := "\x1b[2J\x1b[1;1H"

structure State where
  store : Store
  /-- The lines that wait for their brackets to be closed. -/
  pending : List Char

def State.start : State := ⟨.initial, []⟩

def State.prompt (state : State) : String :=
  if state.pending.isEmpty then ">> " else ".. "

inductive Output
  | text (text : String)
  | report (report : Report)

def evaluate (s : Store) (text : List Char) : List Output × Store :=
  let (result, s) := s.run text
  let (printed, s) := s.takeOutput
  let last : List Output := match result with
    | .ok .nil => []
    | .ok (.str t) => [.text (String.ofList (Text.quoted t.toList ++ ['\n']))]
    | .ok value => [.text (String.ofList (s.text value ++ ['\n']))]
    | .error e => [.report (.of "<repl>" text e)]
  (.text printed :: last, s)

def bindingLine (s : Store) (name : String) (value : Value) : String :=
  s!"  {name} = {String.ofList (s.text value)}\n"

def Command.run (s : Store) : Command → Option String
  | quit => none
  | help => some helpText
  | bindings =>
    some (String.join ((s.frame Store.globals).bindings.map fun (name, value) =>
      bindingLine s name value))
  | clear => some clearText
  | unknown text => some s!"Unknown command: {String.ofList text}\nType :help for help.\n"

def State.extend (state : State) (line : List Char) : List Char :=
  state.pending ++ line ++ ['\n']

inductive Ending
  | farewell
  | broken
deriving DecidableEq

def Ending.code : Ending → Nat
  | farewell => 0
  | broken => 101

inductive Next
  | line (state : State)
  | ending (ending : Ending)

def State.takeEdited (state : State) (line : List Char) : List Output × Next :=
  let trimmed := Text.trim line
  if state.pending.isEmpty && trimmed.isEmpty then ([], .line state)
  else if state.pending.isEmpty && trimmed.head? = some ':' then
    match (Command.ofText trimmed).run state.store with
    | none => ([.text Repl.farewell], .ending .farewell)
    | some shown => ([.text shown], .line state)
  else
    let text := state.extend line
    if needsMore text then ([], .line ⟨state.store, text⟩)
    else
      let (outputs, store) := evaluate state.store text
      (outputs, .line ⟨store, []⟩)

def State.take (state : State) (line : List Char) : List Output × Next :=
  match edited? line with
  | some line => state.takeEdited line
  | none => ([], .ending .broken)

structure Transcript where
  outputs : List Output
  ending : Ending

def Transcript.after (outputs : List Output) (rest : Transcript) : Transcript :=
  ⟨outputs ++ rest.outputs, rest.ending⟩

def State.session (state : State) : List (List Char) → Transcript
  | [] => ⟨[.text state.prompt, .text Repl.farewell], .farewell⟩
  | line :: rest =>
    let (shown, next) := state.take line
    .after (.text state.prompt :: shown) (match next with
      | .ending ending => ⟨[], ending⟩
      | .line next => next.session rest)

def session (lines : List (List Char)) : Transcript :=
  .after [.text banner] (State.start.session lines)

/-- The lines of an input, without their ends. A newline at the very end opens no line. -/
def linesOf (text : List Char) : List (List Char) :=
  go [] text
where
  go (line : List Char) : List Char → List (List Char)
    | [] => if line.isEmpty then [] else [line.reverse]
    | '\n' :: rest =>
      let ended := match line with
        | '\r' :: line => line
        | line => line
      ended.reverse :: go [] rest
    | c :: rest => go (c :: line) rest

end Repl

end MonkeyLang
