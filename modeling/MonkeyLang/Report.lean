import MonkeyLang.Session
import MonkeyLang.Text.Bytes

namespace MonkeyLang

namespace Report

def endsLine (c : Char) : Bool :=
  c = '\n' || c = '\r' || c.toNat = 0x0b || c.toNat = 0x0c || c.toNat = 0x85 ||
    c.toNat = 0x2028 || c.toNat = 0x2029

/-- The numbers of characters before the lines of a text that has `count` characters in front,
    its first line left out. A line that would be empty at the very end is none. -/
def lineStarts (count : Nat) : List Char → List Nat
  | [] => []
  | '\r' :: '\n' :: rest =>
    if rest.isEmpty then [] else (count + 2) :: lineStarts (count + 2) rest
  | c :: rest =>
    if endsLine c then
      if rest.isEmpty then [] else (count + 1) :: lineStarts (count + 1) rest
    else lineStarts (count + 1) rest

def place? (text : List Char) (range : Span) : Option (Nat × Nat) :=
  let count := text.length
  if count < range.start || (range.start < range.stop && count < range.stop - 1) then none
  else
    let before := (lineStarts 0 text).filter (· ≤ range.start)
    some (before.length + 1, range.start - before.getLastD 0 + 1)

end Report

/-- The bytes of a text at which a failure is shown: those that a stage rejects, or the line of
    an error at run time. -/
def Failure.range (text : List Char) : Failure → Span
  | .source e => e.span
  | .runtime e => (LineIndex.ofText text).lineRange e.line (Text.byteLength text)

/-- A failure of a named text. The range of the failure counts bytes, but its place is looked up
    as if it counted characters. -/
structure Report where
  name : String
  failure : Failure
  place : Option (Nat × Nat)

namespace Report

def of (name : String) (text : List Char) (failure : Failure) : Report :=
  ⟨name, failure, place? text (failure.range text)⟩

def headline (r : Report) : String := s!"Error: {r.failure.stage} error"

def location? (r : Report) : Option String :=
  r.place.map fun (line, column) => s!"{r.name}:{line}:{column}"

/-- The lines that are printed: the first one, the place, and what is wrong. -/
def lines (r : Report) : List String :=
  r.headline :: (r.location?.toList ++ r.failure.describe.splitOn "\n").map ("   " ++ ·)

end Report

end MonkeyLang
