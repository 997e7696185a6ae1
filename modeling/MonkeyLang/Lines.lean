import MonkeyLang.Span

namespace MonkeyLang

/-- The byte offsets at which the lines of a text start, the first line left out. -/
structure LineIndex where
  starts : List Nat
deriving DecidableEq, Inhabited

namespace LineIndex

def startsFrom : Nat → List Char → List Nat
  | _, [] => []
  | offset, c :: rest =>
    let next := offset + c.utf8Size
    if c = '\n' then next :: startsFrom next rest else startsFrom next rest

def ofText (text : List Char) : LineIndex :=
  ⟨startsFrom 0 text⟩

def lineOf (lines : LineIndex) (offset : Nat) : Nat :=
  lines.starts.countP (· ≤ offset) + 1

def columnOf (lines : LineIndex) (offset : Nat) : Nat :=
  offset - (lines.starts.filter (· ≤ offset)).getLastD 0

/-- The bytes of a line without its newline, in a text of `length` bytes. A line that the text
    does not have is the empty range at its end. -/
def lineRange (lines : LineIndex) (line length : Nat) : Span :=
  let start := match line with
    | 0 | 1 => 0
    | n + 2 => lines.starts[n]?.getD length
  let stop := match lines.starts[line - 1]? with
    | some next => next - 1
    | none => length
  ⟨start, max stop start⟩

end LineIndex

end MonkeyLang
