/-!
Places in a source text. All offsets count the bytes of the text's UTF-8 form.
-/

namespace MonkeyLang

/-- The bytes from `start` up to and not including `stop`. -/
structure Span where
  start : Nat
  stop : Nat
deriving DecidableEq, Inhabited

namespace Span

def merge (a b : Span) : Span :=
  ⟨min a.start b.start, max a.stop b.stop⟩

/-- The same bytes after `n` further bytes were put in front of the text. -/
def shift (n : Nat) (s : Span) : Span :=
  ⟨s.start + n, s.stop + n⟩

def text (s : Span) : String :=
  s!"{s.start}..{s.stop}"

def describe (s : Span) : String :=
  s!"Span \x7b start: {s.start}, end: {s.stop} \x7d"

end Span

end MonkeyLang
