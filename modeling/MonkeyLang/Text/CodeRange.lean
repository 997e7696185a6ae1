namespace MonkeyLang.Text

structure CodeRange where
  first : Nat
  last : Nat
deriving DecidableEq

namespace CodeRange

def contains (r : CodeRange) (c : Char) : Bool :=
  r.first ≤ c.toNat && c.toNat ≤ r.last

def single (c : Char) : CodeRange := ⟨c.toNat, c.toNat⟩

def between (a b : Char) : CodeRange := ⟨a.toNat, b.toNat⟩

end CodeRange

def inRanges (ranges : List CodeRange) (c : Char) : Bool :=
  ranges.any (·.contains c)

end MonkeyLang.Text
