import MonkeyLang.Number.Ratio

namespace MonkeyLang

/-- The number `digits · 10 ^ exponent`. -/
structure Decimal where
  digits : Nat
  exponent : Int
deriving DecidableEq, Inhabited

namespace Decimal

def ratio (d : Decimal) : Ratio := (Ratio.mk d.digits 1).scaled (-d.exponent)

/-- A number `n` such that a positive decimal is at least `2 ^ n`: a power of ten lies between the
    powers of eight and sixteen. -/
def lowerBits (d : Decimal) : Int :=
  d.digits.log2 + (if d.exponent < 0 then 4 else 3) * d.exponent

def upperBits (d : Decimal) : Int :=
  d.digits.log2 + 1 + (if d.exponent < 0 then 3 else 4) * d.exponent

/-- The nearest double, a tie going to the even significand; infinite beyond the range. What is
    far beyond it, or far below the least double, is told by its size alone. -/
def toFloat (d : Decimal) : Float :=
  if d.digits = 0 || d.upperBits ≤ -1075 then .ofBits 0
  else if 1024 ≤ d.lowerBits then .ofBits 0x7ff0000000000000
  else d.ratio.toFloat

def digit? (c : Char) : Option Nat :=
  if '0' ≤ c && c ≤ '9' then some (c.toNat - '0'.toNat) else none

def natFrom (start : Nat) (cs : List Char) : Nat :=
  cs.foldl (fun n c => match digit? c with
    | some d => n * 10 + d
    | none => n) start

def natOf (cs : List Char) : Nat := natFrom 0 cs

def ofParts (whole fraction : List Char) (exponent : Int) : Decimal :=
  ⟨natOf (whole ++ fraction), exponent - fraction.length⟩

def trimZeros (d : Decimal) : Decimal :=
  go d.digits d
where
  go : Nat → Decimal → Decimal
    | 0, d => d
    | fuel + 1, d =>
      if d.digits ≠ 0 ∧ d.digits % 10 = 0 then go fuel ⟨d.digits / 10, d.exponent + 1⟩ else d

end Decimal

end MonkeyLang
