namespace MonkeyLang

structure Ratio where
  num : Nat
  den : Nat

namespace Ratio

def ofBinary (mantissa : Nat) (exponent : Int) : Ratio :=
  if exponent < 0 then ⟨mantissa, Nat.pow 2 exponent.natAbs⟩
  else ⟨mantissa * Nat.pow 2 exponent.natAbs, 1⟩

def digitCount (n : Nat) : Nat := (Nat.toDigits 10 n).length

/-- The exponent of the leading digit: the greatest `e` with `10 ^ e` at most the fraction. -/
def leading (r : Ratio) : Int :=
  if r.den ≤ r.num then (digitCount (r.num / r.den) - 1 : Nat)
  else -(digitCount ((r.den - 1) / r.num) : Int)

def scaled (r : Ratio) (exponent : Int) : Ratio :=
  if exponent < 0 then ⟨r.num * Nat.pow 10 exponent.natAbs, r.den⟩
  else ⟨r.num, r.den * Nat.pow 10 exponent.natAbs⟩

def scaledBinary (r : Ratio) (exponent : Int) : Ratio :=
  if exponent < 0 then ⟨r.num * Nat.pow 2 exponent.natAbs, r.den⟩
  else ⟨r.num, r.den * Nat.pow 2 exponent.natAbs⟩

open Float.Model in
/-- The exponent of the last bit that a double of the size of the fraction has, or one less. -/
def lastBit (r : Ratio) : Int :=
  Format.binary64.targetExponent (r.num.log2 - r.den.log2)

open Float.Model UnpackedFloat in
/-- The double nearest to the fraction, a tie going to the even significand; infinite beyond the
    range. The multiple of the last bit below the fraction is rounded by what is left. -/
def toFloat (r : Ratio) : Float :=
  let s := r.scaledBinary r.lastBit
  .ofModel (.pack (roundWithAccuracy Format.binary64 .positive (s.num / s.den) r.lastBit
    (accuracyOfFraction (s.num % s.den) s.den)))

end Ratio

end MonkeyLang
