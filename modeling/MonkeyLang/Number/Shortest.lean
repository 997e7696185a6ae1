import MonkeyLang.Number.Decimal

/-!
The shortest decimal of a double: among the decimals that read back as the double, one with the
fewest digits, and of these the one nearest to it.
-/

namespace MonkeyLang

inductive Tie
  | up
  | toEven
deriving DecidableEq

namespace Ratio

def neighbours (tie : Tie) (r : Ratio) (exponent : Int) : List Decimal :=
  let s := r.scaled exponent
  let below : Decimal := ⟨s.num / s.den, exponent⟩
  let above : Decimal := ⟨s.num / s.den + 1, exponent⟩
  let twice := 2 * (s.num % s.den)
  let upper : Bool := match tie with
    | .up => s.den ≤ twice
    | .toEven => s.den < twice || (s.den = twice && below.digits % 2 = 1)
  if upper then [above, below] else [below, above]

end Ratio

namespace Decimal

/-- The most digits that a double needs to be told apart from all others. -/
def maxDigits : Nat := 17

def ofBinary (mantissa : Nat) (exponent : Int) : Decimal :=
  if exponent < 0 then ⟨mantissa * Nat.pow 5 exponent.natAbs, exponent⟩
  else ⟨mantissa * Nat.pow 2 exponent.natAbs, 0⟩

def shortestOf (tie : Tie) (x : Float) (mantissa : Nat) (exponent : Int) : Decimal :=
  let r := Ratio.ofBinary mantissa exponent
  let top := r.leading
  let found := (List.range maxDigits).findSome? fun n : Nat =>
    (r.neighbours tie (top - n)).find? fun d => d.toFloat == x
  match found with
  | some d => d.trimZeros
  | none => ofBinary mantissa exponent

end Decimal

end MonkeyLang
