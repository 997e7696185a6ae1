import MonkeyLang.Number.Shortest

namespace MonkeyLang

structure Layout where
  /-- The exponents of the leading digit for which no exponent is written; `none` is all. -/
  positional : Option (Int × Int)
  /-- Whether a whole number without an exponent ends in `.0`. -/
  wholeMark : Bool
  plusSign : Bool
  tie : Tie

namespace Layout

/-- As values are shown: never an exponent, whole numbers without a point. -/
def display : Layout := ⟨none, false, false, .up⟩

/-- As literals are listed: always a point or an exponent, exponents from `1e16` on and below
    `1e-4`. -/
def listing : Layout := ⟨some (-4, 15), true, false, .up⟩

/-- As JSON numbers: always a point or an exponent, exponents from `1e+16` on and below
    `1e-5`. -/
def json : Layout := ⟨some (-5, 15), true, true, .toEven⟩

def zeros (n : Nat) : List Char := List.replicate n '0'

def positionalText (layout : Layout) (digits : List Char) (exponent : Int) : List Char :=
  if 0 ≤ exponent then
    digits ++ zeros exponent.natAbs ++ (if layout.wholeMark then ['.', '0'] else [])
  else if exponent.natAbs < digits.length then
    let whole := digits.length - exponent.natAbs
    digits.take whole ++ '.' :: digits.drop whole
  else
    '0' :: '.' :: zeros (exponent.natAbs - digits.length) ++ digits

def scientificText (layout : Layout) (digits : List Char) (leading : Int) : List Char :=
  let fraction := match digits.drop 1 with
    | [] => []
    | rest => '.' :: rest
  let sign := if leading < 0 then ['-'] else if layout.plusSign then ['+'] else []
  digits.take 1 ++ fraction ++ 'e' :: sign ++ Nat.toDigits 10 leading.natAbs

def decimalText (layout : Layout) (d : Decimal) : List Char :=
  let digits := Nat.toDigits 10 d.digits
  let leading := d.exponent + digits.length - 1
  let inPlace := match layout.positional with
    | none => true
    | some (low, high) => low ≤ leading && leading ≤ high
  if d.digits = 0 || inPlace then layout.positionalText digits d.exponent
  else layout.scientificText digits leading

def signText : Float.Model.UnpackedFloat.Sign → List Char
  | .positive => []
  | .negative => ['-']

def text (layout : Layout) (x : Float) : List Char :=
  match x.toModel.unpack with
  | .notANumber => ['N', 'a', 'N']
  | .infinity sign => signText sign ++ ['i', 'n', 'f']
  | .zero sign => signText sign ++ layout.decimalText ⟨0, 0⟩
  | .finite sign mantissa exponent _ =>
    signText sign ++ layout.decimalText
      (Decimal.shortestOf layout.tie x.abs mantissa exponent)

end Layout

end MonkeyLang
