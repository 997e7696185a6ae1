namespace MonkeyLang

open Float.Model in
def unpackedRemainder : UnpackedFloat → UnpackedFloat → UnpackedFloat
  | .notANumber, _ | _, .notANumber | .infinity _, _ | _, .zero _ => .notANumber
  | .zero sign, _ => .zero sign
  | x, .infinity _ => x
  | .finite sign m e _, .finite _ n f _ =>
    let low := min e f
    let rest := m * Nat.pow 2 (e - low).natAbs % (n * Nat.pow 2 (f - low).natAbs)
    if rest = 0 then .zero sign
    else UnpackedFloat.round Format.binary64 sign rest low

/-- The remainder of `x` by `y`, truncated toward zero. -/
def floatRemainder (x y : Float) : Float :=
  .ofModel (.pack (unpackedRemainder x.toModel.unpack y.toModel.unpack))

end MonkeyLang
