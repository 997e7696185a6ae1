import Mathlib

namespace MonkeyLang

open Float.Model (Format UnpackedFloat)
open Float.Model.UnpackedFloat

abbrev parts (x : Float) : UnpackedFloat := x.toModel.unpack

/-- The parts that a double may have: a mantissa of 53 bits, or of fewer if the exponent is the least
    one. -/
def Canonical : UnpackedFloat → Prop
  | .finite _ m e _ => m < 2 ^ 53 ∧ -1074 ≤ e ∧ e ≤ 971 ∧ (2 ^ 52 ≤ m ∨ e = -1074)
  | _ => True

section Components

theorem exists_components (b : BitVec 64) :
    ∃ (s : Sign) (e : BitVec 11) (m : BitVec 52), b = packComponents Format.binary64 s e m := by
  have whole := @packComponents_unpackSign_unpackExponent_unpackMantissa Format.binary64 b
  exact ⟨_, _, _, whole.symm⟩

theorem toNat_implicit (m : BitVec 52) : (1#1 ++ m).toNat = 2 ^ 52 + m.toNat := by
  rw [BitVec.toNat_append, ← Nat.shiftLeft_add_eq_or_of_lt m.isLt]
  rfl

end Components

theorem unpack_packComponents (s : Sign) (e : BitVec 11) (m : BitVec 52) :
    unpack Format.binary64 (packComponents Format.binary64 s e m) =
      if e = -1#11 then if m = 0#52 then .infinity s else .notANumber
      else if e = 0#11 then
        if h : 0 < m.toNat then .finite s m.toNat (-1074) h else .zero s
      else .finite s (2 ^ 52 + m.toNat) (e.toNat - 1075)
        (Nat.add_pos_left (Nat.two_pow_pos 52) m.toNat) := by
  unfold unpack
  simp only [unpackMantissa_packComponents, unpackExponent_packComponents,
    unpackSign_packComponents, Sign.ofBitVec_toBitVec]
  split
  · rfl
  · split
    · rename_i bottom
      subst bottom
      by_cases none : m = 0#52
      · simp [none]
      · have some : 0 < m.toNat := Nat.pos_of_ne_zero fun zero => none (BitVec.eq_of_toNat_eq zero)
        rw [dif_neg none, dif_pos some]
        rfl
    · congr 1
      exact toNat_implicit m

theorem pack_finite (s : Sign) (m : ℕ) (e : ℤ) (pos : 0 < m) :
    pack Format.binary64 (.finite s m e pos) =
      if 2047 ≤ (e + 1075).toNat then packedInfinity Format.binary64 s
      else if m.log2 = 52 then
        packComponents Format.binary64 s (BitVec.ofNat 11 (e + 1075).toNat) (BitVec.ofNat 52 m)
      else packComponents Format.binary64 s 0#11 (BitVec.ofNat 52 m) := by
  have bias : e + Format.binary64.exponentBias + Format.binary64.mantissaBitsWithoutImplicit =
      e + 1075 := by
    change e + 1023 + 52 = e + 1075
    omega
  have overflow : 2 ^ Format.binary64.exponentBits ≤ (e + 1075).toNat + 1 ↔
      2047 ≤ (e + 1075).toNat := by
    change 2 ^ 11 ≤ (e + 1075).toNat + 1 ↔ _
    omega
  have full : m.log2 + 1 = Format.binary64.mantissaBits ↔ m.log2 = 52 := by
    change m.log2 + 1 = 53 ↔ _
    omega
  rw [pack]
  simp only [bias, overflow, full]

theorem unpack_canonical (b : BitVec 64) : Canonical (unpack Format.binary64 b) := by
  obtain ⟨s, e, m, rfl⟩ := exists_components b
  rw [unpack_packComponents]
  have mantissa := m.isLt
  have exponent := e.isLt
  split
  · split <;> trivial
  · rename_i top
    split
    · split
      · exact ⟨by omega, by omega, by omega, .inr rfl⟩
      · trivial
    · rename_i bottom
      have some : e.toNat ≠ 0 := fun none => bottom (BitVec.eq_of_toNat_eq none)
      have below : e.toNat ≠ 2047 := fun full => top (BitVec.eq_of_toNat_eq full)
      exact ⟨by omega, by omega, by omega, .inl (by omega)⟩

theorem log2_eq_iff_le {m : ℕ} (pos : 0 < m) (bound : m < 2 ^ 53) : m.log2 = 52 ↔ 2 ^ 52 ≤ m := by
  rw [← Nat.le_log2 pos.ne']
  have := (Nat.log2_lt pos.ne').mpr bound
  omega

theorem unpack_pack {u : UnpackedFloat} (canonical : Canonical u) :
    unpack Format.binary64 (pack Format.binary64 u) = u := by
  cases u with
  | notANumber => rfl
  | infinity s => cases s <;> rfl
  | zero s => cases s <;> rfl
  | finite s m e pos =>
    obtain ⟨small, low, high, normal⟩ := canonical
    have bits := log2_eq_iff_le pos small
    rw [pack_finite, if_neg (by omega)]
    split
    · rename_i full
      have large := bits.mp full
      have biased : (BitVec.ofNat 11 (e + 1075).toNat).toNat = (e + 1075).toNat := by
        rw [BitVec.toNat_ofNat]
        omega
      have cut : (BitVec.ofNat 52 m).toNat = m - 2 ^ 52 := by
        rw [BitVec.toNat_ofNat]
        omega
      have top : BitVec.ofNat 11 (e + 1075).toNat ≠ -1#11 := by
        intro same
        rw [same] at biased
        change 2047 = (e + 1075).toNat at biased
        omega
      have bottom : BitVec.ofNat 11 (e + 1075).toNat ≠ 0#11 := by
        intro same
        rw [same] at biased
        change 0 = (e + 1075).toNat at biased
        omega
      rw [unpack_packComponents, if_neg top, if_neg bottom]
      congr 1
      · omega
      · omega
    · rename_i short
      rw [bits] at short
      have whole : (BitVec.ofNat 52 m).toNat = m := by
        rw [BitVec.toNat_ofNat]
        omega
      obtain rfl : e = -1074 := normal.resolve_left short
      rw [unpack_packComponents, if_neg (by decide), if_pos rfl, dif_pos (by omega)]
      congr 1

theorem parts_canonical (x : Float) : Canonical (parts x) := unpack_canonical _

theorem parts_injective {x y : Float} (same : parts x = parts y) : x = y := by
  obtain ⟨⟨bits, valid⟩⟩ := x
  obtain ⟨⟨bits', valid'⟩⟩ := y
  have packed : bits.toBitVec = bits'.toBitVec := (unpack_inj_of_valid valid valid').mp same
  cases UInt64.toBitVec_inj.mp packed
  rfl

theorem isNaN_eq_false_iff {x : Float} : x.isNaN = false ↔ parts x ≠ .notANumber := by
  change (parts x).isNaN = false ↔ _
  cases parts x <;> simp [UnpackedFloat.isNaN]

theorem parts_pack {u : UnpackedFloat} (canonical : Canonical u) :
    parts (.ofModel (.pack u)) = u :=
  unpack_pack canonical

theorem parts_neg (x : Float) : parts (-x) = (parts x).neg := by
  have canonical := parts_canonical x
  refine parts_pack (u := (parts x).neg) ?_
  cases h : parts x <;> simp_all [Canonical, UnpackedFloat.neg]

theorem parts_abs (x : Float) : parts x.abs = (parts x).abs := by
  have canonical := parts_canonical x
  refine parts_pack (u := (parts x).abs) ?_
  cases h : parts x <;> simp_all [Canonical, UnpackedFloat.abs]

theorem eq_of_beq_finite {x y : Float} {s : Sign} {m : ℕ} {e : ℤ} {pos : 0 < m}
    (equal : (x == y) = true) (finite : parts y = .finite s m e pos) : x = y := by
  obtain ⟨-, -, same⟩ := (beq_iff_ne_notANumber_and_eq (parts x) (parts y)).mp equal
  rw [finite] at same
  rcases same with same | ⟨-, zero⟩ | ⟨-, zero⟩
  · exact parts_injective (same.trans finite.symm)
  · cases zero
  · cases zero

end MonkeyLang
