import MonkeyLang.Proofs.Json.Number
import MonkeyLang.Proofs.Number.Shortest

namespace MonkeyLang

namespace Json

open Float.Model UnpackedFloat Decimal PartialNumber

section Decimals

variable {d : Decimal}

theorem allDigits_take {cs : List Char} (digits : AllDigits cs) (l : ℕ) : AllDigits (cs.take l) :=
  fun c member => digits c (List.mem_of_mem_take member)

theorem allDigits_drop {cs : List Char} (digits : AllDigits cs) (l : ℕ) : AllDigits (cs.drop l) :=
  fun c member => digits c (List.mem_of_mem_drop member)

theorem leads_take_append (some : 0 < d.digits) {l : ℕ} (left : 0 < l) (cs : List Char)
    (digits : AllDigits cs) : Leads ((Nat.toDigits 10 d.digits).take l ++ cs) := by
  obtain ⟨c, ds, least, most, text⟩ := toDigits_eq_cons some
  obtain ⟨l, rfl⟩ : ∃ j, l = j + 1 := ⟨l - 1, by omega⟩
  have all := allDigits_toDigits d.digits
  rw [text] at all ⊢
  obtain ⟨-, tail⟩ := allDigits_cons.mp all
  exact .inr ⟨c, ds.take l ++ cs, least, most,
    allDigits_append.mpr ⟨allDigits_take tail l, digits⟩, rfl⟩

theorem digits_lt (d : Decimal) : d.digits < 10 ^ (Nat.toDigits 10 d.digits).length :=
  (Nat.length_toDigits_le_iff (by decide) Nat.length_toDigits_pos).mp le_rfl

theorem Legible.short (legible : d.Legible) : d.digits < 10 ^ digitLimit := by
  have limit (l : ℕ) (most : l ≤ digitLimit) : 10 ^ l ≤ 10 ^ digitLimit :=
    Nat.pow_le_pow_right (by decide) most
  exact legible.digits.trans_le (limit 767 (by decide))

/-- The digits before a point and behind it are those of the decimal, and the reader takes them
    all into account. -/
structure Around (d : Decimal) (whole fraction : List Char) : Prop where
  leads : Leads whole
  digits : AllDigits fraction
  nonempty : fraction ≠ []
  some : 0 < natFrom 0 (whole ++ fraction)
  short : natFrom 0 (whole ++ fraction) < 10 ^ digitLimit
  value : (⟨natFrom 0 (whole ++ fraction), -fraction.length⟩ : Decimal).value = d.value

theorem around_whole (some : 0 < d.digits) (least : 0 ≤ d.exponent)
    (near : d.exponent + (Nat.toDigits 10 d.digits).length - 1 ≤ 15) :
    Around d (Nat.toDigits 10 d.digits ++ Layout.zeros d.exponent.natAbs) ['0'] := by
  have less := digits_lt d
  have full : 0 < (Nat.toDigits 10 d.digits).length := Nat.length_toDigits_pos
  have leads := leads_take_append some full _ (allDigits_zeros d.exponent.natAbs)
  have value : natFrom 0 ((Nat.toDigits 10 d.digits ++ Layout.zeros d.exponent.natAbs) ++ ['0']) =
      d.digits * 10 ^ (d.exponent.natAbs + 1) := by
    rw [natFrom_append, natFrom_append, natFrom_toDigits, natFrom_zeros, pow_succ, ← Nat.mul_assoc]
    exact natFrom_zeros _ 1
  obtain ⟨e, exponent⟩ : ∃ e : ℕ, d.exponent = e := ⟨d.exponent.toNat, by omega⟩
  rw [List.take_length] at leads
  refine ⟨leads, allDigits_zeros 1, by simp, ?_, ?_, ?_⟩
  · rw [value]
    positivity
  · rw [value]
    calc d.digits * 10 ^ (d.exponent.natAbs + 1)
        < 10 ^ (Nat.toDigits 10 d.digits).length * 10 ^ (d.exponent.natAbs + 1) := by gcongr
      _ = 10 ^ ((Nat.toDigits 10 d.digits).length + (d.exponent.natAbs + 1)) := (pow_add ..).symm
      _ ≤ 10 ^ digitLimit := Nat.pow_le_pow_right (by decide) (by unfold digitLimit; omega)
  · rw [value, Decimal.value, Decimal.value, exponent, Int.natAbs_natCast, List.length_singleton]
    push_cast
    rw [pow_succ]
    norm_num
    ring

theorem around_inside (legible : d.Legible) (less : d.exponent < 0) {l : ℕ} (left : 0 < l)
    (count : l + d.exponent.natAbs = (Nat.toDigits 10 d.digits).length) :
    Around d ((Nat.toDigits 10 d.digits).take l) ((Nat.toDigits 10 d.digits).drop l) := by
  have leads := leads_take_append legible.some left [] (by simp [AllDigits])
  have behind : ((Nat.toDigits 10 d.digits).drop l).length = d.exponent.natAbs := by
    rw [List.length_drop]
    omega
  have exponent : -(d.exponent.natAbs : ℤ) = d.exponent := by omega
  have joined : natFrom 0 ((Nat.toDigits 10 d.digits).take l ++
      (Nat.toDigits 10 d.digits).drop l) = d.digits := by
    rw [List.take_append_drop, natFrom_toDigits]
  rw [List.append_nil] at leads
  refine ⟨leads, allDigits_drop (allDigits_toDigits _) l, ?_, ?_, ?_, ?_⟩
  · intro none
    rw [none, List.length_nil] at behind
    omega
  · rw [joined]
    exact legible.some
  · rw [joined]
    exact Legible.short legible
  · rw [joined, behind, exponent]

theorem around_behind (legible : d.Legible) (less : d.exponent < 0) {l : ℕ}
    (count : l + (Nat.toDigits 10 d.digits).length = d.exponent.natAbs) :
    Around d ['0'] (Layout.zeros l ++ Nat.toDigits 10 d.digits) := by
  have behind : (Layout.zeros l ++ Nat.toDigits 10 d.digits).length = d.exponent.natAbs := by
    rw [List.length_append, Layout.zeros, List.length_replicate, count]
  have exponent : -(d.exponent.natAbs : ℤ) = d.exponent := by omega
  have joined : natFrom 0 (['0'] ++ (Layout.zeros l ++ Nat.toDigits 10 d.digits)) = d.digits := by
    rw [natFrom_append, natFrom_append, natFrom_zeros]
    change natFrom (0 * _) _ = _
    rw [Nat.zero_mul, natFrom_toDigits]
  refine ⟨.inl rfl, allDigits_append.mpr ⟨allDigits_zeros l, allDigits_toDigits _⟩, ?_, ?_, ?_, ?_⟩
  · simp [Nat.toDigits_ne_nil]
  · rw [joined]
    exact legible.some
  · rw [joined]
    exact Legible.short legible
  · rw [joined, behind, exponent]

theorem positionalText_around (legible : d.Legible)
    (near : d.exponent + (Nat.toDigits 10 d.digits).length - 1 ≤ 15) :
    ∃ whole fraction, Layout.json.positionalText (Nat.toDigits 10 d.digits) d.exponent =
      whole ++ '.' :: fraction ∧ Around d whole fraction := by
  unfold Layout.positionalText
  split
  · rename_i least
    exact ⟨_, _, rfl, around_whole legible.some least near⟩
  · split
    · rename_i less inside
      exact ⟨_, _, rfl, around_inside legible (by omega) (by omega) (by omega)⟩
    · rename_i less outside
      exact ⟨_, _, rfl, around_behind legible (by omega) (by omega)⟩

theorem reads_around (place : Place) (enclosing : List Open) (sign : Sign)
    {whole fraction : List Char} (around : Around d whole fraction) :
    ∃ n : PartialNumber,
      (⟨.value place, enclosing⟩ : State).Reads
        (Layout.signText sign ++ (whole ++ '.' :: fraction)) ⟨.number n, enclosing⟩ ∧
      n.part = .fraction ∧ n.negative = negates sign ∧ 0 < n.decimal.digits ∧
      n.decimal.value = d.value := by
  obtain ⟨n, before, part, spelt⟩ := reads_leading place enclosing sign around.leads
  obtain ⟨m, behind, part, spelt⟩ :=
    reads_point enclosing around.digits around.nonempty part spelt
  rw [← natFrom_append] at spelt
  refine ⟨m, ?_, part, spelt.negative, ?_, ?_⟩
  · rw [← List.append_assoc]
    exact before.append behind
  · rw [spelt.decimal around.short]
    exact around.some
  · rw [spelt.decimal around.short, Int.zero_sub]
    exact around.value

theorem reads_mantissa (place : Place) (enclosing : List Open) (sign : Sign)
    (some : 0 < d.digits) :
    ∃ n : PartialNumber,
      (⟨.value place, enclosing⟩ : State).Reads
        (Layout.signText sign ++ ((Nat.toDigits 10 d.digits).take 1 ++
          match (Nat.toDigits 10 d.digits).drop 1 with
          | [] => []
          | rest => '.' :: rest)) ⟨.number n, enclosing⟩ ∧
      (n.part = .zero ∨ n.part = .whole ∨ n.part = .fraction) ∧
      n.Spells sign d.digits ((Nat.toDigits 10 d.digits).length - 1) 0 := by
  have leads := leads_take_append some one_pos [] (by simp [AllDigits])
  rw [List.append_nil] at leads
  obtain ⟨n, before, part, spelt⟩ := reads_leading place enclosing sign leads
  have digits := allDigits_drop (allDigits_toDigits d.digits) 1
  have joined := natFrom_toDigits d.digits
  rw [← List.take_append_drop 1 (Nat.toDigits 10 d.digits), natFrom_append] at joined
  rw [← List.length_drop]
  generalize (Nat.toDigits 10 d.digits).drop 1 = rest at digits joined ⊢
  rcases rest with _ | ⟨c, cs⟩
  · have first : natFrom 0 ((Nat.toDigits 10 d.digits).take 1) = d.digits := joined
    rw [first] at spelt
    rw [List.append_nil]
    exact ⟨n, before, by tauto, spelt⟩
  · obtain ⟨m, behind, part, spelt⟩ :=
      reads_point enclosing digits (List.cons_ne_nil c cs) part spelt
    rw [joined] at spelt
    rw [← List.append_assoc]
    exact ⟨m, before.append behind, by tauto, spelt⟩

theorem reads_scientific (place : Place) (enclosing : List Open) (sign : Sign)
    (legible : d.Legible) :
    ∃ n : PartialNumber,
      (⟨.value place, enclosing⟩ : State).Reads
        (Layout.signText sign ++ Layout.json.scientificText (Nat.toDigits 10 d.digits)
          (d.exponent + (Nat.toDigits 10 d.digits).length - 1)) ⟨.number n, enclosing⟩ ∧
      n.part = .exponent ∧ n.negative = negates sign ∧ 0 < n.decimal.digits ∧
      n.decimal.value = d.value := by
  obtain ⟨n, before, part, spelt⟩ := reads_mantissa place enclosing sign legible.some
  have full : 0 < (Nat.toDigits 10 d.digits).length := Nat.length_toDigits_pos
  have count := Ratio.digitCount_le (by decide) legible.digits
  have low := legible.low
  have high := legible.high
  unfold Ratio.digitCount at count
  have small : (d.exponent + (Nat.toDigits 10 d.digits).length - 1).natAbs < exponentLimit := by
    unfold exponentLimit
    omega
  obtain ⟨m, behind, part, spelt⟩ := reads_exponent enclosing small part spelt
  refine ⟨m, ?_, part, spelt.negative, ?_, ?_⟩
  · have reads := before.append behind
    rw [List.append_assoc, ← List.append_assoc ((Nat.toDigits 10 d.digits).take 1 ++ _)] at reads
    exact reads
  · rw [spelt.decimal (Legible.short legible)]
    exact legible.some
  · have exponent : d.exponent + (Nat.toDigits 10 d.digits).length - 1 -
        ((Nat.toDigits 10 d.digits).length - 1 : ℕ) = d.exponent := by omega
    rw [spelt.decimal (Legible.short legible), exponent]

theorem reads_decimal (place : Place) (enclosing : List Open) (sign : Sign)
    (legible : d.Legible) :
    ∃ n : PartialNumber,
      (⟨.value place, enclosing⟩ : State).Reads
        (Layout.signText sign ++ Layout.json.decimalText d) ⟨.number n, enclosing⟩ ∧
      (n.part = .fraction ∨ n.part = .exponent) ∧ n.negative = negates sign ∧
      n.decimal.toFloat = d.toFloat := by
  -- The digits that were read may end in zeros that the decimal does not have.
  have same (n : PartialNumber) (some : 0 < n.decimal.digits) (value : n.decimal.value = d.value) :
      n.decimal.toFloat = d.toFloat := by
    rw [toFloat_eq_nearest some, toFloat_eq_nearest legible.some, value]
  unfold Layout.decimalText
  dsimp only [Layout.json]
  split
  · rename_i inPlace
    have near : d.exponent + (Nat.toDigits 10 d.digits).length - 1 ≤ 15 := by
      have some := legible.some
      simp only [Bool.or_eq_true, Bool.and_eq_true, decide_eq_true_eq] at inPlace
      omega
    obtain ⟨whole, fraction, text, around⟩ := positionalText_around legible near
    obtain ⟨n, reads, part, negative, some, value⟩ := reads_around place enclosing sign around
    rw [← text] at reads
    exact ⟨n, reads, .inl part, negative, same n some value⟩
  · obtain ⟨n, reads, part, negative, some, value⟩ := reads_scientific place enclosing sign legible
    exact ⟨n, reads, .inr part, negative, same n some value⟩

end Decimals

section Doubles

variable {x : Float}

theorem text_eq (layout : Layout) (x : Float) : layout.text x =
    match parts x with
    | .notANumber => ['N', 'a', 'N']
    | .infinity sign => Layout.signText sign ++ ['i', 'n', 'f']
    | .zero sign => Layout.signText sign ++ layout.decimalText ⟨0, 0⟩
    | .finite sign m e _ =>
      Layout.signText sign ++ layout.decimalText (shortestOf layout.tie x.abs m e) :=
  rfl

theorem toFloat_eq {n : PartialNumber} {sign : Sign} (negative : n.negative = negates sign)
    (size : parts n.decimal.toFloat = (parts x).abs)
    (same : parts x = if negates sign then (parts x).abs.neg else (parts x).abs) :
    n.toFloat = x := by
  refine parts_injective ?_
  rw [same, PartialNumber.toFloat, negative]
  cases sign with
  | positive => exact size
  | negative => exact (parts_neg _).trans (congrArg _ size)

theorem reads_zeroText (place : Place) (enclosing : List Open) (sign : Sign) :
    ∃ n : PartialNumber,
      (⟨.value place, enclosing⟩ : State).Reads
        (Layout.signText sign ++ Layout.json.decimalText ⟨0, 0⟩) ⟨.number n, enclosing⟩ ∧
      n.part = .fraction ∧ n.negative = negates sign ∧ n.decimal.toFloat = .ofBits 0 := by
  obtain ⟨n, before, part, spelt⟩ := reads_leading place enclosing sign (.inl rfl)
  obtain ⟨m, behind, part, spelt⟩ :=
    reads_point enclosing (allDigits_zeros 1) (List.cons_ne_nil '0' []) part spelt
  refine ⟨m, ?_, part, spelt.negative, ?_⟩
  · have reads := before.append behind
    rw [List.append_assoc] at reads
    exact reads
  · have none : natFrom (natFrom 0 ['0']) (Layout.zeros 1) = 0 := rfl
    rw [none] at spelt
    rw [spelt.decimal (Nat.pow_pos (by decide))]
    rfl

theorem isFinite_eq (x : Float) : x.isFinite = (parts x).isFinite := rfl

theorem parts_of_isFinite (finite : x.isFinite = true) :
    (∃ sign, parts x = .zero sign) ∨ ∃ sign m e pos, parts x = .finite sign m e pos := by
  rw [isFinite_eq] at finite
  cases form : parts x with
  | zero sign => exact .inl ⟨sign, rfl⟩
  | finite sign m e pos => exact .inr ⟨sign, m, e, pos, rfl⟩
  | notANumber | infinity =>
    rw [form] at finite
    cases finite

theorem isInf_eq_false (finite : x.isFinite = true) : x.isInf = false := by
  change (parts x).isInf = false
  rcases parts_of_isFinite finite with ⟨sign, form⟩ | ⟨sign, m, e, pos, form⟩
  all_goals
    rw [form]
    rfl

theorem reads_float (place : Place) (enclosing : List Open) (finite : x.isFinite = true) :
    ∃ s : State, (⟨.value place, enclosing⟩ : State).Reads (scalarText (.float x)) s ∧
      s.Behind (.float x) enclosing := by
  have value (n : PartialNumber) (part : n.part = .fraction ∨ n.part = .exponent)
      (same : n.toFloat = x) : (⟨.number n, enclosing⟩ : State).Behind (.float x) enclosing := by
    refine behind_number enclosing ?_ (by tauto)
    have infinite : x.isInf = false := isInf_eq_false finite
    unfold value?
    dsimp only
    rcases part with part | part
    all_goals
      rw [part, same, infinite]
      rfl
  rw [scalarText, if_pos finite, text_eq]
  rcases parts_of_isFinite finite with ⟨sign, form⟩ | ⟨sign, m, e, pos, form⟩
  · rw [form]
    obtain ⟨n, reads, part, negative, zero⟩ := reads_zeroText place enclosing sign
    refine ⟨_, reads, value n (.inl part) (toFloat_eq negative ?_ ?_)⟩
    · rw [zero, form]
      rfl
    · rw [form]
      cases sign <;> rfl
  · rw [form]
    have size : parts x.abs = .finite .positive m e pos := by rw [parts_abs, form]; rfl
    obtain ⟨legible, same⟩ := shortestOf_toFloat .toEven size
    obtain ⟨n, reads, part, negative, read⟩ := reads_decimal place enclosing sign legible
    refine ⟨_, reads, value n part (toFloat_eq negative ?_ ?_)⟩
    · rw [read, same, parts_abs]
    · rw [form]
      cases sign <;> rfl

end Doubles

end Json

end MonkeyLang
