import MonkeyLang.Proofs.Json.RoundTrip

namespace MonkeyLang

open Float.Model (Format UnpackedFloat)
open Float.Model.UnpackedFloat

section Numbers

theorem isNaN_unpack {s : Sign} {e : BitVec 11} {m : BitVec 52} (below : e ≠ -1#11) :
    (unpack Format.binary64 (packComponents Format.binary64 s e m)).isNaN = false := by
  rw [unpack_packComponents, if_neg below]
  split
  · split <;> rfl
  · rfl

theorem isNaN_pack {u : UnpackedFloat} (number : u.isNaN = false) :
    (parts (.ofModel (.pack u))).isNaN = false := by
  change (unpack Format.binary64 (pack Format.binary64 u)).isNaN = false
  cases u with
  | notANumber => cases number
  | infinity s | zero s => cases s <;> rfl
  | finite s m e pos =>
    rw [pack_finite]
    split
    · cases s <;> rfl
    · rename_i near
      split
      · refine isNaN_unpack fun same => near ?_
        have last := congrArg BitVec.toNat same
        rw [BitVec.toNat_ofNat] at last
        change (e + 1075).toNat % 2048 = 2047 at last
        omega
      · exact isNaN_unpack (by decide)

theorem isNaN_roundWithAccuracy (s : Sign) (m : ℕ) (e : ℤ) (accuracy : Accuracy) :
    (roundWithAccuracy Format.binary64 s m e accuracy).isNaN = false := by
  unfold roundWithAccuracy
  dsimp only
  split <;> rfl

theorem Decimal.isNaN_toFloat (d : Decimal) : (parts d.toFloat).isNaN = false := by
  unfold toFloat
  split
  · rfl
  · split
    · rfl
    · exact isNaN_pack (isNaN_roundWithAccuracy _ _ _ _)

theorem Json.PartialNumber.isFinite_toFloat {n : PartialNumber} (near : n.toFloat.isInf = false) :
    n.toFloat.isFinite = true := by
  have number : (parts n.toFloat).isNaN = false := by
    have size := n.decimal.isNaN_toFloat
    unfold toFloat
    dsimp only
    split
    · rw [parts_neg]
      cases form : parts n.decimal.toFloat with
      | notANumber =>
        rw [form] at size
        cases size
      | infinity | zero | finite => rfl
    · exact size
  change (parts n.toFloat).isInf = false at near
  rw [isFinite_eq]
  generalize parts n.toFloat = u at near number ⊢
  cases u with
  | notANumber => cases number
  | infinity => cases near
  | zero | finite => rfl

end Numbers

namespace Json

/-- `json.Fits level`: the reader can come to the value inside so many lists and objects. What is in
    an object does not matter. -/
inductive Fits : Nat → Json → Prop
  | null {level : Nat} : Fits level .null
  | bool {level : Nat} (b : Bool) : Fits level (.bool b)
  | int {level : Nat} {n : Int} (low : -0x8000000000000000 ≤ n) (high : n < 0x10000000000000000) :
      Fits level (.int n)
  | float {level : Nat} {x : Float} (finite : x.isFinite = true) : Fits level (.float x)
  | str {level : Nat} (s : String) : Fits level (.str s)
  | list {level : Nat} {items : List Json} (room : level + 1 < depthLimit)
      (inside : ∀ item ∈ items, Fits (level + 1) item) : Fits level (.list items)
  | object {level : Nat} (members : List (String × Json)) : Fits level (.object members)

def Open.Fits (level : Nat) : Open → Prop
  | .list items => ∀ item ∈ items, Json.Fits level item
  | .object _ _ => True

inductive AllFit : List Open → Prop
  | nil : AllFit []
  | cons {inner : Open} {outer : List Open} (room : outer.length + 1 < depthLimit)
      (within : inner.Fits (outer.length + 1)) (around : AllFit outer) : AllFit (inner :: outer)

theorem AllFit.room {enclosing : List Open} (fit : AllFit enclosing) :
    enclosing.length < depthLimit := by
  cases fit with
  | nil => decide
  | cons room => exact room

def Mode.Fits (level : Nat) : Mode → Prop
  | .word _ item | .after item => Json.Fits level item
  | _ => True

structure State.Fits (s : State) : Prop where
  enclosing : AllFit s.enclosing
  mode : s.mode.Fits s.enclosing.length

theorem PartialNumber.fits_value? {n : PartialNumber} {json : Json} (known : n.value? = some json)
    (level : Nat) : json.Fits level := by
  unfold value? at known
  dsimp only at known
  split at known
  · rename_i small
    cases known
    simp only [Bool.and_eq_true, decide_eq_true_eq] at small
    exact .int (by omega) (by omega)
  · split at known
    · rename_i small
      cases known
      simp only [Bool.and_eq_true, decide_eq_true_eq] at small
      exact .int (by omega) (by omega)
    · split at known
      · cases known
      · rename_i near
        cases known
        exact .float (isFinite_toFloat (Bool.eq_false_iff.mpr near))

def Keeps (step : Except Fault State) : Prop := ∀ t, step = .ok t → t.Fits

theorem Keeps.ok {s : State} (fits : s.Fits) : Keeps (.ok s) := fun _ same =>
  Except.ok.inj same ▸ fits

theorem Keeps.error {fault : Fault} : Keeps (.error fault) := nofun

section Take

variable {enclosing : List Open} (fit : AllFit enclosing) (c : Char)

theorem keeps_list {items : List Json} {outer : List Open} (room : outer.length + 1 < depthLimit)
    (inside : ∀ item ∈ items, Json.Fits (outer.length + 1) item) (around : AllFit outer) :
    Keeps (.ok (.complete (.list items.reverse) outer)) :=
  .ok ⟨around, .list room fun item member => inside item (List.mem_reverse.mp member)⟩

include fit

theorem keeps_opened {mode : Mode} {inner : Open} (within : inner.Fits (enclosing.length + 1))
    (quiet : mode.Fits (enclosing.length + 1)) :
    Keeps (if enclosing.length + 1 = depthLimit then .error .tooDeep
      else .ok ⟨mode, inner :: enclosing⟩) := by
  have room := fit.room
  split
  · exact .error
  · exact .ok ⟨.cons (by omega) within fit, quiet⟩

theorem keeps_takeAfter {value : Json} (here : value.Fits enclosing.length) :
    Keeps (takeAfter value enclosing c) := by
  unfold takeAfter
  split
  · exact .ok ⟨fit, here⟩
  · cases fit with
    | nil => exact .error
    | @cons inner outer room within around =>
      cases inner with
      | list items =>
        have inside : ∀ item ∈ value :: items, Json.Fits (outer.length + 1) item :=
          List.forall_mem_cons.mpr ⟨here, within⟩
        dsimp only
        split
        · exact .ok ⟨.cons room inside around, trivial⟩
        · split
          · exact keeps_list room inside around
          · exact .error
      | object members key =>
        dsimp only
        split
        · exact .ok ⟨.cons room trivial around, trivial⟩
        · split
          · exact .ok ⟨around, .object _⟩
          · exact .error

theorem keeps_takeValue (place : Place) : Keeps (takeValue place enclosing c) := by
  have begun (mode : Mode) (quiet : mode.Fits enclosing.length) : Keeps (.ok ⟨mode, enclosing⟩) :=
    .ok ⟨fit, quiet⟩
  unfold takeValue
  dsimp only
  split
  · exact begun _ trivial
  · split
    · cases fit with
      | nil => exact .error
      | @cons inner outer room within around =>
        cases inner with
        | list items => exact keeps_list room within around
        | object members key => exact .error
    · exact .error
    · exact begun _ .null
    · exact begun _ (.bool true)
    · exact begun _ (.bool false)
    · exact begun _ trivial
    · exact begun _ trivial
    · exact begun _ trivial
    · exact keeps_opened fit (List.forall_mem_nil _) trivial
    · split
      · exact keeps_opened fit trivial trivial
      · split
        · exact begun _ trivial
        · exact .error

theorem keeps_takeKey (first : Bool) : Keeps (takeKey first enclosing c) := by
  unfold takeKey
  split
  · exact .ok ⟨fit, trivial⟩
  · split
    · exact .ok ⟨fit, trivial⟩
    · split
      · cases fit with
        | nil => cases first <;> exact .error
        | @cons inner outer room within around =>
          cases first with
          | false => exact .error
          | true =>
            cases inner with
            | list items => exact .error
            | object members key => exact .ok ⟨around, .object _⟩
      · exact .error

theorem keeps_takeInString (part : StringPart) (chars : List Char) (isKey : Bool) :
    Keeps (takeInString part chars isKey enclosing c) := by
  have inside (part : StringPart) (chars : List Char) :
      Keeps (.ok ⟨.string part chars isKey, enclosing⟩) := .ok ⟨fit, trivial⟩
  unfold takeInString
  cases part with
  | plain =>
    dsimp only
    split
    · cases isKey with
      | true => exact .ok ⟨fit, trivial⟩
      | false => exact .ok ⟨fit, .str _⟩
    · split
      · exact inside _ _
      · split
        · exact .error
        · exact inside _ _
  | escape =>
    dsimp only
    split
    · exact inside _ _
    · split
      · exact inside _ _
      · exact .error
  | hex count value leading =>
    dsimp only
    split
    · exact .error
    · split
      · exact inside _ _
      · split
        · exact inside _ _
        · exact .error
  | pair leading | pairEscape leading =>
    dsimp only
    split
    · exact inside _ _
    · exact .error

section Digits

variable (n : PartialNumber)

theorem keeps_number : Keeps (.ok ⟨.number n, enclosing⟩) := .ok ⟨fit, trivial⟩

theorem keeps_closeNumber : Keeps (closeNumber n enclosing c) := by
  unfold closeNumber
  split
  · rename_i known
    exact keeps_takeAfter fit c (PartialNumber.fits_value? known _)
  · exact .error

theorem keeps_takeBehindDigits : Keeps (takeBehindDigits n enclosing c) := by
  unfold takeBehindDigits
  split
  · exact keeps_number fit _
  · exact keeps_closeNumber fit c n

theorem keeps_takeBehindWhole : Keeps (takeBehindWhole n enclosing c) := by
  unfold takeBehindWhole
  split
  · exact keeps_number fit _
  · exact keeps_takeBehindDigits fit c n

theorem keeps_takeExponentDigit (d : Nat) : Keeps (takeExponentDigit n enclosing d) := by
  unfold takeExponentDigit
  dsimp only
  split
  · exact keeps_number fit _
  · split
    · exact .error
    · exact keeps_number fit _

theorem keeps_takeInNumber : Keeps (takeInNumber n enclosing c) := by
  fun_cases takeInNumber n enclosing c with
  | case1 | case2 | case4 | case5 | case6 => exact keeps_number fit _
  | case7 d | case8 d | case9 d => exact keeps_takeExponentDigit fit n d
  | case10 | case11 => exact keeps_takeBehindWhole fit c n
  | case12 => exact keeps_takeBehindDigits fit c n
  | case13 => exact keeps_closeNumber fit c n
  | case14 | case15 => exact keeps_number fit _
  | case3 | case16 | case17 | case18 | case19 => exact .error

end Digits

end Take

theorem State.Fits.take {s : State} (fits : s.Fits) (c : Char) : Keeps (s.take c) := by
  obtain ⟨mode, enclosing⟩ := s
  obtain ⟨fit, here⟩ := fits
  unfold State.take
  cases mode with
  | value place => exact keeps_takeValue fit c place
  | word rest value =>
    match rest with
    | [] => exact keeps_takeAfter fit c here
    | [last] =>
      dsimp only
      split
      · exact .ok ⟨fit, here⟩
      · exact .error
    | expected :: next :: rest =>
      dsimp only
      split
      · exact .ok ⟨fit, here⟩
      · exact .error
  | number n => exact keeps_takeInNumber fit c n
  | string part chars isKey => exact keeps_takeInString fit c part chars isKey
  | key first => exact keeps_takeKey fit c first
  | colon key =>
    dsimp only
    split
    · exact .ok ⟨fit, trivial⟩
    · split
      · cases fit with
        | nil => exact .error
        | @cons inner outer room within around =>
          cases inner with
          | list items => exact .error
          | object members key => exact .ok ⟨.cons room trivial around, trivial⟩
      · exact .error
  | after value => exact keeps_takeAfter fit c here

theorem eq_nil_of_endAfter {value json : Json} {enclosing : List Open}
    (ended : endAfter value enclosing = .ok json) : enclosing = [] ∧ json = value := by
  rcases enclosing with _ | ⟨_ | _, outer⟩
  · exact ⟨rfl, (Except.ok.inj ended).symm⟩
  · cases ended
  · cases ended

theorem State.Fits.finish {s : State} {json : Json} (fits : s.Fits)
    (finished : s.finish = .ok json) : json.Fits 0 := by
  obtain ⟨mode, enclosing⟩ := s
  obtain ⟨fit, here⟩ := fits
  have ended {value : Json} (inside : value.Fits enclosing.length)
      (ended : endAfter value enclosing = .ok json) : json.Fits 0 := by
    obtain ⟨rfl, rfl⟩ := eq_nil_of_endAfter ended
    exact inside
  unfold State.finish at finished
  cases mode with
  | word rest value =>
    cases rest with
    | nil => exact ended here finished
    | cons => cases finished
  | number n =>
    have complete : ∃ value, n.value? = some value ∧ endAfter value enclosing = .ok json := by
      dsimp only at finished
      split at finished
      case h_5 => cases finished
      all_goals
        split at finished
        · exact ⟨_, ‹_›, finished⟩
        · cases finished
    obtain ⟨value, known, rest⟩ := complete
    exact ended (PartialNumber.fits_value? known _) rest
  | after value => exact ended here finished
  | value place => cases place <;> cases finished
  | key first => cases first <;> cases finished
  | string | colon => cases finished

theorem State.Fits.read {s : State} {json : Json} {length offset : Nat} {text : List Char}
    (fits : s.Fits) (read : s.read length offset text = .ok json) : json.Fits 0 := by
  induction text generalizing s offset with
  | nil =>
    rw [State.read] at read
    split at read
    · rename_i finished
      cases read
      exact fits.finish finished
    · cases read
  | cons c rest ih =>
    rw [State.read] at read
    split at read
    · rename_i next taken
      exact ih (fits.take c next taken) read
    · cases read

theorem fits_ofText {text : List Char} {json : Json} (read : ofText text = .ok json) :
    json.Fits 0 := by
  have start : State.start.Fits := ⟨.nil, trivial⟩
  exact start.read read

end Json

end MonkeyLang
