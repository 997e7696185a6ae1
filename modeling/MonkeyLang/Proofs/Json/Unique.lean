import MonkeyLang.Proofs.Json.RoundTrip

namespace MonkeyLang

namespace Json

open Float.Model UnpackedFloat Decimal State

section Numerals

variable {a b r s : List Char}

def isNumeral (c : Char) : Bool := c.isDigit || c = '-' || c = '+' || c = '.' || c = 'e'

def Numeric (cs : List Char) : Prop := ∀ c ∈ cs, isNumeral c = true

/-- What is written behind a number does not belong to it. -/
def Ends (rest : List Char) : Prop := ∀ c ∈ rest.head?, isNumeral c = false

@[simp] theorem numeric_nil : Numeric [] := fun _ => nofun

@[simp] theorem numeric_cons {c : Char} : Numeric (c :: a) ↔ isNumeral c = true ∧ Numeric a :=
  List.forall_mem_cons

@[simp] theorem numeric_append : Numeric (a ++ b) ↔ Numeric a ∧ Numeric b := List.forall_mem_append

theorem numeric_of_allDigits (digits : AllDigits a) : Numeric a := fun c member => by
  rw [isNumeral, digits c member]
  rfl

@[simp] theorem numeric_toDigits (n : ℕ) : Numeric (Nat.toDigits 10 n) :=
  numeric_of_allDigits (allDigits_toDigits n)

@[simp] theorem numeric_zeros (n : ℕ) : Numeric (Layout.zeros n) :=
  numeric_of_allDigits (allDigits_zeros n)

@[simp] theorem numeric_signText (sign : Sign) : Numeric (Layout.signText sign) := by
  cases sign <;> simp [Layout.signText, isNumeral]

theorem Numeric.ite {p : Prop} [Decidable p] (yes : Numeric a) (no : Numeric b) :
    Numeric (if p then a else b) := by
  split
  · exact yes
  · exact no

theorem Numeric.take (numeric : Numeric a) (n : ℕ) : Numeric (a.take n) :=
  fun c member => numeric c (List.mem_of_mem_take member)

theorem Numeric.drop (numeric : Numeric a) (n : ℕ) : Numeric (a.drop n) :=
  fun c member => numeric c (List.mem_of_mem_drop member)

theorem takeWhile_append_of_ends (numeric : Numeric a) (ends : Ends r) :
    (a ++ r).takeWhile isNumeral = a := by
  rw [List.takeWhile_append_of_pos numeric]
  cases r with
  | nil => simp
  | cons c r =>
    have other := ends c rfl
    rw [List.takeWhile_cons_of_neg (by simp [other]), List.append_nil]

theorem numeric_inj (first : Numeric a) (second : Numeric b) (ends : Ends r) (ends' : Ends s)
    (same : a ++ r = b ++ s) : a = b ∧ r = s := by
  have number : a = b := by
    rw [← takeWhile_append_of_ends first ends, same, takeWhile_append_of_ends second ends']
  exact ⟨number, List.append_cancel_left (number ▸ same)⟩

theorem numeric_int (n : ℤ) : Numeric (scalarText (.int n)) := by
  rw [scalarText, toString_toList]
  simp

variable (layout : Layout) (d : Decimal)

theorem numeric_positionalText (digits : Numeric a) (exponent : ℤ) :
    Numeric (layout.positionalText a exponent) := by
  have point : isNumeral '.' = true := rfl
  have zero : isNumeral '0' = true := rfl
  have mark : Numeric (if layout.wholeMark then ['.', '0'] else []) :=
    .ite (by simp [point, zero]) numeric_nil
  refine .ite (by simp [digits, mark]) (.ite ?_ ?_)
  · simp [digits.take, digits.drop, point]
  · simp [digits, point, zero]

theorem numeric_scientificText (digits : Numeric a) (leading : ℤ) :
    Numeric (layout.scientificText a leading) := by
  have sign : Numeric (if leading < 0 then ['-'] else if layout.plusSign then ['+'] else []) :=
    .ite (by simp [isNumeral]) (.ite (by simp [isNumeral]) numeric_nil)
  have mark : isNumeral 'e' = true := rfl
  have behind := digits.drop 1
  unfold Layout.scientificText
  simp only [numeric_append, numeric_cons]
  refine ⟨⟨⟨digits.take 1, ?_⟩, mark, sign⟩, numeric_toDigits _⟩
  split
  · exact numeric_nil
  · exact numeric_cons.mpr ⟨rfl, behind⟩

theorem numeric_decimalText : Numeric (layout.decimalText d) :=
  .ite (numeric_positionalText layout (numeric_toDigits _) _)
    (numeric_scientificText layout (numeric_toDigits _) _)

theorem marked_decimalText : '.' ∈ Layout.json.decimalText d ∨ 'e' ∈ Layout.json.decimalText d := by
  unfold Layout.decimalText Layout.positionalText Layout.scientificText
  dsimp only [Layout.json]
  split_ifs <;> simp

theorem not_marked_int (n : ℤ) : '.' ∉ scalarText (.int n) ∧ 'e' ∉ scalarText (.int n) := by
  have digits := allDigits_toDigits n.natAbs
  have point : '.' ∉ Nat.toDigits 10 n.natAbs := fun member => absurd (digits _ member) (by decide)
  have mark : 'e' ∉ Nat.toDigits 10 n.natAbs := fun member => absurd (digits _ member) (by decide)
  rw [scalarText, toString_toList]
  cases signOf n <;> simp [Layout.signText, point, mark]

section Doubles

variable {x : Float}

theorem floatText_eq (finite : x.isFinite = true) :
    ∃ sign d, scalarText (.float x) = Layout.signText sign ++ Layout.json.decimalText d := by
  rw [scalarText, if_pos finite, text_eq]
  rcases parts_of_isFinite finite with ⟨sign, form⟩ | ⟨sign, m, e, pos, form⟩
  all_goals
    rw [form]
    exact ⟨_, _, rfl⟩

theorem numeric_float (finite : x.isFinite = true) : Numeric (scalarText (.float x)) := by
  obtain ⟨sign, d, text⟩ := floatText_eq finite
  simp [text, numeric_decimalText]

theorem marked_float (finite : x.isFinite = true) :
    '.' ∈ scalarText (.float x) ∨ 'e' ∈ scalarText (.float x) := by
  obtain ⟨sign, d, text⟩ := floatText_eq finite
  rw [text, List.mem_append, List.mem_append]
  exact (marked_decimalText d).imp .inr .inr

end Doubles

end Numerals

mutual

def Finite : Json → Prop
  | float x => x.isFinite = true
  | list items => AllFinite items
  | object members => MembersFinite members
  | null | bool _ | int _ | str _ => True

def AllFinite : List Json → Prop
  | [] => True
  | item :: rest => item.Finite ∧ AllFinite rest

def MembersFinite : List (String × Json) → Prop
  | [] => True
  | (_, value) :: rest => value.Finite ∧ MembersFinite rest

end

inductive Shape
  | number | word | list | object

def shape : Json → Shape
  | int _ | float _ => .number
  | null | bool _ | str _ => .word
  | list _ => .list
  | object _ => .object

def Shape.ofFirst (c : Char) : Shape :=
  if isNumeral c then .number
  else if c = '[' then .list
  else if c = Char.ofNat 0x7b then .object
  else .word

namespace State

variable {s t u : State} {a b : Json} {cs ds : List Char}

theorem Reads.split (reads : s.Reads (cs ++ ds) u) : ∃ t, s.Reads cs t ∧ t.Reads ds u := by
  induction cs generalizing s with
  | nil => exact ⟨s, .none, reads⟩
  | cons c cs ih =>
    cases reads with
    | more first rest =>
      obtain ⟨t, before, behind⟩ := ih rest
      exact ⟨t, .more first before, behind⟩

theorem Reads.unique (reads : s.Reads cs t) (again : s.Reads cs u) : t = u := by
  induction reads with
  | none =>
    cases again
    rfl
  | more first _ ih =>
    cases again with
    | more first' rest =>
      cases first.symm.trans first'
      exact ih rest

theorem Reads.eq_complete (reads : (State.complete a []).Reads cs t) : t = .complete a [] := by
  generalize start : State.complete a [] = s at reads
  induction reads with
  | none => rfl
  | @more _ _ _ c _ first _ ih =>
    subst start
    change takeAfter a [] c = _ at first
    unfold takeAfter at first
    split at first
    · cases first
      exact ih rfl
    · cases first

theorem Reads.complete_unique (longer : s.Reads (cs ++ ds) (.complete b []))
    (reads : s.Reads cs (.complete a [])) : b = a := by
  obtain ⟨t, before, behind⟩ := longer.split
  obtain rfl := before.unique reads
  cases behind.eq_complete
  rfl

end State

section Scalars

variable {a b : Json} {r s : List Char}

theorem numeric_number (number : a.shape = .number) (finite : a.Finite) : Numeric (scalarText a) := by
  cases a with
  | int n => exact numeric_int n
  | float x => exact numeric_float finite
  | null | bool | str | list | object => cases number

theorem number_inj (number : a.shape = .number) (number' : b.shape = .number) (finite : a.Finite)
    (finite' : b.Finite) (same : scalarText a = scalarText b) : a = b := by
  cases a with
  | int m =>
    cases b with
    | int n => exact congrArg int (Int.repr_injective (String.toList_injective same))
    | float y =>
      obtain ⟨point, mark⟩ := not_marked_int m
      rw [same] at point mark
      exact absurd (marked_float finite') (not_or.mpr ⟨point, mark⟩)
    | null | bool | str | list | object => cases number'
  | float x =>
    cases b with
    | int n =>
      obtain ⟨point, mark⟩ := not_marked_int n
      rw [← same] at point mark
      exact absurd (marked_float finite) (not_or.mpr ⟨point, mark⟩)
    | float y =>
      have text : (float x).text = (float y).text := by
        rw [Json.text, Json.text, textThen, textThen, same]
      have flat : 0 < depthLimit := by decide
      have read := (ofText_text (float x) finite).1 flat
      have read' := (ofText_text (float y) finite').1 flat
      rw [text] at read
      exact Except.ok.inj (read.symm.trans read')
    | null | bool | str | list | object => cases number'
  | null | bool | str | list | object => cases number

theorem reads_word_complete (word : a.shape = .word) :
    (⟨.value .plain, []⟩ : State).Reads (scalarText a) (.complete a []) := by
  cases a with
  | null => exact reads_null [] .plain
  | bool b => exact reads_bool [] .plain b
  | str s => exact reads_str [] .plain s
  | int | float | list | object => cases word

theorem word_inj (word : a.shape = .word) (word' : b.shape = .word)
    (same : scalarText a ++ r = scalarText b ++ s) : a = b ∧ r = s := by
  have value : a = b := by
    rcases List.append_eq_append_iff.mp same with ⟨more, text, -⟩ | ⟨more, text, -⟩
    · have longer := reads_word_complete word'
      rw [text] at longer
      exact (longer.complete_unique (reads_word_complete word)).symm
    · have longer := reads_word_complete word
      rw [text] at longer
      exact longer.complete_unique (reads_word_complete word')
  exact ⟨value, List.append_cancel_left (value ▸ same)⟩

theorem textThen_scalar (scalar : a.shape = .number ∨ a.shape = .word) (rest : List Char) :
    a.textThen rest = scalarText a ++ rest := by
  cases a with
  | null | bool | int | float | str => rfl
  | list | object => rcases scalar with kind | kind <;> cases kind

theorem exists_cons_of_number (number : a.shape = .number) (finite : a.Finite) :
    ∃ c cs, scalarText a = c :: cs := by
  refine List.exists_cons_of_ne_nil fun none => ?_
  cases a with
  | int n =>
    rw [scalarText, toString_toList, List.append_eq_nil_iff] at none
    exact Nat.toDigits_ne_nil none.2
  | float x =>
    have marked := marked_float finite
    rw [none] at marked
    simp at marked
  | null | bool | str | list | object => cases number

theorem exists_first (finite : a.Finite) (rest : List Char) :
    ∃ c cs, a.textThen rest = c :: cs ∧ c ≠ ']' ∧ Shape.ofFirst c = a.shape := by
  have ofNumber (number : a.shape = .number) :
      ∃ c cs, a.textThen rest = c :: cs ∧ c ≠ ']' ∧ Shape.ofFirst c = a.shape := by
    obtain ⟨c, cs, text⟩ := exists_cons_of_number number finite
    have numeric := numeric_number number finite
    rw [text, numeric_cons] at numeric
    refine ⟨c, cs ++ rest, ?_, ?_, ?_⟩
    · rw [textThen_scalar (.inl number), text, List.cons_append]
    · rintro rfl
      exact absurd numeric.1 (by decide)
    · rw [Shape.ofFirst, if_pos numeric.1, number]
  cases a with
  | int | float => exact ofNumber rfl
  | null => exact ⟨_, _, rfl, by decide, rfl⟩
  | bool b => cases b <;> exact ⟨_, _, rfl, by decide, rfl⟩
  | str | list | object => exact ⟨_, _, rfl, by decide, rfl⟩

theorem scalar_inj (kind : a.shape = b.shape) (scalar : b.shape = .number ∨ b.shape = .word)
    (finite : a.Finite) (finite' : b.Finite) (ends : Ends r) (ends' : Ends s)
    (same : a.textThen r = b.textThen s) : a = b ∧ r = s := by
  rw [textThen_scalar (kind ▸ scalar), textThen_scalar scalar] at same
  rcases scalar with number | word
  · have number' := kind.trans number
    obtain ⟨text, rest⟩ := numeric_inj (numeric_number number' finite)
      (numeric_number number finite') ends ends' same
    exact ⟨number_inj number' number finite finite' text, rest⟩
  · exact word_inj (kind.trans word) word same

theorem quoted_inj {name other : String} (same : quoted name ++ r = quoted other ++ s) :
    name = other ∧ r = s := by
  obtain ⟨string, rest⟩ := word_inj (a := .str name) (b := .str other) rfl rfl same
  exact ⟨Json.str.inj string, rest⟩

end Scalars

section Texts

variable {r s : List Char}

theorem ends_nil : Ends [] := by
  intro c first
  cases first

theorem ends_cons {c : Char} (other : isNumeral c = false) (rest : List Char) : Ends (c :: rest) := by
  intro d first
  cases first
  exact other

section Lists

variable {α : Type} (write : List α → List Char → List Char)

def behindFirst : List α → List Char → List Char
  | [], rest => rest
  | x :: xs, rest => ',' :: write (x :: xs) rest

variable {write} {xs ys : List α} {close : Char}

theorem ends_behindFirst (other : isNumeral close = false) (xs : List α) (rest : List Char) :
    Ends (behindFirst write xs (close :: rest)) := by
  cases xs with
  | nil => exact ends_cons other rest
  | cons => exact ends_cons rfl _

theorem behindFirst_inj (none : ∀ rest, write [] rest = rest) (other : close ≠ ',')
    (same : behindFirst write xs (close :: r) = behindFirst write ys (close :: s)) :
    write xs (close :: r) = write ys (close :: s) := by
  cases xs with
  | nil =>
    cases ys with
    | nil =>
      rw [none, none]
      exact same
    | cons => exact absurd (List.cons.inj same).1 other
  | cons =>
    cases ys with
    | nil => exact absurd (List.cons.inj same).1.symm other
    | cons => exact (List.cons.inj same).2

theorem itemsThen_cons (item : Json) (items : List Json) (rest : List Char) :
    itemsThen (item :: items) rest = item.textThen (behindFirst itemsThen items rest) := by
  cases items <;> rfl

theorem membersThen_cons (name : String) (value : Json) (members : List (String × Json))
    (rest : List Char) :
    membersThen ((name, value) :: members) rest =
      quoted name ++ ':' :: value.textThen (behindFirst membersThen members rest) := by
  cases members <;> rfl

end Lists

mutual

/-- Where no number goes on behind it, a text tells its value and what is written behind it. -/
theorem textThen_inj (a b : Json) (finite : a.Finite) (finite' : b.Finite) {r s : List Char}
    (ends : Ends r) (ends' : Ends s) (same : a.textThen r = b.textThen s) : a = b ∧ r = s := by
  have kind : a.shape = b.shape := by
    obtain ⟨c, cs, first, -, shape⟩ := exists_first finite r
    obtain ⟨d, ds, first', -, shape'⟩ := exists_first finite' s
    rw [first, first'] at same
    rw [← shape, ← shape', (List.cons.inj same).1]
  cases a with
  | null | bool | str => exact scalar_inj kind (.inr kind.symm) finite finite' ends ends' same
  | int | float => exact scalar_inj kind (.inl kind.symm) finite finite' ends ends' same
  | list xs =>
    cases b with
    | list ys =>
      obtain ⟨items, rest⟩ := itemsThen_inj xs ys finite finite' (List.cons.inj same).2
      exact ⟨congrArg list items, rest⟩
    | null | bool | int | float | str | object => cases kind
  | object ms =>
    cases b with
    | object ns =>
      obtain ⟨members, rest⟩ := membersThen_inj ms ns finite finite' (List.cons.inj same).2
      exact ⟨congrArg object members, rest⟩
    | null | bool | int | float | str | list => cases kind

theorem itemsThen_inj (xs ys : List Json) (finite : AllFinite xs) (finite' : AllFinite ys)
    {r s : List Char} (same : itemsThen xs (']' :: r) = itemsThen ys (']' :: s)) :
    xs = ys ∧ r = s :=
  match xs, ys with
  | [], [] => ⟨rfl, (List.cons.inj same).2⟩
  | [], y :: ys => by
    obtain ⟨c, cs, first, opens, -⟩ := exists_first finite'.1 (behindFirst itemsThen ys (']' :: s))
    rw [itemsThen_cons, first] at same
    exact absurd (List.cons.inj same).1.symm opens
  | x :: xs, [] => by
    obtain ⟨c, cs, first, opens, -⟩ := exists_first finite.1 (behindFirst itemsThen xs (']' :: r))
    rw [itemsThen_cons, first] at same
    exact absurd (List.cons.inj same).1 opens
  | x :: xs, y :: ys => by
    rw [itemsThen_cons, itemsThen_cons] at same
    obtain ⟨item, behind⟩ := textThen_inj x y finite.1 finite'.1 (ends_behindFirst rfl xs r)
      (ends_behindFirst rfl ys s) same
    obtain ⟨items, rest⟩ := itemsThen_inj xs ys finite.2 finite'.2
      (behindFirst_inj (fun _ => rfl) (by decide) behind)
    exact ⟨congrArg₂ List.cons item items, rest⟩

theorem membersThen_inj (ms ns : List (String × Json)) (finite : MembersFinite ms)
    (finite' : MembersFinite ns) {r s : List Char}
    (same : membersThen ms (Char.ofNat 0x7d :: r) = membersThen ns (Char.ofNat 0x7d :: s)) :
    ms = ns ∧ r = s :=
  match ms, ns with
  | [], [] => ⟨rfl, (List.cons.inj same).2⟩
  | [], (name, value) :: ns => by
    rw [membersThen_cons] at same
    exact absurd (List.cons.inj same).1 (by decide)
  | (name, value) :: ms, [] => by
    rw [membersThen_cons] at same
    exact absurd (List.cons.inj same).1 (by decide)
  | (name, value) :: ms, (name', value') :: ns => by
    rw [membersThen_cons, membersThen_cons] at same
    obtain ⟨rfl, after⟩ := quoted_inj same
    obtain ⟨rfl, behind⟩ := textThen_inj value value' finite.1 finite'.1
      (ends_behindFirst rfl ms r) (ends_behindFirst rfl ns s) (List.cons.inj after).2
    obtain ⟨members, rest⟩ := membersThen_inj ms ns finite.2 finite'.2
      (behindFirst_inj (fun _ => rfl) (by decide) behind)
    exact ⟨congrArg _ members, rest⟩

end

theorem text_inj {a b : Json} (finite : a.Finite) (finite' : b.Finite) (same : a.text = b.text) :
    a = b :=
  (textThen_inj a b finite finite' ends_nil ends_nil same).1

end Texts

end Json

end MonkeyLang
