import MonkeyLang.Proofs.Json.Double

namespace MonkeyLang

namespace Json

open State

mutual

def depth : Json → Nat
  | list items => depthAll items + 1
  | _ => 0

def depthAll : List Json → Nat
  | [] => 0
  | item :: rest => max item.depth (depthAll rest)

end

mutual

/-- The text tells the value from all others: whole numbers have 64 bits, doubles are finite, and
    there are no objects. -/
def Exact : Json → Prop
  | int n => -0x8000000000000000 ≤ n ∧ n < 0x10000000000000000
  | float x => x.isFinite = true
  | list items => AllExact items
  | object _ => False
  | null | bool _ | str _ => True

def AllExact : List Json → Prop
  | [] => True
  | item :: rest => item.Exact ∧ AllExact rest

end

inductive State.Refuses : State → List Char → Prop
  | here {s : State} {c : Char} {cs : List Char} (place : Place) (expects : s.mode = .value place)
      (refused : s.take c = .error .tooDeep) : Refuses s (c :: cs)
  | later {s t : State} {c : Char} {cs : List Char} (first : s.take c = .ok t)
      (rest : Refuses t cs) : Refuses s (c :: cs)

section Refuses

variable {s t : State} {cs ds : List Char}

theorem State.Refuses.append (refused : s.Refuses cs) (ds : List Char) : s.Refuses (cs ++ ds) := by
  induction refused with
  | here place expects refused => exact .here place expects refused
  | later first _ ih => exact .later first ih

theorem State.Reads.refuses (reads : s.Reads cs t) (refused : t.Refuses ds) :
    s.Refuses (cs ++ ds) := by
  induction reads with
  | none => exact refused
  | more first _ ih => exact .later first (ih refused)

theorem State.Refuses.read (refused : s.Refuses cs) (length offset : Nat) :
    ∃ place, s.read length offset cs = .error ⟨.tooDeep, place⟩ := by
  induction refused generalizing offset with
  | here place expects refused =>
    refine ⟨offset + 1, ?_⟩
    rw [State.read, refused]
    dsimp only
    unfold State.fault
    rw [expects]
  | later first _ ih =>
    rw [State.read, first]
    exact ih _

end Refuses

section Text

variable {item : Json} {items : List Json} {place : Place} {done : List Json} {outer : List Open}

theorem reads_lastItem {s : State}
    (reads : (⟨.value place, .list done :: outer⟩ : State).Reads item.text s)
    (behind : s.Behind item (.list done :: outer)) :
    (⟨.value place, .list done :: outer⟩ : State).Reads (itemsThen [item] [']'])
      (.complete (.list (done.reverse ++ [item])) outer) := by
  rw [itemsThen, textThen_eq_text_append]
  refine reads.append (.one (behind.bracket.trans ?_))
  rw [← List.reverse_cons]
  rfl

theorem reads_nextItem {s : State}
    (reads : (⟨.value place, .list done :: outer⟩ : State).Reads item.text s)
    (behind : s.Behind item (.list done :: outer)) :
    (⟨.value place, .list done :: outer⟩ : State).Reads (item.text ++ [','])
      ⟨.value .next, .list (item :: done) :: outer⟩ :=
  reads.append (.one (behind.comma.trans rfl))

theorem take_bracket_eq (place : Place) (enclosing : List Open) :
    (⟨.value place, enclosing⟩ : State).take '[' =
      if enclosing.length + 1 = depthLimit then .error .tooDeep
      else .ok ⟨.value .first, .list [] :: enclosing⟩ := by
  cases place <;> rfl

theorem take_bracket (place : Place) {enclosing : List Open}
    (shallow : enclosing.length + 1 ≠ depthLimit) :
    (⟨.value place, enclosing⟩ : State).take '[' = .ok ⟨.value .first, .list [] :: enclosing⟩ := by
  rw [take_bracket_eq, if_neg shallow]

theorem take_lastBracket (place : Place) {enclosing : List Open}
    (last : enclosing.length + 1 = depthLimit) :
    (⟨.value place, enclosing⟩ : State).take '[' = .error .tooDeep := by
  rw [take_bracket_eq, if_pos last]

mutual

theorem reads_text (json : Json) (exact : json.Exact) (place : Place) (enclosing : List Open)
    (shallow : enclosing.length + json.depth < depthLimit) :
    ∃ s : State, (⟨.value place, enclosing⟩ : State).Reads json.text s ∧
      s.Behind json enclosing :=
  match json with
  | null => ⟨_, reads_null enclosing place, behind_complete _ _⟩
  | bool b => by
    rw [text, textThen, List.append_nil]
    exact ⟨_, reads_bool enclosing place b, behind_complete _ _⟩
  | int n => by
    rw [text, textThen, List.append_nil]
    exact reads_int place enclosing exact.1 exact.2
  | float x => by
    rw [text, textThen, List.append_nil]
    exact reads_float place enclosing exact
  | str s => by
    rw [text, textThen, List.append_nil]
    exact ⟨_, reads_str enclosing place s, behind_complete _ _⟩
  | object _ => exact.elim
  | list items => by
    rw [depth] at shallow
    have room : enclosing.length + 1 ≠ depthLimit := by omega
    have opened := take_bracket place room
    have rest := reads_items items exact .first [] enclosing (by omega) (fun _ => ⟨rfl, rfl⟩)
    exact ⟨_, .more opened rest, behind_complete _ _⟩

theorem reads_items (items : List Json) (exact : AllExact items) (place : Place)
    (done : List Json) (outer : List Open)
    (shallow : outer.length + 1 + depthAll items < depthLimit)
    (begun : items = [] → place = .first ∧ done = []) :
    (⟨.value place, .list done :: outer⟩ : State).Reads (itemsThen items [']'])
      (.complete (.list (done.reverse ++ items)) outer) :=
  match items with
  | [] => by
    obtain ⟨rfl, rfl⟩ := begun rfl
    exact .one rfl
  | [item] => by
    rw [depthAll, depthAll] at shallow
    obtain ⟨s, reads, behind⟩ := reads_text item exact.1 place (.list done :: outer)
      (by rw [List.length_cons]; omega)
    exact reads_lastItem reads behind
  | item :: next :: items => by
    rw [depthAll] at shallow
    obtain ⟨s, reads, behind⟩ := reads_text item exact.1 place (.list done :: outer)
      (by rw [List.length_cons]; omega)
    have rest := reads_items (next :: items) exact.2 .next (item :: done) outer (by omega)
      (fun none => absurd none (List.cons_ne_nil _ _))
    have whole := (reads_nextItem reads behind).append rest
    rw [List.reverse_cons, List.append_assoc, List.append_assoc] at whole
    rw [itemsThen, textThen_eq_text_append]
    exact whole

end

mutual

theorem refuses_text (json : Json) (exact : json.Exact) (place : Place) (enclosing : List Open)
    (inside : enclosing.length < depthLimit) (deep : depthLimit ≤ enclosing.length + json.depth) :
    (⟨.value place, enclosing⟩ : State).Refuses json.text :=
  match json with
  | null | bool _ | int _ | float _ | str _ => by
    have flat : depthLimit ≤ enclosing.length + 0 := deep
    omega
  | object _ => exact.elim
  | list items => by
    rw [depth] at deep
    rcases Nat.eq_or_lt_of_le (Nat.succ_le_of_lt inside) with last | shallow
    · exact .here place rfl (take_lastBracket place last)
    · have room : enclosing.length + 1 ≠ depthLimit := by omega
      have opened := take_bracket place room
      exact .later opened (refuses_items items exact .first [] enclosing (by omega) (by omega))

theorem refuses_items (items : List Json) (exact : AllExact items) (place : Place)
    (done : List Json) (outer : List Open) (inside : outer.length + 1 < depthLimit)
    (deep : depthLimit ≤ outer.length + 1 + depthAll items) :
    (⟨.value place, .list done :: outer⟩ : State).Refuses (itemsThen items [']']) :=
  match items with
  | [] => by
    rw [depthAll] at deep
    omega
  | [item] => by
    rw [depthAll, depthAll] at deep
    have refused := refuses_text item exact.1 place (.list done :: outer)
      (by rw [List.length_cons]; omega) (by rw [List.length_cons]; omega)
    rw [itemsThen, textThen_eq_text_append]
    exact refused.append _
  | item :: next :: items => by
    rw [itemsThen, textThen_eq_text_append]
    -- Only the first item that is nested too deep is refused; those before it are read.
    rcases Nat.lt_or_ge (outer.length + 1 + item.depth) depthLimit with shallow | within
    · obtain ⟨s, reads, behind⟩ := reads_text item exact.1 place (.list done :: outer)
        (by rw [List.length_cons]; omega)
      have rest := refuses_items (next :: items) exact.2 .next (item :: done) outer inside
        (by rw [depthAll] at deep; omega)
      have whole := (reads_nextItem reads behind).refuses rest
      rw [List.append_assoc] at whole
      exact whole
    · have refused := refuses_text item exact.1 place (.list done :: outer)
        (by rw [List.length_cons]; omega) (by rw [List.length_cons]; omega)
      exact refused.append _

end

end Text

/-- The text of a value is read as the value, unless it nests lists too deep. -/
theorem ofText_text (json : Json) (exact : json.Exact) :
    (json.depth < depthLimit → ofText json.text = .ok json) ∧
      (depthLimit ≤ json.depth → ∃ offset, ofText json.text = .error ⟨.tooDeep, offset⟩) := by
  constructor
  · intro shallow
    obtain ⟨s, reads, behind⟩ := reads_text json exact .plain [] (by rwa [List.length_nil, Nat.zero_add])
    have read := reads.read (Text.byteLength json.text) 0 []
    rw [List.append_nil] at read
    refine read.trans ?_
    rw [State.read, behind.finish]
    rfl
  · intro deep
    have refused := refuses_text json exact .plain [] (by decide)
      (by rwa [List.length_nil, Nat.zero_add])
    exact refused.read (Text.byteLength json.text) 0

end Json

end MonkeyLang
