import MonkeyLang.Proofs.Text.Lines
import MonkeyLang.Report

namespace MonkeyLang

namespace Text

theorem length_le_byteLength (a : List Char) : a.length ≤ byteLength a := by
  induction a with
  | nil => exact Nat.le_refl 0
  | cons c a ih =>
    have size := c.utf8Size_pos
    rw [List.length_cons, byteLength_cons]
    omega

theorem byteLength_eq_length_iff {a : List Char} :
    byteLength a = a.length ↔ ∀ c ∈ a, c.utf8Size = 1 := by
  induction a with
  | nil => simp
  | cons c a ih =>
    have size := c.utf8Size_pos
    have rest := length_le_byteLength a
    rw [List.forall_mem_cons, ← ih, List.length_cons, byteLength_cons]
    omega

end Text

namespace Report

open Text

/-- In front of the rest, each line of the text ends with a newline, perhaps behind a carriage
    return, and nothing else ends one. -/
def NewlinesOnly (before after : List Char) : Prop :=
  ∀ front c rest, before = front ++ c :: rest → endsLine c = true →
    c = '\n' ∨ c = '\r' ∧ (rest ++ after).head? = some '\n'

/-- A line ends behind the character: it is no carriage return in front of a newline. -/
def Breaks (c : Char) (rest : List Char) : Prop :=
  endsLine c = true ∧ ¬(c = '\r' ∧ rest.head? = some '\n')

section Starts

variable {count : Nat} {c : Char} {before after rest : List Char}

instance (c : Char) (rest : List Char) : Decidable (Breaks c rest) :=
  inferInstanceAs (Decidable (_ ∧ _))

theorem breaks_newline (rest : List Char) : Breaks '\n' rest := by
  refine ⟨rfl, fun return' => ?_⟩
  exact absurd return'.1 (by decide)

theorem lineStarts_alone (alone : ¬(c = '\r' ∧ rest.head? = some '\n')) :
    lineStarts count (c :: rest) =
      if endsLine c then
        if rest.isEmpty then [] else (count + 1) :: lineStarts (count + 1) rest
      else lineStarts (count + 1) rest := by
  rw [lineStarts]
  rintro later rfl rfl
  exact alone ⟨rfl, rfl⟩

theorem lineStarts_cons (more : rest ≠ []) :
    lineStarts count (c :: rest) =
      (if Breaks c rest then [count + 1] else []) ++ lineStarts (count + 1) rest := by
  have full : rest.isEmpty = false := Bool.eq_false_iff.mpr (mt List.isEmpty_iff.mp more)
  by_cases pair : c = '\r' ∧ rest.head? = some '\n'
  · -- The newline ends the line for both.
    have early : ¬ Breaks c rest := fun breaks => breaks.2 pair
    obtain ⟨rfl, first⟩ := pair
    obtain ⟨later, rfl⟩ := List.head?_eq_some_iff.mp first
    have newline : ¬ ('\n' = '\r' ∧ later.head? = some '\n') := fun both =>
      absurd both.1 (by decide)
    rw [if_neg early, List.nil_append, lineStarts_alone newline, lineStarts]
    rfl
  · rw [lineStarts_alone pair, full]
    by_cases ends : endsLine c = true
    · have breaks : Breaks c rest := ⟨ends, pair⟩
      rw [if_pos ends, if_pos breaks]
      rfl
    · have inside : ¬ Breaks c rest := fun breaks => ends breaks.1
      rw [if_neg ends, if_neg inside]
      rfl

theorem lt_of_mem_lineStarts {n : Nat} {text : List Char} (member : n ∈ lineStarts count text) :
    count < n := by
  induction text generalizing count with
  | nil => cases member
  | cons c rest ih =>
    by_cases more : rest = []
    · subst more
      rw [lineStarts_alone (by simp)] at member
      simp [lineStarts] at member
    · rw [lineStarts_cons more, List.mem_append] at member
      rcases member with member | member
      · split at member
        · rw [List.mem_singleton.mp member]
          exact Nat.lt_succ_self count
        · cases member
      · exact Nat.lt_of_succ_lt (ih member)

def startsWithin (count : Nat) : List Char → List Char → List Nat
  | [], _ => []
  | c :: rest, after =>
    (if Breaks c (rest ++ after) then [count + 1] else []) ++ startsWithin (count + 1) rest after

theorem lineStarts_append (more : after ≠ []) :
    lineStarts count (before ++ after) =
      startsWithin count before after ++ lineStarts (count + before.length) after := by
  induction before generalizing count with
  | nil => rfl
  | cons c before ih =>
    have full : before ++ after ≠ [] := List.append_ne_nil_of_right_ne_nil before more
    rw [List.cons_append, lineStarts_cons full, ih, startsWithin, List.append_assoc,
      List.length_cons, Nat.add_assoc, Nat.add_comm 1]

theorem startsWithin_append (a b : List Char) :
    startsWithin count (a ++ b) after =
      startsWithin count a (b ++ after) ++ startsWithin (count + a.length) b after := by
  induction a generalizing count with
  | nil => rfl
  | cons c a ih =>
    rw [List.cons_append, startsWithin, ih, startsWithin, List.append_assoc, List.append_assoc,
      List.length_cons, Nat.add_assoc, Nat.add_comm 1]

theorem le_of_mem_startsWithin {n : Nat} (member : n ∈ startsWithin count before after) :
    n ≤ count + before.length := by
  induction before generalizing count with
  | nil => cases member
  | cons c before ih =>
    rw [startsWithin, List.mem_append] at member
    rw [List.length_cons]
    rcases member with member | member
    · split at member
      · rw [List.mem_singleton.mp member]
        omega
      · cases member
    · have later := ih member
      omega

theorem newlinesOnly_cons :
    NewlinesOnly (c :: before) after ↔
      (Breaks c (before ++ after) → c = '\n') ∧ NewlinesOnly before after := by
  constructor
  · intro only
    refine ⟨fun breaks => (only [] c before rfl breaks.1).resolve_right breaks.2, ?_⟩
    rintro front d rest rfl ends
    exact only (c :: front) d rest rfl ends
  · rintro ⟨first, only⟩ front d rest same ends
    cases front with
    | nil =>
      obtain ⟨rfl, rfl⟩ := List.cons.inj same
      by_cases pair : c = '\r' ∧ (before ++ after).head? = some '\n'
      · exact .inr pair
      · exact .inl (first ⟨ends, pair⟩)
    | cons _ front =>
      obtain ⟨-, same⟩ := List.cons.inj same
      exact only front d rest same ends

theorem count_le_length_startsWithin (count : Nat) (before after : List Char) :
    before.count '\n' ≤ (startsWithin count before after).length ∧
      ((startsWithin count before after).length = before.count '\n' ↔
        NewlinesOnly before after) := by
  induction before generalizing count with
  | nil =>
    refine ⟨Nat.le_refl 0, fun _ => ?_, fun _ => rfl⟩
    intro front d rest same
    simp at same
  | cons c before ih =>
    obtain ⟨least, iff⟩ := ih (count + 1)
    rw [startsWithin, newlinesOnly_cons, ← iff, List.length_append, List.count_cons]
    by_cases newline : c = '\n'
    · subst newline
      rw [if_pos (breaks_newline _)]
      simp
      omega
    · by_cases breaks : Breaks c (before ++ after)
      · simp [newline, breaks]
        omega
      · simp [newline, breaks, least]

end Starts

section Place

variable {earlier front after : List Char}

theorem getLastD_startsWithin (begins : LineBegins earlier) (inside : '\n' ∉ front)
    (only : NewlinesOnly (earlier ++ front) after) :
    (startsWithin 0 (earlier ++ front) after).getLastD 0 = earlier.length := by
  have none : startsWithin (0 + earlier.length) front after = [] := by
    have behind : NewlinesOnly front after := by
      rintro ahead c rest rfl ends
      exact only (earlier ++ ahead) c rest (List.append_assoc _ _ _).symm ends
    rw [← List.length_eq_zero_iff, (count_le_length_startsWithin _ _ _).2.mpr behind,
      List.count_eq_zero.mpr inside]
  rw [startsWithin_append, none, List.append_nil]
  rcases begins with rfl | ⟨earlier, rfl⟩
  · rfl
  · rw [startsWithin_append, startsWithin, if_pos (breaks_newline _)]
    simp [startsWithin]

/-- A range that starts behind some lines and the front of another one by its bytes is shown there
    exactly if it starts there by its characters as well, only newlines end those lines, and the
    text is not shorter than the range by more than one. -/
theorem place?_eq_iff {range : Span} (begins : LineBegins earlier) (inside : '\n' ∉ front)
    (more : after ≠ []) (start : range.start = byteLength (earlier ++ front)) :
    place? (earlier ++ front ++ after) range =
        some (earlier.count '\n' + 1, front.length + 1) ↔
      (∀ c ∈ earlier ++ front, c.utf8Size = 1) ∧ NewlinesOnly (earlier ++ front) after ∧
        range.stop ≤ (earlier ++ front ++ after).length + 1 := by
  have bytes := length_le_byteLength (earlier ++ front)
  have starts : (lineStarts 0 (earlier ++ front ++ after)).filter (· ≤ range.start) =
      startsWithin 0 (earlier ++ front) after ++
        (lineStarts (earlier ++ front).length after).filter (· ≤ range.start) := by
    rw [lineStarts_append more, List.filter_append, Nat.zero_add]
    congr 1
    refine List.filter_eq_self.mpr fun n member => decide_eq_true ?_
    have within := le_of_mem_startsWithin member
    omega
  obtain ⟨least, only⟩ := count_le_length_startsWithin 0 (earlier ++ front) after
  rw [count_newlines_append earlier inside] at least only
  rw [← byteLength_eq_length_iff, ← only]
  rw [place?, starts]
  generalize beyond : (lineStarts (earlier ++ front).length after).filter (· ≤ range.start) = later
  have size : (earlier ++ front).length = earlier.length + front.length := List.length_append
  constructor
  · intro shown
    dsimp only at shown
    split at shown
    · cases shown
    rename_i within
    obtain ⟨line, column⟩ := Prod.mk.inj (Option.some.inj shown)
    rw [List.length_append] at line
    have none : later = [] := List.length_eq_zero_iff.mp (by omega)
    have exactly : (startsWithin 0 (earlier ++ front) after).length = earlier.count '\n' := by omega
    rw [none, List.append_nil,
      getLastD_startsWithin begins inside (only.mp exactly)] at column
    refine ⟨by omega, exactly, ?_⟩
    simp only [Bool.or_eq_true, Bool.and_eq_true, decide_eq_true_eq, not_or, not_and] at within
    omega
  · rintro ⟨narrow, exactly, short⟩
    have none : later = [] := by
      rw [← beyond, List.filter_eq_nil_iff]
      intro n member
      have behind := lt_of_mem_lineStarts member
      simp only [decide_eq_true_eq]
      omega
    have least : (earlier ++ front).length ≤ (earlier ++ front ++ after).length := by simp
    rw [if_neg, none, List.append_nil]
    · dsimp only
      rw [exactly, getLastD_startsWithin begins inside (only.mp exactly)]
      congr 2
      omega
    · simp only [Bool.or_eq_true, Bool.and_eq_true, decide_eq_true_eq, not_or, not_and]
      omega

end Place

end Report

end MonkeyLang
