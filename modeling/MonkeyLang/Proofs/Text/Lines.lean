import MonkeyLang.Lines
import MonkeyLang.Text.Bytes

namespace MonkeyLang

namespace Text

def LineBegins (before : List Char) : Prop :=
  before = [] ∨ ∃ earlier, before = earlier ++ ['\n']

def LineEnds (after : List Char) : Prop :=
  after = [] ∨ ∃ later, after = '\n' :: later

/-- The range is the line of the text with the number, without its newline. The first line has
    number 1. -/
inductive IsLine : List Char → Nat → Span → Prop
  | mk {before line after : List Char} (begins : LineBegins before) (inside : '\n' ∉ line)
      (ends : LineEnds after) :
      IsLine (before ++ line ++ after) (before.count '\n' + 1)
        ⟨byteLength before, byteLength before + byteLength line⟩

end Text

open Text

theorem Text.count_newlines_append {line : List Char} (before : List Char) (inside : '\n' ∉ line) :
    (before ++ line).count '\n' = before.count '\n' := by
  rw [List.count_append, List.count_eq_zero.mpr inside, Nat.add_zero]

section Starts

variable {a : List Char}

namespace LineIndex

theorem startsFrom_append (offset : Nat) (a b : List Char) :
    startsFrom offset (a ++ b) = startsFrom offset a ++ startsFrom (offset + byteLength a) b := by
  induction a generalizing offset with
  | nil => rfl
  | cons c a ih =>
    rw [List.cons_append, startsFrom, startsFrom, ih, byteLength_cons, Nat.add_assoc]
    split <;> rfl

theorem length_startsFrom (offset : Nat) (a : List Char) :
    (startsFrom offset a).length = a.count '\n' := by
  induction a generalizing offset with
  | nil => rfl
  | cons c a ih =>
    rw [startsFrom, List.count_cons]
    by_cases newline : c = '\n'
    · simp [newline, ih]
    · simp [newline, ih]

theorem starts_behind (before after : List Char) :
    (ofText (before ++ '\n' :: after)).starts[before.count '\n']? = some (byteLength before + 1) := by
  have length := length_startsFrom 0 before
  rw [ofText, startsFrom_append, List.getElem?_append_right (Nat.le_of_eq length), length,
    Nat.sub_self, Nat.zero_add]
  rfl

theorem starts_end {n : Nat} (most : a.count '\n' ≤ n) : (ofText a).starts[n]? = none := by
  rw [List.getElem?_eq_none_iff, ofText, length_startsFrom]
  exact most

end LineIndex

end Starts

namespace Text

variable {text before after : List Char}

theorem LineBegins.append (begins : LineBegins before) (line : List Char) :
    LineBegins (line ++ '\n' :: before) := by
  rcases begins with rfl | ⟨earlier, rfl⟩
  · exact .inr ⟨line, rfl⟩
  · exact .inr ⟨line ++ '\n' :: earlier, by simp⟩

theorem exists_lineBegins (text : List Char) :
    ∃ before line, text = before ++ line ∧ LineBegins before ∧ '\n' ∉ line := by
  induction text with
  | nil => exact ⟨[], [], rfl, .inl rfl, List.not_mem_nil⟩
  | cons c text ih =>
    obtain ⟨before, line, rfl, begins, inside⟩ := ih
    by_cases newline : c = '\n'
    · subst newline
      exact ⟨'\n' :: before, line, rfl, begins.append [], inside⟩
    rcases begins with rfl | ⟨earlier, rfl⟩
    · refine ⟨[], c :: line, rfl, .inl rfl, ?_⟩
      exact List.not_mem_cons_of_ne_of_not_mem (Ne.symm newline) inside
    · exact ⟨c :: (earlier ++ ['\n']), line, rfl, .inr ⟨c :: earlier, rfl⟩, inside⟩

theorem exists_lineEnds (text : List Char) :
    ∃ line after, text = line ++ after ∧ LineEnds after ∧ '\n' ∉ line := by
  by_cases some : '\n' ∈ text
  · obtain ⟨line, later, rfl, inside⟩ := List.eq_append_cons_of_mem some
    exact ⟨line, '\n' :: later, rfl, .inr ⟨later, rfl⟩, inside⟩
  · exact ⟨text, [], (List.append_nil _).symm, .inl rfl, some⟩

theorem exists_isLine_around (before after : List Char) :
    ∃ range, IsLine (before ++ after) (before.count '\n' + 1) range ∧
      range.start ≤ byteLength before ∧ byteLength before ≤ range.stop := by
  obtain ⟨earlier, front, rfl, begins, clear⟩ := exists_lineBegins before
  obtain ⟨back, later, rfl, ends, clear'⟩ := exists_lineEnds after
  have inside : '\n' ∉ front ++ back := by
    rw [List.mem_append, not_or]
    exact ⟨clear, clear'⟩
  have line := IsLine.mk begins inside ends
  have same : earlier ++ (front ++ back) ++ later = earlier ++ front ++ (back ++ later) := by simp
  rw [same] at line
  rw [count_newlines_append earlier clear]
  refine ⟨_, line, ?_, ?_⟩
  · simp
  · simp

theorem exists_isLine {n : Nat} (most : n ≤ text.count '\n') :
    ∃ range, IsLine text (n + 1) range := by
  induction n generalizing text with
  | zero =>
    obtain ⟨range, line, -⟩ := exists_isLine_around [] text
    exact ⟨range, line⟩
  | succ n ih =>
    have some : '\n' ∈ text := List.count_pos_iff.mp (by omega)
    obtain ⟨first, later, rfl, clear⟩ := List.eq_append_cons_of_mem some
    have number : first.count '\n' = 0 := List.count_eq_zero.mpr clear
    rw [List.count_append, number, List.count_cons_self] at most
    have fewer : n ≤ later.count '\n' := by omega
    obtain ⟨range, line⟩ := ih fewer
    generalize n + 1 = m at line
    cases line with
    | @mk before line after begins inside ends =>
      have line := IsLine.mk (begins.append first) inside ends
      rw [List.count_append, number, List.count_cons_self, Nat.zero_add] at line
      simp only [List.append_assoc, List.cons_append] at line ⊢
      exact ⟨_, line⟩

theorem IsLine.range_eq {number : Nat} {range : Span} (line : IsLine text number range) :
    (LineIndex.ofText text).lineRange number (byteLength text) = range := by
  cases line with
  | @mk before line after begins inside ends =>
    have start : ((LineIndex.ofText (before ++ line ++ after)).lineRange (before.count '\n' + 1)
        (byteLength (before ++ line ++ after))).start = byteLength before := by
      rcases begins with rfl | ⟨earlier, rfl⟩
      · rfl
      · have next := LineIndex.starts_behind earlier (line ++ after)
        rw [List.count_append, List.count_singleton_self, List.append_assoc, List.append_assoc,
          List.singleton_append, byteLength_append earlier ['\n']]
        simp only [LineIndex.lineRange, next]
        rfl
    have stop : ((LineIndex.ofText (before ++ line ++ after)).lineRange (before.count '\n' + 1)
        (byteLength (before ++ line ++ after))).stop = byteLength before + byteLength line := by
      simp only [LineIndex.lineRange] at start ⊢
      rw [start, Nat.add_sub_cancel, ← count_newlines_append before inside]
      rcases ends with rfl | ⟨later, rfl⟩
      · simp [LineIndex.starts_end]
      · rw [LineIndex.starts_behind, byteLength_append]
        simp
    generalize (LineIndex.ofText (before ++ line ++ after)).lineRange _ _ = range at start stop ⊢
    cases range
    simp_all only

/-- Behind its lines a text has no other ones, and the table gives its end. -/
theorem lineRange_beyond {number : Nat} (beyond : text.count '\n' + 1 < number) :
    (LineIndex.ofText text).lineRange number (byteLength text) =
      ⟨byteLength text, byteLength text⟩ := by
  obtain ⟨n, rfl⟩ : ∃ n, number = n + 2 := ⟨number - 2, by omega⟩
  have first : (LineIndex.ofText text).starts[n]? = none := LineIndex.starts_end (by omega)
  have second : (LineIndex.ofText text).starts[n + 1]? = none := LineIndex.starts_end (by omega)
  simp [LineIndex.lineRange, first, second]

section Numbers

def newlinesBefore : List Char → Nat → Nat
  | [], _ => 0
  | c :: rest, offset =>
    (if c = '\n' ∧ 0 < offset then 1 else 0) + newlinesBefore rest (offset - c.utf8Size)

/-- The number of the line that the byte at the offset is on. The first line has number 1. -/
def lineAt (text : List Char) (offset : Nat) : Nat := newlinesBefore text offset + 1

@[simp] theorem newlinesBefore_zero (text : List Char) : newlinesBefore text 0 = 0 := by
  induction text with
  | nil => rfl
  | cons c rest ih => simp [newlinesBefore, ih]

theorem lineAt_append (before after : List Char) :
    lineAt (before ++ after) (byteLength before) = before.count '\n' + 1 := by
  unfold lineAt
  congr 1
  induction before with
  | nil => exact newlinesBefore_zero after
  | cons c rest ih =>
    have size := c.utf8Size_pos
    rw [List.cons_append, newlinesBefore, byteLength_cons, Nat.add_sub_cancel_left, ih,
      List.count_cons, Nat.add_comm]
    simp [show 0 < c.utf8Size + byteLength rest by omega]

theorem countP_startsFrom (text : List Char) (start offset : Nat) :
    (LineIndex.startsFrom start text).countP (· ≤ offset) =
      newlinesBefore text (offset - start) := by
  -- An offset in front of `start` becomes 0, and there are no newlines before that.
  induction text generalizing start with
  | nil => rfl
  | cons c rest ih =>
    rw [LineIndex.startsFrom, newlinesBefore, Nat.sub_sub]
    by_cases newline : c = '\n'
    · subst newline
      rw [if_pos rfl, List.countP_cons, ih, Nat.add_comm]
      have size : Char.utf8Size '\n' = 1 := by decide
      simp only [size, decide_eq_true_eq, true_and]
      congr 2
      exact propext (by omega)
    · simp only [newline, if_false, false_and, Nat.zero_add]
      exact ih _

theorem lineOf_ofText (text : List Char) (offset : Nat) :
    (LineIndex.ofText text).lineOf offset = lineAt text offset := by
  rw [LineIndex.lineOf, LineIndex.ofText, countP_startsFrom, Nat.sub_zero, lineAt]

end Numbers

end Text

end MonkeyLang
