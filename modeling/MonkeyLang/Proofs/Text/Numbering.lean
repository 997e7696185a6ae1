import Mathlib.Data.List.Basic
import MonkeyLang.Proofs.Text.Lines
import MonkeyLang.Proofs.Text.Slices

namespace MonkeyLang

namespace Text

section Bytes

def bytes (text : List Char) : List UInt8 := text.flatMap String.utf8EncodeChar

theorem eq_newline_of_mem {c : Char} (member : 10 ∈ String.utf8EncodeChar c) : c = '\n' := by
  have ten : UInt8.toNat 10 = 10 := rfl
  revert member
  fun_cases String.utf8EncodeChar c with
  | case1 v small =>
    intro member
    have same := congrArg UInt8.toNat (List.mem_singleton.mp member)
    rw [ten, UInt8.toNat_ofNat', Nat.mod_eq_of_lt (by omega)] at same
    exact Char.ext (UInt32.toNat_inj.mp same.symm)
  -- In the longer forms no byte is below 128.
  | case2 | case3 | case4 =>
    intro member
    simp only [List.mem_cons, List.not_mem_nil, or_false, ← UInt8.toNat_inj, UInt8.toNat_ofNat',
      ten] at member
    omega

theorem newlinesBefore_eq_count (text : List Char) (offset : Nat) :
    newlinesBefore text offset = ((bytes text).take offset).count 10 := by
  induction text generalizing offset with
  | nil => simp [newlinesBefore, bytes]
  | cons c rest ih =>
    have front : ((String.utf8EncodeChar c).take offset).count 10 =
        if c = '\n' ∧ 0 < offset then 1 else 0 := by
      by_cases newline : c = '\n'
      · subst newline
        have encoded : String.utf8EncodeChar '\n' = [10] := by decide
        rw [encoded]
        cases offset with
        | zero => rfl
        | succ n => simp
      · rw [if_neg (fun both => newline both.1), List.count_eq_zero]
        exact fun member => newline (eq_newline_of_mem (List.mem_of_mem_take member))
    have parts : bytes (c :: rest) = String.utf8EncodeChar c ++ bytes rest := List.flatMap_cons
    rw [newlinesBefore, ih, parts, List.take_append, List.count_append, front,
      String.length_utf8EncodeChar]

end Bytes

end Text

open Text

namespace LineIndex

/-- The starts before the place are up to the offset, and those from there on are behind it. -/
def PartsAt (lines : LineIndex) (offset place : Nat) : Prop :=
  place ≤ lines.starts.length ∧
    ∀ i start, lines.starts[i]? = some start → (start ≤ offset ↔ i < place)

/-- The offset is in the range of the line, its end included. -/
def Within (lines : LineIndex) (length line offset : Nat) : Prop :=
  (lines.lineRange line length).start ≤ offset ∧ offset ≤ (lines.lineRange line length).stop

section Search

variable {starts : List Nat} {lines : LineIndex} {offset place other length : Nat}

theorem PartsAt.unique (parts : lines.PartsAt offset place) (again : lines.PartsAt offset other) :
    place = other := by
  obtain ⟨most, parts⟩ := parts
  obtain ⟨most', again⟩ := again
  rcases Nat.lt_trichotomy place other with less | same | more
  · have start := List.getElem?_eq_getElem (Nat.lt_of_lt_of_le less most')
    have iff := (parts _ _ start).symm.trans (again _ _ start)
    omega
  · exact same
  · have start := List.getElem?_eq_getElem (Nat.lt_of_lt_of_le more most)
    have iff := (parts _ _ start).symm.trans (again _ _ start)
    omega

theorem partsAt_countP (sorted : starts.Pairwise (· < ·)) (offset : Nat) :
    PartsAt ⟨starts⟩ offset (starts.countP (· ≤ offset)) := by
  refine ⟨List.countP_le_length, ?_⟩
  induction sorted with
  | nil => exact nofun
  | @cons first rest before _ ih =>
    intro i start found
    by_cases least : first ≤ offset
    · have counted : (first :: rest).countP (· ≤ offset) = rest.countP (· ≤ offset) + 1 :=
        List.countP_cons_of_pos (decide_eq_true least)
      rw [counted]
      cases i with
      | zero =>
        cases found
        exact iff_of_true least (Nat.succ_pos _)
      | succ i =>
        rw [Nat.add_lt_add_iff_right]
        exact ih i start found
    · have behind : ∀ s ∈ first :: rest, ¬s ≤ offset := by
        intro s member
        rcases List.mem_cons.mp member with rfl | later
        · exact least
        · have := before s later
          omega
      have none : (first :: rest).countP (· ≤ offset) = 0 :=
        List.countP_eq_zero.mpr fun s member => by simpa using behind s member
      rw [none]
      exact iff_of_false (behind start (List.mem_of_getElem? found)) (Nat.not_lt_zero i)

theorem partsAt_iff (sorted : lines.starts.Pairwise (· < ·)) :
    lines.PartsAt offset place ↔ lines.lineOf offset = place + 1 := by
  have counted := partsAt_countP sorted offset
  rw [lineOf, Nat.add_right_cancel_iff]
  constructor
  · exact fun parts => counted.unique parts
  · rintro rfl
    exact counted

section Range

variable (sorted : lines.starts.Pairwise (· < ·))

include sorted

theorem rangeStart_le_iff (known : place ≤ lines.starts.length) :
    (lines.lineRange (place + 1) length).start ≤ offset ↔
      ∀ i start, lines.starts[i]? = some start → i < place → start ≤ offset := by
  cases place with
  | zero => exact iff_of_true (Nat.zero_le _) (fun i _ _ none => absurd none (Nat.not_lt_zero i))
  | succ last =>
    have found := List.getElem?_eq_getElem (Nat.lt_of_succ_le known)
    have start_eq : (lines.lineRange (last + 1 + 1) length).start = lines.starts[last] := by
      rw [lineRange, found]
      rfl
    rw [start_eq]
    constructor
    · intro least i start earlier before
      rcases Nat.lt_succ_iff_lt_or_eq.mp before with less | rfl
      · obtain ⟨bound, rfl⟩ := List.getElem?_eq_some_iff.mp earlier
        have order := List.pairwise_iff_getElem.mp sorted i last bound known less
        omega
      · cases found.symm.trans earlier
        exact least
    · exact fun all => all last _ found (Nat.lt_succ_self last)

theorem rangeStop_eq {next : Nat} (found : lines.starts[place]? = some next) (some : 0 < next) :
    (lines.lineRange (place + 1) length).stop = next - 1 := by
  obtain ⟨bound, rfl⟩ := List.getElem?_eq_some_iff.mp found
  have start : (lines.lineRange (place + 1) length).start ≤ lines.starts[place] - 1 := by
    refine (rangeStart_le_iff sorted (Nat.le_of_lt bound)).mpr fun i start earlier before => ?_
    obtain ⟨bound', rfl⟩ := List.getElem?_eq_some_iff.mp earlier
    have order := List.pairwise_iff_getElem.mp sorted i place bound' bound before
    omega
  simp only [lineRange, Nat.add_sub_cancel, found] at start ⊢
  exact Nat.max_eq_left start

theorem le_rangeStop_iff (positive : ∀ start ∈ lines.starts, 0 < start) (inside : offset ≤ length) :
    offset ≤ (lines.lineRange (place + 1) length).stop ↔
      ∀ i start, lines.starts[i]? = some start → start ≤ offset → i < place := by
  cases found : lines.starts[place]? with
  | none =>
    refine iff_of_true ?_ fun i start known _ => ?_
    · simp only [lineRange, Nat.add_sub_cancel, found]
      omega
    · have bound := (List.getElem?_eq_some_iff.mp known).1
      have most := List.getElem?_eq_none_iff.mp found
      omega
  | some next =>
    have some := positive next (List.mem_of_getElem? found)
    obtain ⟨bound, rfl⟩ := List.getElem?_eq_some_iff.mp found
    rw [rangeStop_eq sorted found some]
    constructor
    · intro before i start later least
      obtain ⟨bound', rfl⟩ := List.getElem?_eq_some_iff.mp later
      by_contra behind
      rcases Nat.eq_or_lt_of_le (Nat.le_of_not_lt behind) with rfl | more
      · omega
      · have order := List.pairwise_iff_getElem.mp sorted place i bound bound' more
        omega
    · intro all
      by_contra behind
      have before := all place _ found (by omega)
      omega

theorem within_iff_partsAt (positive : ∀ start ∈ lines.starts, 0 < start)
    (inside : offset ≤ length) (known : place ≤ lines.starts.length) :
    lines.Within length (place + 1) offset ↔ lines.PartsAt offset place := by
  rw [Within, PartsAt, and_iff_right known, rangeStart_le_iff sorted known,
    le_rangeStop_iff sorted positive inside]
  constructor
  · exact fun ⟨low, high⟩ i start found => ⟨high i start found, low i start found⟩
  · exact fun all => ⟨fun i start found => (all i start found).mpr,
      fun i start found => (all i start found).mp⟩

end Range

end Search

theorem sorted_startsFrom (offset : Nat) (text : List Char) :
    (startsFrom offset text).Pairwise (· < ·) := by
  induction text generalizing offset with
  | nil => exact .nil
  | cons c rest ih =>
    rw [startsFrom]
    split
    · exact .cons (fun _ later => (mem_startsFrom later).1) (ih _)
    · exact ih _

theorem range_inside (text : List Char) (line : Nat) :
    let range := (ofText text).lineRange line (byteLength text)
    range.start ≤ range.stop ∧ range.stop ≤ byteLength text := by
  have least {i start : Nat} (found : (ofText text).starts[i]? = some start) :
      start ≤ byteLength text := by
    have bounds := mem_startsFrom (List.mem_of_getElem? found)
    omega
  have start : ((ofText text).lineRange line (byteLength text)).start ≤ byteLength text := by
    obtain _ | _ | n := line
    · exact Nat.zero_le _
    · exact Nat.zero_le _
    · cases found : (ofText text).starts[n]? with
      | none => simp [lineRange, found]
      | some next => simpa [lineRange, found] using least found
  refine ⟨Nat.le_max_right .., Nat.max_le.mpr ⟨?_, start⟩⟩
  cases found : (ofText text).starts[line - 1]? with
  | none => exact Nat.le_refl _
  | some next => exact Nat.le_trans (Nat.sub_le ..) (least found)

end LineIndex

namespace Text

section Contents

variable {text content : List Char} {contents front back : List (List Char)}

theorem slice?_append (before line after : List Char) :
    slice? (byteLength before) (byteLength before + byteLength line) (before ++ line ++ after) =
      some line := by
  rw [slice?, if_pos (Nat.le_add_right ..), ← byteLength_append, takeBytes?_append,
    Option.bind_some, dropBytes?_append]

theorem exists_contents (text : List Char) :
    ∃ contents, (∀ content ∈ contents, '\n' ∉ content) ∧ contents ≠ [] ∧
      List.intercalate ['\n'] contents = text := by
  induction text with
  | nil => exact ⟨[[]], by simp, by simp, rfl⟩
  | cons c text ih =>
    obtain ⟨contents, inside, some, rfl⟩ := ih
    obtain ⟨first, rest, rfl⟩ := List.exists_cons_of_ne_nil some
    by_cases newline : c = '\n'
    · subst newline
      refine ⟨[] :: first :: rest, List.forall_mem_cons.mpr ⟨List.not_mem_nil, inside⟩, by simp, ?_⟩
      rw [List.intercalate_cons_cons]
      rfl
    · obtain ⟨clear, inside⟩ := List.forall_mem_cons.mp inside
      have longer : '\n' ∉ c :: first := List.not_mem_cons_of_ne_of_not_mem (Ne.symm newline) clear
      refine ⟨(c :: first) :: rest, List.forall_mem_cons.mpr ⟨longer, inside⟩, by simp, ?_⟩
      cases rest with
      | nil => simp
      | cons next rest => simp [List.intercalate_cons_cons]

theorem intercalate_around (front : List (List Char)) (content : List Char)
    (back : List (List Char)) :
    List.intercalate ['\n'] (front ++ content :: back) =
      front.flatMap (· ++ ['\n']) ++ content ++ back.flatMap ('\n' :: ·) := by
  induction front with
  | nil =>
    induction back generalizing content with
    | nil => simp
    | cons next back ih =>
      have later := ih next
      simp only [List.flatMap_nil, List.nil_append] at later ⊢
      rw [List.intercalate_cons_cons, later]
      simp
  | cons first front ih =>
    have some : front ++ content :: back ≠ [] := by simp
    rw [List.cons_append, List.intercalate_cons_of_ne_nil some, ih]
    simp

theorem count_newlines_flatMap (inside : ∀ line ∈ front, '\n' ∉ line) :
    (front.flatMap (· ++ ['\n'])).count '\n' = front.length := by
  induction front with
  | nil => rfl
  | cons first front ih =>
    obtain ⟨clear, inside⟩ := List.forall_mem_cons.mp inside
    have none : first.count '\n' = 0 := List.count_eq_zero.mpr clear
    rw [List.flatMap_cons, List.count_append, ih inside, List.count_append, none,
      List.count_singleton_self, List.length_cons]
    omega

theorem count_intercalate (inside : ∀ content ∈ contents, '\n' ∉ content) (some : contents ≠ []) :
    (List.intercalate ['\n'] contents).count '\n' + 1 = contents.length := by
  rcases List.eq_nil_or_concat contents with rfl | ⟨front, last, rfl⟩
  · exact absurd rfl some
  · rw [List.concat_eq_append] at inside ⊢
    have before := count_newlines_flatMap fun line member => inside line (List.mem_append_left _ member)
    rw [intercalate_around, List.flatMap_nil, List.append_nil,
      count_newlines_append _ (inside last (by simp)), before, List.length_append,
      List.length_singleton]

theorem isLine_intercalate (inside : ∀ line ∈ front ++ content :: back, '\n' ∉ line) :
    IsLine (List.intercalate ['\n'] (front ++ content :: back)) (front.length + 1)
      ⟨byteLength (front.flatMap (· ++ ['\n'])),
        byteLength (front.flatMap (· ++ ['\n'])) + byteLength content⟩ := by
  have begins : LineBegins (front.flatMap (· ++ ['\n'])) := by
    rcases List.eq_nil_or_concat front with rfl | ⟨earlier, last, rfl⟩
    · exact .inl rfl
    · exact .inr ⟨earlier.flatMap (· ++ ['\n']) ++ last, by simp⟩
  have ends : LineEnds (back.flatMap ('\n' :: ·)) := by
    cases back with
    | nil => exact .inl rfl
    | cons next back => exact .inr ⟨_, rfl⟩
  have line := IsLine.mk begins (inside content (by simp)) ends
  rw [count_newlines_flatMap fun line member => inside line (List.mem_append_left _ member),
    ← intercalate_around] at line
  exact line

theorem slice?_intercalate (inside : ∀ line ∈ front ++ content :: back, '\n' ∉ line) :
    let text := List.intercalate ['\n'] (front ++ content :: back)
    let range := (LineIndex.ofText text).lineRange (front.length + 1) (byteLength text)
    slice? range.start range.stop text = some content := by
  intro text range
  have place : range = _ := (isLine_intercalate inside).range_eq
  rw [place]
  simp only [text, intercalate_around]
  exact slice?_append _ _ _

end Contents

end Text

namespace LineIndex

/-- The table of a text numbers its lines from 1 on. Each offset up to the end of the text is in the
    range of exactly one of them; its number is one more than that of the newline bytes before the
    offset, and is found by any search for the place that parts the starts. The ranges of all lines can
    be sliced out of the text and have no newlines, and they are the text when they are joined by
    newlines. Whatever number is looked up, its range is inside the text, and it is empty and at the end
    if there is no such line. -/
theorem lines_partition_text (text : List Char) :
    let lines := ofText text
    let length := byteLength text
    let last := text.count '\n' + 1
    (∀ offset ≤ length,
      (∀ line, 1 ≤ line ∧ line ≤ last ∧ lines.Within length line offset ↔
        line = lines.lineOf offset) ∧
      lines.lineOf offset = ((bytes text).take offset).count 10 + 1 ∧
      ∀ place, lines.PartsAt offset place ↔ lines.lineOf offset = place + 1) ∧
    (∃ contents : List (List Char),
      (List.range' 1 last).map (fun line =>
        slice? (lines.lineRange line length).start (lines.lineRange line length).stop text) =
          contents.map some ∧
      (∀ content ∈ contents, '\n' ∉ content) ∧ List.intercalate ['\n'] contents = text) ∧
    ∀ line, (lines.lineRange line length).start ≤ (lines.lineRange line length).stop ∧
      (lines.lineRange line length).stop ≤ length ∧
      (last < line → lines.lineRange line length = ⟨length, length⟩) := by
  intro lines length last
  have sorted : lines.starts.Pairwise (· < ·) := sorted_startsFrom 0 text
  have positive : ∀ start ∈ lines.starts, 0 < start := fun _ member => (mem_startsFrom member).1
  have count : lines.starts.length = text.count '\n' := length_startsFrom 0 text
  refine ⟨fun offset inside => ⟨fun line => ?_, ?_, fun place => partsAt_iff sorted⟩, ?_, fun line => ?_⟩
  · constructor
    · rintro ⟨least, most, within⟩
      obtain ⟨place, rfl⟩ := Nat.exists_eq_add_of_le' least
      have parts := (within_iff_partsAt sorted positive inside (by omega)).mp within
      exact ((partsAt_iff sorted).mp parts).symm
    · rintro rfl
      have parts := partsAt_countP sorted offset
      have known : lines.starts.countP (· ≤ offset) ≤ lines.starts.length := parts.1
      refine ⟨Nat.succ_pos _, by unfold lineOf; omega, ?_⟩
      exact (within_iff_partsAt sorted positive inside known).mpr parts
  · rw [lineOf_ofText, lineAt, newlinesBefore_eq_count]
  · obtain ⟨contents, inside, some, rfl⟩ := exists_contents text
    refine ⟨contents, ?_, inside, rfl⟩
    have size : contents.length = last := (count_intercalate inside some).symm
    refine List.ext_getElem (by simp [size]) fun i bound bound' => ?_
    rw [List.length_map] at bound'
    have around : contents.take i ++ contents[i] :: contents.drop (i + 1) = contents := by simp
    have found := slice?_intercalate (around.symm ▸ inside)
    rw [around, List.length_take_of_le (Nat.le_of_lt bound')] at found
    rw [List.getElem_map, List.getElem_map, List.getElem_range', Nat.one_mul, Nat.add_comm]
    exact found
  · obtain ⟨low, high⟩ := range_inside text line
    exact ⟨low, high, lineRange_beyond⟩

/-- The empty line between two newlines holds one offset, and one inside a character is held as well. -/
theorem lines_partition_text_empty :
    let text := "é\n\nb".toList
    let lines := ofText text
    1 ≤ byteLength text ∧ lines.lineOf 1 = 1 ∧ 3 ≤ byteLength text ∧
      (∀ line, 1 ≤ line ∧ line ≤ 3 ∧ lines.Within (byteLength text) line 3 ↔ line = 2) ∧
      3 < 7 ∧ lines.lineRange 7 (byteLength text) = ⟨5, 5⟩ := by
  intro text lines
  obtain ⟨offsets, -, numbers⟩ := lines_partition_text text
  have first : 1 ≤ byteLength text := by decide
  have second : 3 ≤ byteLength text := by decide
  obtain ⟨-, count, -⟩ := offsets 1 first
  obtain ⟨only, count', -⟩ := offsets 3 second
  have number : lines.lineOf 3 = 2 := count'.trans (by decide)
  rw [number] at only
  exact ⟨first, count.trans (by decide), second, only, by decide, (numbers 7).2.2 (by decide)⟩

end LineIndex

end MonkeyLang
