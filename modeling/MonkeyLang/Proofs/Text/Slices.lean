import MonkeyLang.Lines
import MonkeyLang.Proofs.Token.Literals

namespace MonkeyLang

def minus? (a b : Nat) : Option Nat := if b ≤ a then some (a - b) else none

namespace Text

def takeBytes? : Nat → List Char → Option (List Char)
  | 0, _ => some []
  | _ + 1, [] => none
  | n + 1, c :: cs =>
    if c.utf8Size ≤ n + 1 then (takeBytes? (n + 1 - c.utf8Size) cs).map (c :: ·) else none

def dropBytes? : Nat → List Char → Option (List Char)
  | 0, cs => some cs
  | _ + 1, [] => none
  | n + 1, c :: cs => if c.utf8Size ≤ n + 1 then dropBytes? (n + 1 - c.utf8Size) cs else none

def slice? (start stop : Nat) (cs : List Char) : Option (List Char) :=
  if start ≤ stop then (takeBytes? stop cs).bind (dropBytes? start) else none

def inner? (cs : List Char) : Option (List Char) := do
  slice? 1 (← minus? (byteLength cs) 1) cs

section Slices

variable (a b : List Char)

theorem takeBytes?_append : takeBytes? (byteLength a) (a ++ b) = some a := by
  induction a with
  | nil => rw [byteLength_nil, takeBytes?]
  | cons c a ih =>
    obtain ⟨n, more⟩ := Nat.exists_eq_add_one.mpr (c.utf8Size_pos)
    have rest : n + byteLength a + 1 - c.utf8Size = byteLength a := by omega
    rw [byteLength_cons, more, Nat.add_right_comm, List.cons_append, takeBytes?, if_pos (by omega),
      rest, ih]
    rfl

theorem dropBytes?_append : dropBytes? (byteLength a) (a ++ b) = some b := by
  induction a with
  | nil => rw [byteLength_nil, dropBytes?, List.nil_append]
  | cons c a ih =>
    obtain ⟨n, more⟩ := Nat.exists_eq_add_one.mpr (c.utf8Size_pos)
    have rest : n + byteLength a + 1 - c.utf8Size = byteLength a := by omega
    rw [byteLength_cons, more, Nat.add_right_comm, List.cons_append, dropBytes?, if_pos (by omega),
      rest, ih]

theorem inner?_quoted (body : List Char) : inner? ('"' :: (body ++ ['"'])) = some body := by
  have width : Char.utf8Size '"' = 1 := by decide
  have stop : minus? (byteLength ('"' :: (body ++ ['"']))) 1 = some (byteLength ('"' :: body)) := by
    rw [minus?, byteLength_cons, byteLength_cons, byteLength_append, byteLength_cons, width,
      byteLength_nil, if_pos (by omega)]
    congr 1
  have front : takeBytes? (byteLength ('"' :: body)) ('"' :: (body ++ ['"'])) =
      some ('"' :: body) := takeBytes?_append ('"' :: body) ['"']
  have back : dropBytes? 1 ('"' :: body) = some body := dropBytes?_append ['"'] body
  rw [inner?, stop, Option.bind_eq_bind, Option.bind_some, slice?, if_pos (by simp [width]), front,
    Option.bind_some, back]

end Slices

end Text

namespace LexicalRule

open Pattern

variable {rule : LexicalRule} {slice : List Char}

theorem eq_string (declared : rule ∈ all) (gives : rule.kind = some .string) : rule = string := by
  cases giving declared gives
  rfl

theorem inner?_of_longest {text : List Char} {n : Nat}
    (found : LexicalRule.longest text = some (rule, n)) (gives : rule.kind = some .string) :
    ∃ body, text.take n = '"' :: (body ++ ['"']) ∧ Text.inner (text.take n) = body ∧
      Text.inner? (text.take n) = some body := by
  rcases longest_cut text with ⟨rule', slice, rest, rfl, takes, cut⟩ | ⟨-, none⟩
  · rw [cut] at found
    cases found
    obtain rfl := eq_string takes.declared gives
    obtain ⟨body, -, quoted, -⟩ := matches_string_iff.mp takes.matched
    rw [List.take_left' rfl, quoted]
    exact ⟨body, rfl, Text.inner_quotes body, Text.inner?_quoted body⟩
  · rw [none] at found
    cases found

end LexicalRule

namespace LineIndex

def lineStart? (lines : LineIndex) (line length : Nat) : Option Nat :=
  if line ≤ 1 then some 0 else (minus? line 2).map fun place => lines.starts[place]?.getD length

def lineStop? (lines : LineIndex) (line length : Nat) : Option Nat :=
  lines.starts[line - 1]?.elim (some length) (minus? · 1)

/-- The bytes of a line, with each difference computed as one of sizes. -/
def lineRange? (lines : LineIndex) (line length : Nat) : Option Span := do
  let start ← lines.lineStart? line length
  let stop ← lines.lineStop? line length
  return ⟨start, max stop start⟩

theorem mem_startsFrom {text : List Char} {offset next : Nat}
    (member : next ∈ startsFrom offset text) :
    offset < next ∧ next ≤ offset + Text.byteLength text := by
  induction text generalizing offset with
  | nil => cases member
  | cons c rest ih =>
    have wide := c.utf8Size_pos
    rw [startsFrom] at member
    rw [Text.byteLength_cons]
    by_cases newline : c = '\n'
    · rw [if_pos newline] at member
      rcases List.mem_cons.mp member with rfl | later
      · exact ⟨by omega, by omega⟩
      · have bounds := ih later
        exact ⟨by omega, by omega⟩
    · rw [if_neg newline] at member
      have bounds := ih member
      exact ⟨by omega, by omega⟩

theorem lineRange?_ofText (text : List Char) (line length : Nat) :
    (ofText text).lineRange? line length = some ((ofText text).lineRange line length) := by
  have start : (ofText text).lineStart? line length =
      some ((ofText text).lineRange line length).start := by
    obtain _ | _ | n := line
    · rfl
    · rfl
    · rw [lineStart?, if_neg (by omega), minus?, if_pos (by omega)]
      rfl
  rw [lineRange?, start, Option.bind_eq_bind, Option.bind_some, lineStop?]
  unfold lineRange
  cases found : (ofText text).starts[line - 1]? with
  | none => rfl
  | some next =>
    have behind := (mem_startsFrom (List.mem_of_getElem? found)).1
    rw [Option.elim_some, minus?, if_pos (by omega)]
    rfl

end LineIndex

end MonkeyLang
