import Mathlib.Tactic.SplitIfs
import MonkeyLang.Json.Reader

namespace MonkeyLang

namespace Json

namespace State

inductive Reads : State → List Char → State → Prop
  | none {s : State} : Reads s [] s
  | more {s t u : State} {c : Char} {cs : List Char} (first : s.take c = .ok t)
      (rest : Reads t cs u) : Reads s (c :: cs) u

namespace Reads

variable {s t u : State} {c : Char} {cs ds : List Char}

theorem one (first : s.take c = .ok t) : s.Reads [c] t := .more first .none

theorem append (first : s.Reads cs t) (second : t.Reads ds u) : s.Reads (cs ++ ds) u := by
  induction first with
  | none => exact second
  | more step _ ih => exact .more step (ih second)

theorem read (before : s.Reads cs t) (length offset : Nat) (rest : List Char) :
    s.read length offset (cs ++ rest) = t.read length (offset + Text.byteLength cs) rest := by
  induction before generalizing offset with
  | none => rfl
  | more step _ ih =>
    rw [List.cons_append, State.read, step, Text.byteLength_cons, ← Nat.add_assoc]
    exact ih _

end Reads

/-- The state is behind the text of a value. It may be that only what follows shows that nothing
    more belongs to the value, as behind a number. -/
structure Behind (s : State) (value : Json) (enclosing : List Open) : Prop where
  comma : s.take ',' = takeAfter value enclosing ','
  bracket : s.take ']' = takeAfter value enclosing ']'
  finish : s.finish = endAfter value enclosing

theorem behind_complete (value : Json) (enclosing : List Open) :
    (State.complete value enclosing).Behind value enclosing :=
  ⟨rfl, rfl, rfl⟩

end State

open State

section Words

variable (enclosing : List Open)

theorem reads_word (value : Json) (c : Char) (rest : List Char) :
    (⟨.word (c :: rest) value, enclosing⟩ : State).Reads (c :: rest)
      (.complete value enclosing) := by
  induction rest generalizing c with
  | nil => exact .one (if_pos rfl)
  | cons next rest ih => exact .more (if_pos rfl) (ih next)

theorem reads_null (place : Place) :
    (⟨.value place, enclosing⟩ : State).Reads (scalarText .null) (.complete .null enclosing) := by
  refine .more (t := ⟨.word ['u', 'l', 'l'] .null, enclosing⟩) ?_ (reads_word enclosing _ _ _)
  cases place <;> rfl

theorem reads_bool (place : Place) (b : Bool) :
    (⟨.value place, enclosing⟩ : State).Reads (scalarText (.bool b))
      (.complete (.bool b) enclosing) := by
  cases b
  · refine .more (t := ⟨.word ['a', 'l', 's', 'e'] (.bool false), enclosing⟩) ?_
      (reads_word enclosing _ _ _)
    cases place <;> rfl
  · refine .more (t := ⟨.word ['r', 'u', 'e'] (.bool true), enclosing⟩) ?_
      (reads_word enclosing _ _ _)
    cases place <;> rfl

end Words

section Strings

variable (chars : List Char) (isKey : Bool) (enclosing : List Open)

theorem hexDigit?_digitChar {d : Nat} (small : d < 16) : hexDigit? d.digitChar = some d := by
  have all : ∀ d < 16, hexDigit? (Nat.digitChar d) = some d := by decide
  exact all d small

theorem hex4_of_lt {n : Nat} (small : n < 32) :
    hex4 n = ['0', '0', (n / 16).digitChar, (n % 16).digitChar] := by
  have all : ∀ n < 32, hex4 n = ['0', '0', (n / 16).digitChar, (n % 16).digitChar] := by decide
  exact all n small

theorem take_hex (count value : Nat) {d : Nat} (small : d < 16) (early : count < 3) :
    (⟨.string (.hex count value none) chars isKey, enclosing⟩ : State).take d.digitChar =
      .ok ⟨.string (.hex (count + 1) (value * 16 + d) none) chars isKey, enclosing⟩ := by
  dsimp only [State.take, takeInString]
  rw [hexDigit?_digitChar small]
  exact if_pos early

theorem take_lastHex (value : Nat) {d : Nat} (small : d < 16)
    (control : value * 16 + d < 32) :
    (⟨.string (.hex 3 value none) chars isKey, enclosing⟩ : State).take d.digitChar =
      .ok ⟨.string .plain (Char.ofNat (value * 16 + d) :: chars) isKey, enclosing⟩ := by
  have trailing : isTrailing (value * 16 + d) = false := by simp [isTrailing]; omega
  have leading : isLeading (value * 16 + d) = false := by simp [isLeading]; omega
  dsimp only [State.take, takeInString]
  rw [hexDigit?_digitChar small]
  simp [takeUnit, trailing, leading]

theorem reads_hex4 {n : Nat} (small : n < 32) :
    (⟨.string (.hex 0 0 none) chars isKey, enclosing⟩ : State).Reads (hex4 n)
      ⟨.string .plain (Char.ofNat n :: chars) isKey, enclosing⟩ := by
  have sum : n / 16 * 16 + n % 16 = n := by omega
  have high : n / 16 < 16 := by omega
  have low : n % 16 < 16 := by omega
  have third := take_hex chars isKey enclosing 2 0 high (by decide)
  have last := take_lastHex chars isKey enclosing (n / 16) low (by omega)
  rw [sum] at last
  rw [Nat.zero_mul, Nat.zero_add] at third
  rw [hex4_of_lt small]
  exact .more rfl (.more rfl (.more third (.one last)))

theorem reads_quotedChar (c : Char) :
    (⟨.string .plain chars isKey, enclosing⟩ : State).Reads (quotedChar c)
      ⟨.string .plain (c :: chars) isKey, enclosing⟩ := by
  unfold quotedChar
  split_ifs with quote backslash newline carriage tab backspace feed control
  · subst quote
    exact .more rfl (.one rfl)
  · subst backslash
    exact .more rfl (.one rfl)
  · subst newline
    exact .more rfl (.one rfl)
  · subst carriage
    exact .more rfl (.one rfl)
  · subst tab
    exact .more rfl (.one rfl)
  · obtain rfl : c = Char.ofNat 8 := by rw [← backspace, Char.ofNat_toNat]
    exact .more rfl (.one rfl)
  · obtain rfl : c = Char.ofNat 12 := by rw [← feed, Char.ofNat_toNat]
    exact .more rfl (.one rfl)
  · have escape := reads_hex4 chars isKey enclosing (n := c.toNat) control
    rw [Char.ofNat_toNat] at escape
    exact .more rfl (.more rfl escape)
  · refine .one ?_
    simp [State.take, takeInString, quote, backslash, control]

theorem reads_quotedChars (cs : List Char) :
    (⟨.string .plain chars isKey, enclosing⟩ : State).Reads (cs.flatMap quotedChar)
      ⟨.string .plain (cs.reverse ++ chars) isKey, enclosing⟩ := by
  induction cs generalizing chars with
  | nil => exact .none
  | cons c cs ih =>
    rw [List.flatMap_cons, List.reverse_cons, List.append_assoc]
    exact (reads_quotedChar chars isKey enclosing c).append (ih (c :: chars))

theorem reads_str (place : Place) (s : String) :
    (⟨.value place, enclosing⟩ : State).Reads (quoted s) (.complete (.str s) enclosing) := by
  have opened : (⟨.value place, enclosing⟩ : State).take '"' =
      .ok ⟨.string .plain [] false, enclosing⟩ := by
    cases place <;> rfl
  refine .more opened ((reads_quotedChars [] false enclosing s.toList).append (.one ?_))
  change Except.ok (closeString (s.toList.reverse ++ []) false enclosing) = _
  rw [List.append_nil, closeString, List.reverse_reverse, String.ofList_toList]
  rfl

end Strings

end Json

end MonkeyLang
