import MonkeyLang.Text.Bytes
import MonkeyLang.Text.Cluster

/-!
What is left of a line after its backspaces. A backspace takes away the grapheme cluster that was
typed before it. The size of a cluster is kept in one byte, so of a cluster of 256 bytes or more
only the remainder is taken away; where that would cut a character in two, nothing is left.
-/

namespace MonkeyLang.Repl

/-- A line that is being typed: its characters, the last one first, and the sizes that are kept of
    its clusters. -/
structure Typed where
  chars : List Char
  sizes : List Nat

namespace Typed

def keptSize (cluster : List Char) : Nat := Text.byteLength cluster % 256

def dropBytes? : Nat → List Char → Option (List Char)
  | 0, chars => some chars
  | _ + 1, [] => none
  | n + 1, c :: chars => if c.utf8Size ≤ n + 1 then dropBytes? (n + 1 - c.utf8Size) chars else none

def backspace : Char := Char.ofNat 8

def type? (typed : Typed) (cluster : List Char) : Option Typed :=
  if cluster = [backspace] then
    match typed.sizes with
    | [] => some typed
    | size :: sizes => (dropBytes? size typed.chars).map (⟨·, sizes⟩)
  else some ⟨cluster.reverse ++ typed.chars, keptSize cluster :: typed.sizes⟩

theorem foldlM_type? {clusters : List (List Char)} (plain : [backspace] ∉ clusters)
    (typed : Typed) :
    ∃ sizes, clusters.foldlM type? typed =
      some ⟨clusters.flatten.reverse ++ typed.chars, sizes⟩ := by
  induction clusters generalizing typed with
  | nil => exact ⟨typed.sizes, rfl⟩
  | cons cluster rest ih =>
    rw [List.mem_cons, not_or] at plain
    obtain ⟨sizes, later⟩ :=
      ih plain.2 ⟨cluster.reverse ++ typed.chars, keptSize cluster :: typed.sizes⟩
    refine ⟨sizes, ?_⟩
    rw [List.foldlM_cons, type?, if_neg (Ne.symm plain.1)]
    exact later.trans (by simp)

end Typed

def edited? (line : List Char) : Option (List Char) :=
  ((Text.clusters line).foldlM Typed.type? ⟨[], []⟩).map (·.chars.reverse)

/-- A line without backspaces is read as it is typed. -/
theorem edited?_of_plain {line : List Char} (plain : Typed.backspace ∉ line) :
    edited? line = some line := by
  have apart : [Typed.backspace] ∉ Text.clusters line := fun member =>
    plain (Text.flatten_clusters line ▸ List.mem_flatten_of_mem member List.mem_cons_self)
  obtain ⟨sizes, typed⟩ := Typed.foldlM_type? apart ⟨[], []⟩
  rw [edited?, typed, Text.flatten_clusters]
  simp

end MonkeyLang.Repl
