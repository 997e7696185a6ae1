import MonkeyLang.Value.Handles

/-!
Equality of values. Scalars of one kind are compared by their contents, function values by
identity, arrays by their members. Arrays may contain themselves: a pair of arrays that was met
before counts as equal, so the walk visits each pair once.
-/

namespace MonkeyLang

def Value.scalarsEqual? : Value → Value → Option Bool
  | .int x, .int y => some (x == y)
  | .uint x, .uint y => some (x == y)
  | .float x, .float y => some (x == y)
  | .str x, .str y => some (x == y)
  | .bool x, .bool y => some (x == y)
  | _, _ => none

inductive Comparison
  | settled (equal : Bool)
  | arrays (x y : ArrayId)

/-- Compares two values as far as the members of arrays do not matter, plain scalars left out. -/
def Value.structuralComparison : Value → Value → Comparison
  | .nil, .nil => .settled true
  | .array x, .array y => .arrays x y
  | .closure x, .closure y => .settled (x.id = y.id)
  | .returned x, .returned y =>
    match x.scalarsEqual? y with
    | some equal => .settled equal
    | none => x.structuralComparison y
  | _, _ => .settled false

def Value.comparison (a b : Value) : Comparison :=
  match a.scalarsEqual? b with
  | some equal => .settled equal
  | none => a.structuralComparison b

theorem Value.comparison_of_scalarsEqual? {a b : Value} {equal : Bool}
    (scalars : a.scalarsEqual? b = some equal) : a.comparison b = .settled equal := by
  rw [comparison, scalars]

theorem Value.comparison_of_not_scalars {a b : Value} (other : a.scalarsEqual? b = none) :
    a.comparison b = a.structuralComparison b := by
  rw [comparison, other]

theorem Value.comparison_returned (x y : Value) :
    (Value.returned x).comparison (.returned y) = x.comparison y :=
  rfl

namespace Store

/-- Whether the pairs are all equal, given that the visited pairs of arrays are. -/
def allEqual (s : Store) (visited : Std.HashSet (ArrayId × ArrayId))
    (pairs : List (Value × Value)) : Bool :=
  match pairs with
  | [] => true
  | (a, b) :: rest =>
    match a.comparison b with
    | .settled equal => equal && s.allEqual visited rest
    | .arrays x y =>
      if x = y ∨ (x, y) ∈ visited then s.allEqual visited rest
      else
        let xs := s.members x
        let ys := s.members y
        xs.size = ys.size && s.allEqual (visited.insert (x, y)) (xs.toList.zip ys.toList ++ rest)
termination_by (s.unvisited visited, pairs.length)
decreasing_by
  · exact Prod.Lex.right _ (by simp)
  · exact Prod.Lex.right _ (by simp)
  · rename_i fresh
    have fresh := (not_or.mp fresh).2
    by_cases inside : (x, y) ∈ s.handlePairs
    · exact Prod.Lex.left _ _ (unvisited_insert_lt inside fresh)
    · have empty : (s.members x).toList.zip (s.members y).toList = [] := by
        rw [mem_handlePairs] at inside
        rcases Classical.not_and_iff_not_or_not.mp inside with outside | outside <;>
          simp [members_of_notMem outside]
      rw [show xs.toList.zip ys.toList = [] from empty]
      rcases Nat.lt_or_eq_of_le (s.unvisited_insert_le visited (x, y)) with less | same
      · exact Prod.Lex.left _ _ less
      · rw [same]
        exact Prod.Lex.right _ (by simp)

def valuesEqual (s : Store) (a b : Value) : Bool :=
  s.allEqual ∅ [(a, b)]

/-- Equality where plain scalars are only compared inside of values. -/
def structurallyEqual (s : Store) (a b : Value) : Bool :=
  match a.structuralComparison b with
  | .settled equal => equal
  | .arrays x y => s.allEqual ∅ [(.array x, .array y)]

end Store

end MonkeyLang
