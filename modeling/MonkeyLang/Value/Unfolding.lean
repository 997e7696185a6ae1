import MonkeyLang.Value.Handles

/-!
The tree that a value unfolds to. An array is unfolded into the trees of its members, wherever it
is met, except inside itself, where a mark stands for it; so the tree is finite.
-/

namespace MonkeyLang

inductive Unfolding
  | int (n : Int64)
  | uint (n : UInt64)
  | float (x : Float)
  | str (s : String)
  | bool (b : Bool)
  | nil
  | array (members : List Unfolding)
  /-- An array inside itself. -/
  | again
  | closure (params : List String)
  | returned (value : Unfolding)
deriving Inhabited

namespace Store

mutual

def unfoldIn (s : Store) (path : List ArrayId) (value : Value) : Unfolding :=
  match value with
  | .int n => .int n
  | .uint n => .uint n
  | .float x => .float x
  | .str t => .str t
  | .bool b => .bool b
  | .nil => .nil
  | .closure c => .closure c.params
  | .returned inner => .returned (s.unfoldIn path inner)
  | .array id =>
    if id ∈ path then .again
    else .array (s.unfoldAll (id :: path) (s.members id).toList)
termination_by (s.unopened path, sizeOf value)
decreasing_by
  · exact Prod.Lex.right _ (by simp)
  · rename_i fresh
    by_cases inside : id ∈ s.handles
    · exact Prod.Lex.left _ _ (unopened_cons_lt inside fresh)
    · rw [members_of_notMem inside]
      rcases Nat.lt_or_eq_of_le (s.unopened_cons_le path id) with
        less | same
      · exact Prod.Lex.left _ _ less
      · rw [same]
        refine Prod.Lex.right _ ?_
        change sizeOf ([] : List Value) < sizeOf (Value.array id)
        cases id
        rw [List.nil.sizeOf_spec, Value.array.sizeOf_spec, ArrayId.mk.sizeOf_spec]
        omega

def unfoldAll (s : Store) (path : List ArrayId) (values : List Value) : List Unfolding :=
  match values with
  | [] => []
  | value :: rest => s.unfoldIn path value :: s.unfoldAll path rest
termination_by (s.unopened path, sizeOf values)
decreasing_by
  · exact Prod.Lex.right _ (by rw [List.cons.sizeOf_spec]; omega)
  · exact Prod.Lex.right _ (by rw [List.cons.sizeOf_spec]; omega)

end

def unfold (s : Store) (value : Value) : Unfolding := s.unfoldIn [] value

end Store

end MonkeyLang
