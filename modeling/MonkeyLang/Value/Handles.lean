import MonkeyLang.Store
import Std.Data.HashSet

/-!
Counting handles. A walk through the arrays of a store ends because it opens each array, or each
pair of arrays, at most once: the number of those that are still left decreases.
-/

namespace MonkeyLang

namespace Store

def handles (s : Store) : List ArrayId :=
  (List.range s.arrays.size).map ArrayId.mk

def handlePairs (s : Store) : List (ArrayId × ArrayId) :=
  s.handles.flatMap fun x => s.handles.map fun y => (x, y)

def unopened (s : Store) (path : List ArrayId) : Nat :=
  s.handles.countP (· ∉ path)

def unvisited (s : Store) (visited : Std.HashSet (ArrayId × ArrayId)) : Nat :=
  s.handlePairs.countP (· ∉ visited)

theorem mem_handles {s : Store} {id : ArrayId} : id ∈ s.handles ↔ id.index < s.arrays.size := by
  cases id
  simp [handles]

theorem mem_handlePairs {s : Store} {x y : ArrayId} :
    (x, y) ∈ s.handlePairs ↔ x ∈ s.handles ∧ y ∈ s.handles := by
  simp [handlePairs]

theorem members_of_notMem {s : Store} {id : ArrayId} (outside : id ∉ s.handles) :
    s.members id = #[] := by
  rw [mem_handles] at outside
  simp [members, outside]

end Store

theorem countP_lt_of_imp {α : Type} {p q : α → Bool} {all : List α}
    (mono : ∀ x ∈ all, q x = true → p x = true) {a : α} (member : a ∈ all)
    (holds : p a = true) (fails : q a = false) : all.countP q < all.countP p := by
  induction all with
  | nil => cases member
  | cons b rest ih =>
    have below := List.countP_mono_left fun x h => mono x (List.mem_cons_of_mem _ h)
    simp only [List.countP_cons]
    rcases List.mem_cons.mp member with rfl | later
    · simp only [holds, fails, if_true, Bool.false_eq_true, if_false]
      omega
    · have less := ih (fun x h => mono x (List.mem_cons_of_mem _ h)) later
      have here := mono b List.mem_cons_self
      by_cases h : q b = true
      · simp only [h, here h, if_true]
        omega
      · simp only [h, Bool.false_eq_true, if_false]
        omega

namespace Store

theorem unopened_cons_lt {s : Store} {path : List ArrayId} {id : ArrayId} (inside : id ∈ s.handles)
    (fresh : id ∉ path) : s.unopened (id :: path) < s.unopened path :=
  countP_lt_of_imp (fun x _ h => by simp_all) inside (by simpa using fresh) (by simp)

theorem unopened_cons_le (s : Store) (path : List ArrayId) (id : ArrayId) :
    s.unopened (id :: path) ≤ s.unopened path :=
  List.countP_mono_left fun x _ h => by simp_all

theorem unvisited_insert_lt {s : Store} {visited : Std.HashSet (ArrayId × ArrayId)}
    {pair : ArrayId × ArrayId} (inside : pair ∈ s.handlePairs) (fresh : pair ∉ visited) :
    s.unvisited (visited.insert pair) < s.unvisited visited :=
  countP_lt_of_imp (fun x _ h => by simp_all) inside (by simpa using fresh) (by simp)

theorem unvisited_insert_le (s : Store) (visited : Std.HashSet (ArrayId × ArrayId))
    (pair : ArrayId × ArrayId) : s.unvisited (visited.insert pair) ≤ s.unvisited visited :=
  List.countP_mono_left fun x _ h => by simp_all

end Store

end MonkeyLang
