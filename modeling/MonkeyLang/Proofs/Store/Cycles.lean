import MonkeyLang.Value.Codec

namespace MonkeyLang

namespace Store

inductive Reaches (s : Store) (values : List Value) : Value → Prop
  | here {v : Value} (member : v ∈ values) : Reaches s values v
  | inside {id : ArrayId} {v : Value} (outer : Reaches s values (.array id))
      (member : v ∈ (s.members id).toList) : Reaches s values v

def OnCycle (s : Store) (id : ArrayId) : Prop := s.Reaches (s.members id).toList (.array id)

section Reaches

variable {s : Store} {values others : List Value} {v w : Value}

theorem Reaches.mono (more : ∀ v ∈ values, v ∈ others) (reaches : s.Reaches values v) :
    s.Reaches others v := by
  induction reaches with
  | here member => exact .here (more _ member)
  | inside _ member ih => exact .inside ih member

theorem Reaches.trans {id : ArrayId} (outer : s.Reaches values (.array id))
    (inner : s.Reaches (s.members id).toList v) : s.Reaches values v := by
  induction inner with
  | here member => exact .inside outer member
  | inside _ member ih => exact .inside ih member

theorem not_reaches_nil : ¬s.Reaches [] v := by
  intro reaches
  induction reaches with
  | here member => cases member
  | inside _ _ ih => exact ih

theorem reaches_cons : s.Reaches (v :: values) w ↔
    w = v ∨ (∃ id, v = .array id ∧ s.Reaches (s.members id).toList w) ∨ s.Reaches values w := by
  constructor
  · intro reaches
    induction reaches with
    | here member => exact (List.mem_cons.mp member).imp_right fun later => .inr (.here later)
    | inside _ member ih =>
      rcases ih with same | ⟨id, first, reached⟩ | later
      · exact .inr (.inl ⟨_, same.symm, .here member⟩)
      · exact .inr (.inl ⟨id, first, .inside reached member⟩)
      · exact .inr (.inr (.inside later member))
  · rintro (rfl | ⟨id, rfl, reached⟩ | later)
    · exact .here List.mem_cons_self
    · exact .trans (.here List.mem_cons_self) reached
    · exact later.mono fun _ => List.mem_cons_of_mem _

theorem reaches_single : s.Reaches [v] w ↔
    w = v ∨ ∃ id, v = .array id ∧ s.Reaches (s.members id).toList w := by
  rw [reaches_cons, or_iff_left not_reaches_nil]

theorem Reaches.exists_first (reaches : s.Reaches values w) : ∃ v ∈ values, s.Reaches [v] w := by
  induction reaches with
  | here member => exact ⟨_, member, .here List.mem_cons_self⟩
  | inside _ member ih =>
    obtain ⟨v, first, reached⟩ := ih
    exact ⟨v, first, .inside reached member⟩

end Reaches

section Unfolding

open Unfolding (anyRepeats)

variable {s : Store}

def Leads (s : Store) (path : List ArrayId) (values : List Value) : Prop :=
  ∀ outer ∈ path, ∀ id, Value.array id ∈ values → s.Reaches (s.members outer).toList (.array id)

theorem Leads.open {path : List ArrayId} {id : ArrayId} (leads : s.Leads path [.array id]) :
    s.Leads (id :: path) (s.members id).toList := by
  intro outer member inner inside
  rcases List.mem_cons.mp member with rfl | member
  · exact .here inside
  · exact .inside (leads outer member id List.mem_cons_self) inside

theorem exists_onCycle (path : List ArrayId) (values : List Value) (leads : s.Leads path values)
    (repeats : anyRepeats (s.unfoldAll path values) = true) :
    ∃ id, s.Reaches values (.array id) ∧ s.OnCycle id := by
  induction path, values using unfoldAll.induct s fun path value =>
    s.Leads path [value] → (s.unfoldIn path value).repeats = true →
      ∃ id, s.Reaches [value] (.array id) ∧ s.OnCycle id with
  | case1 path _ leads repeats | case2 path _ leads repeats | case3 path _ leads repeats
  | case4 path _ leads repeats | case5 path _ leads repeats | case6 path leads repeats
  | case7 path _ leads repeats | case8 path _ _ leads repeats =>
    rw [unfoldIn] at repeats
    cases repeats
  | case9 path id met leads repeats =>
    exact ⟨id, .here List.mem_cons_self, leads id met id List.mem_cons_self⟩
  | case10 path id fresh ih leads repeats =>
    rw [unfoldIn, if_neg fresh] at repeats
    obtain ⟨other, reached, cycle⟩ := ih leads.open repeats
    exact ⟨other, .trans (.here List.mem_cons_self) reached, cycle⟩
  | case11 path =>
    rw [unfoldAll] at repeats
    cases repeats
  | case12 path value rest here later =>
    rw [unfoldAll, anyRepeats, Bool.or_eq_true] at repeats
    rcases repeats with first | others
    · have inside : s.Leads path [value] := fun outer member id same =>
        leads outer member id (List.mem_cons.mpr (.inl (List.mem_singleton.mp same)))
      obtain ⟨id, reached, cycle⟩ := here inside first
      exact ⟨id, reached.mono (by simp), cycle⟩
    · obtain ⟨id, reached, cycle⟩ := later
        (fun outer member id inside => leads outer member id (List.mem_cons_of_mem _ inside)) others
      exact ⟨id, reached.mono fun _ => List.mem_cons_of_mem _, cycle⟩

theorem not_onCycle (path : List ArrayId) (values : List Value)
    (once : anyRepeats (s.unfoldAll path values) = false) :
    ∀ id, s.Reaches values (.array id) → ¬s.OnCycle id := by
  induction path, values using unfoldAll.induct s fun path value =>
    (s.unfoldIn path value).repeats = false → ∀ id, s.Reaches [value] (.array id) →
      ¬s.OnCycle id with
  | case1 path _ once id reached | case2 path _ once id reached | case3 path _ once id reached
  | case4 path _ once id reached | case5 path _ once id reached | case6 path once id reached
  | case7 path _ once id reached | case8 path _ _ once id reached =>
    simp [reaches_single] at reached
  | case9 path id met once =>
    rw [unfoldIn, if_pos met] at once
    cases once
  | case10 path id fresh ih once other reached =>
    rw [unfoldIn, if_neg fresh] at once
    rcases reaches_single.mp reached with same | ⟨_, same, inside⟩
    · cases same
      exact fun cycle => ih once id cycle cycle
    · cases same
      exact ih once other inside
  | case11 path =>
    intro id reached
    exact absurd reached not_reaches_nil
  | case12 path value rest here later =>
    rw [unfoldAll, anyRepeats, Bool.or_eq_false_iff] at once
    intro id reached
    rcases reaches_cons.mp reached with same | inside | others
    · exact here once.1 id (reaches_single.mpr (.inl same))
    · exact here once.1 id (reaches_single.mpr (.inr inside))
    · exact later once.2 id others

theorem anyRepeats_iff {path : List ArrayId} {values : List Value} (leads : s.Leads path values) :
    anyRepeats (s.unfoldAll path values) = true ↔
      ∃ id, s.Reaches values (.array id) ∧ s.OnCycle id := by
  constructor
  · exact exists_onCycle path values leads
  · rintro ⟨id, reached, cycle⟩
    refine eq_true_of_ne_false fun once => ?_
    exact not_onCycle path values once id reached cycle

end Unfolding

end Store

end MonkeyLang
