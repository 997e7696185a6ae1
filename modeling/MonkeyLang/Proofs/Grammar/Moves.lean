import MonkeyLang.Grammar.Automaton

namespace MonkeyLang

namespace Row

def act (row : Row) (n : Nat) : Option Action :=
  match row.shifts.lookup n with
  | some target => some (.shift target)
  | none => (row.reductions.find? (·.1.testBit n)).map fun (_, rule) => .reduce rule

def within (row : Row) (mask : Nat) : Bool :=
  row.shifts.all (fun (n, _) => mask.testBit n) &&
    row.reductions.all fun (own, _) => own &&& mask == own

/-- Whether no lookahead of a reduction is one of a shift or of another reduction. -/
def settled (row : Row) : Bool :=
  row.reductions.all fun reduction =>
    (List.range (Automaton.kindCount + 1)).all fun n =>
      !reduction.1.testBit n ||
        row.shifts.lookup n == none && row.reductions.find? (·.1.testBit n) == some reduction

theorem act_testBit {row : Row} {mask n : Nat} (inside : row.within mask = true)
    (acts : (row.act n).isSome = true) : mask.testBit n = true := by
  simp only [within, Bool.and_eq_true, List.all_eq_true, beq_iff_eq] at inside
  obtain ⟨shifts, reductions⟩ := inside
  unfold act at acts
  split at acts
  · rename_i target found
    obtain ⟨before, after, split, _⟩ := List.lookup_eq_some_iff.mp found
    exact shifts (n, target) (split ▸ List.mem_append_right _ List.mem_cons_self)
  · rw [Option.isSome_map] at acts
    obtain ⟨reduction, found⟩ := Option.isSome_iff_exists.mp acts
    have own : reduction.1.testBit n = true := by simpa using List.find?_some found
    rw [← reductions reduction (List.mem_of_find?_eq_some found), Nat.testBit_and,
      Bool.and_eq_true] at own
    exact own.2

theorem act_reduce {row : Row} {mask rule n : Nat} (settled : row.settled = true)
    (member : (mask, rule) ∈ row.reductions) (bound : n ≤ Automaton.kindCount)
    (inside : mask.testBit n = true) : row.act n = some (.reduce rule) := by
  have here := List.all_eq_true.mp settled (mask, rule) member
  have alone := List.all_eq_true.mp here n (List.mem_range.mpr (Nat.lt_succ_of_le bound))
  simp only [inside, Bool.not_true, Bool.false_or, Bool.and_eq_true, beq_iff_eq] at alone
  rw [act, alone.1, alone.2]
  rfl

end Row

namespace Automaton

def rowAt (state : Nat) : Row := rows.getD state ⟨[], [], []⟩

theorem action_eq_act (state : Nat) (lookahead : Lookahead) :
    action state lookahead = (rowAt state).act (lookaheadNumber lookahead) := by
  unfold action rowAt
  rw [List.getD_eq_getElem?_getD]
  cases rows[state]? <;> rfl

theorem lookaheadNumber_le (lookahead : Lookahead) : lookaheadNumber lookahead ≤ kindCount := by
  cases lookahead with
  | none => exact Nat.le_refl _
  | some kind => exact List.idxOf_le_length

theorem lt_of_goto {state target : Nat} {name : Nonterminal}
    (goes : goto state name = some target) : state < rows.length := by
  unfold goto at goes
  split at goes
  · cases goes
  · rename_i row found
    exact (List.getElem?_eq_some_iff.mp found).1

def move (state : Nat) : Symbol → Option Nat
  | .terminal kind =>
    match action state (some kind) with
    | some (.shift target) => some target
    | _ => none
  | .nonterminal name => goto state name

def path (state : Nat) : List Symbol → Option Nat
  | [] => some state
  | s :: rest => (move state s).bind (path · rest)

theorem action_of_move {state target : Nat} {kind : TokenKind}
    (moves : move state (.terminal kind) = some target) :
    action state (some kind) = some (.shift target) := by
  simp only [move] at moves
  split at moves
  · rename_i other acts
    rw [acts, Option.some.inj moves]
  · cases moves

/-- Whether a production leads from the state to one that reduces by it wherever the automaton goes
    on after its left side. -/
def completes (rule : GrammarRule) (number state : Nat) : Bool :=
  match goto state rule.lhs, path state rule.rhs with
  | none, _ => true
  | some _, none => false
  | some next, some last =>
    0 < number && (rowAt last).reductions.any fun (mask, reduced) =>
      reduced == number && (rowAt next).within mask

/-- Whether nothing is reduced after a nonterminal with an empty production, except at the end of a
    program. -/
def closes (rule : GrammarRule) (state : Nat) : Bool :=
  match rule.rhs, goto state rule.lhs with
  | [], some next => (rowAt next).reductions.all (·.2 == 0)
  | _, _ => true

section Tables

theorem rows_settled : rows.all Row.settled = true := by
  decide +kernel

theorem all_complete : Production.all.zipIdx.all (fun (rule, number) =>
    (List.range rows.length).all (completes rule number)) = true := by
  decide +kernel

theorem all_close : Production.all.all (fun rule => (List.range rows.length).all (closes rule)) =
    true := by
  decide +kernel

end Tables

theorem rowAt_settled (state : Nat) : (rowAt state).settled = true := by
  unfold rowAt
  rw [List.getD_eq_getElem?_getD]
  cases found : rows[state]? with
  | none => rfl
  | some row => exact List.all_eq_true.mp rows_settled row (List.mem_of_getElem? found)

end Automaton

theorem Production.mem_all {lhs : Nonterminal} {rhs : List Symbol} (p : Production lhs rhs) :
    ⟨p⟩ ∈ Production.all := by
  -- The place in the list is found by going down it.
  cases p
  case level tier | link tier | chain tier =>
    cases tier <;> repeat first | exact List.Mem.head _ | apply List.Mem.tail
  case emptyList of | oneList of | commaList of | openList of | firstClosed of | nextClosed of =>
    cases of <;> repeat first | exact List.Mem.head _ | apply List.Mem.tail
  all_goals repeat first | exact List.Mem.head _ | apply List.Mem.tail

namespace Automaton

variable {state next : Nat} {lhs : Nonterminal} {rhs : List Symbol}

theorem exists_reduction (p : Production lhs rhs) (goes : goto state lhs = some next) :
    ∃ last number, path state rhs = some last ∧ number ≠ 0 ∧
      Production.all[number]? = some ⟨p⟩ ∧
      ∀ lookahead, (action next lookahead).isSome = true →
        action last lookahead = some (.reduce number) := by
  obtain ⟨number, found⟩ := List.mem_iff_getElem?.mp p.mem_all
  have numbered := List.all_eq_true.mp all_complete (⟨p⟩, number)
    (List.mem_zipIdx_iff_getElem?.mpr found)
  have complete := List.all_eq_true.mp numbered state (List.mem_range.mpr (lt_of_goto goes))
  simp only [completes, goes] at complete
  cases reached : path state rhs with
  | none => simp [reached] at complete
  | some last =>
    simp only [reached, Bool.and_eq_true, decide_eq_true_eq, List.any_eq_true, beq_iff_eq]
      at complete
    obtain ⟨proper, ⟨mask, reduced⟩, member, rfl, inside⟩ := complete
    refine ⟨last, reduced, rfl, Nat.ne_of_gt proper, found, fun lookahead acts => ?_⟩
    rw [action_eq_act] at acts ⊢
    exact Row.act_reduce (rowAt_settled last) member (lookaheadNumber_le lookahead)
      (Row.act_testBit inside acts)

theorem eq_zero_of_empty {lookahead : Lookahead} {number : Nat} (p : Production lhs [])
    (goes : goto state lhs = some next) (acts : action next lookahead = some (.reduce number)) :
    number = 0 := by
  have closed := List.all_eq_true.mp (List.all_eq_true.mp all_close ⟨p⟩ p.mem_all) state
    (List.mem_range.mpr (lt_of_goto goes))
  simp only [closes, goes, List.all_eq_true, beq_iff_eq] at closed
  rw [action_eq_act] at acts
  unfold Row.act at acts
  split at acts
  · cases acts
  · obtain ⟨reduction, found, same⟩ := Option.map_eq_some_iff.mp acts
    have zero := closed reduction (List.mem_of_find?_eq_some found)
    rw [← Action.reduce.inj same]
    exact zero

end Automaton

end MonkeyLang
