import MonkeyLang.Grammar.Derivation
import MonkeyLang.Proofs.Grammar.Moves

namespace MonkeyLang

/-- How many productions with one symbol on the right may lead to the nonterminal at most. -/
def Nonterminal.rank : Nonterminal → Nat
  | operator _ | literal | ident | block | conditional | closedList _ => 1
  | placedLiteral | placedIdent | alternative | plainStatement => 2
  | primary | statement => 3
  | postfixed | statements => 4
  | unary => 5
  | chain .product => 6
  | level .product => 7
  | chain .sum => 8
  | level .sum => 9
  | chain .comparison => 10
  | level .comparison => 11
  | chain .equality => 12
  | level .equality => 13
  | chain .and => 14
  | level .and => 15
  | chain .or => 16
  | level .or => 17
  | expr | body => 18
  | list _ | program => 19

def Symbol.rank : Symbol → Nat
  | terminal _ => 0
  | nonterminal name => name.rank

theorem Nonterminal.rank_le (name : Nonterminal) : name.rank ≤ 19 := by
  cases name with
  | level tier | chain tier => cases tier <;> decide
  | _ => simp only [rank]; omega

theorem Production.rank_lt {lhs : Nonterminal} {s : Symbol} (p : Production lhs [s]) :
    s.rank < lhs.rank := by
  cases p with
  | level tier | chain tier => cases tier <;> decide
  | oneList of => cases of <;> decide
  | commaList of => cases of <;> decide
  | _ => decide

namespace Stack

def lexemes : Stack → List Lexeme
  | [] => []
  | entry :: below => lexemes below ++ entry.tree.lexemes

/-- What bounds the number of reductions: those that take two or more trees make the stack lower,
    those that take one make its top rank higher. -/
def burden : Stack → Nat
  | [] => 20
  | entry :: below => 39 * (below.length + 1) + (20 - entry.symbol.rank)

theorem burden_pos (stack : Stack) : 0 < stack.burden := by
  cases stack <;> simp only [burden] <;> omega

theorem length_le_burden (stack : Stack) : 39 * stack.length ≤ stack.burden := by
  cases stack <;> simp only [burden, List.length_nil, List.length_cons] <;> omega

section Taking

variable {stack below : Stack}

theorem take?_cons {s : Symbol} {symbols : List Symbol} {kids : Forest (s :: symbols)}
    (taken : take? (s :: symbols) stack = some (kids, below)) :
    ∃ (tree : Tree s) (trees : Forest symbols) (state : Nat), kids = .cons tree trees ∧
      take? symbols stack = some (trees, ⟨tree, state⟩ :: below) := by
  rw [take?] at taken
  split at taken
  · rename_i trees entry under found
    split at taken
    · rename_i same
      obtain ⟨tree, state⟩ := entry
      cases same
      cases taken
      exact ⟨tree, trees, state, rfl, found⟩
    · cases taken
  · cases taken

theorem take?_length {symbols : List Symbol} {kids : Forest symbols}
    (taken : take? symbols stack = some (kids, below)) :
    stack.length = symbols.length + below.length := by
  induction symbols generalizing below with
  | nil =>
    cases taken
    exact (Nat.zero_add _).symm
  | cons s rest ih =>
    obtain ⟨tree, trees, state, rfl, found⟩ := take?_cons taken
    have length := ih found
    simp only [List.length_cons] at length ⊢
    omega

theorem take?_lexemes {symbols : List Symbol} {kids : Forest symbols}
    (taken : take? symbols stack = some (kids, below)) :
    stack.lexemes = below.lexemes ++ kids.lexemes := by
  induction symbols generalizing below with
  | nil =>
    cases taken
    simp [Forest.lexemes]
  | cons s rest ih =>
    obtain ⟨tree, trees, state, rfl, found⟩ := take?_cons taken
    rw [ih found, lexemes, Forest.lexemes, List.append_assoc]

end Taking

section Reducing

variable {rule : GrammarRule} {stack next : Stack}

theorem reduce?_eq_some (reduced : stack.reduce? rule = some next) :
    ∃ kids below target, take? rule.rhs stack = some (kids, below) ∧
      Automaton.goto (state below) rule.lhs = some target ∧
      next = ⟨.node rule.production kids, target⟩ :: below := by
  unfold reduce? at reduced
  split at reduced
  · cases reduced
  · rename_i kids below taken
    obtain ⟨target, goes, rfl⟩ := Option.map_eq_some_iff.mp reduced
    exact ⟨kids, below, target, taken, goes, rfl⟩

theorem reduce?_lexemes (reduced : stack.reduce? rule = some next) :
    next.lexemes = stack.lexemes := by
  obtain ⟨kids, below, target, taken, _, rfl⟩ := reduce?_eq_some reduced
  rw [take?_lexemes taken, lexemes, Tree.lexemes]

theorem reduce?_burden (reduced : stack.reduce? rule = some next) (takes : rule.rhs ≠ []) :
    next.burden < stack.burden := by
  obtain ⟨kids, below, target, taken, _, rfl⟩ := reduce?_eq_some reduced
  obtain @⟨lhs, rhs, production⟩ := rule
  have highest := lhs.rank_le
  match rhs with
  | [] => exact absurd rfl takes
  | [s] =>
    obtain ⟨tree, trees, state, _, found⟩ := take?_cons taken
    cases found
    have higher := production.rank_lt
    have rank : (Symbol.nonterminal lhs).rank = lhs.rank := rfl
    simp only [burden]
    omega
  | s :: other :: rest =>
    have length := take?_length taken
    have bound := length_le_burden stack
    simp only [List.length_cons] at length
    have after (entry : StackEntry) : burden (entry :: below) ≤ 39 * (below.length + 1) + 20 :=
      Nat.add_le_add_left (Nat.sub_le _ _) _
    exact Nat.lt_of_le_of_lt (after _) (by omega)

theorem reduce?_closes (reduced : stack.reduce? rule = some next) (empty : rule.rhs = [])
    {lookahead : Lookahead} {number : Nat}
    (acts : Automaton.action next.state lookahead = some (.reduce number)) : number = 0 := by
  obtain ⟨kids, below, target, _, goes, rfl⟩ := reduce?_eq_some reduced
  obtain @⟨lhs, rhs, production⟩ := rule
  cases empty
  exact Automaton.eq_zero_of_empty production goes acts

end Reducing

theorem finish?_lexemes {stack : Stack} {tree : Tree (.nonterminal .program)}
    (finished : stack.finish? = some tree) : tree.lexemes = stack.lexemes := by
  unfold finish? at finished
  split at finished
  · rename_i kids taken
    cases finished
    rw [take?_lexemes taken, Tree.lexemes, lexemes, List.nil_append]
  · cases finished

section Settling

variable {lookahead : Lookahead} {stack next : Stack} {number : Nat} {rule : GrammarRule}

theorem settleIn_reduce (fuel : Nat)
    (acts : Automaton.action stack.state lookahead = some (.reduce number)) (proper : number ≠ 0)
    (found : Production.all[number]? = some rule) (reduced : stack.reduce? rule = some next) :
    settleIn lookahead (fuel + 1) stack = settleIn lookahead fuel next := by
  obtain ⟨n, rfl⟩ := Nat.exists_eq_succ_of_ne_zero proper
  rw [settleIn, acts]
  simp only [found, reduced]

theorem settleIn_due (a b : Nat) (due : ∀ number,
    Automaton.action stack.state lookahead = some (.reduce number) → number = 0) :
    settleIn lookahead (a + 1) stack = settleIn lookahead (b + 1) stack := by
  rw [settleIn, settleIn]
  split
  · rfl
  · rfl
  · rfl
  · rename_i number proper acts
    exact absurd (due number acts) proper

theorem settleIn_succ {fuel : Nat} (enough : stack.burden < fuel) :
    settleIn lookahead (fuel + 1) stack = settleIn lookahead fuel stack := by
  induction fuel generalizing stack with
  | zero => omega
  | succ fuel ih =>
    rw [settleIn, settleIn.eq_def lookahead (fuel + 1)]
    dsimp only
    split
    · rfl
    · rfl
    · rfl
    · split
      · rfl
      · rename_i rule _
        split
        · rename_i next reduced
          have more := stack.burden_pos
          by_cases empty : rule.rhs = []
          · have left : fuel ≠ 0 := by omega
            obtain ⟨fuel, rfl⟩ := Nat.exists_eq_succ_of_ne_zero left
            exact settleIn_due _ _ fun _ => reduce?_closes reduced empty
          · have less := reduce?_burden reduced empty
            exact ih (by omega)
        · rfl

theorem settleIn_of_le {fuel : Nat} (enough : stack.burden < fuel) :
    settleIn lookahead fuel stack = settleIn lookahead (stack.burden + 1) stack := by
  induction enough with
  | refl => rfl
  | step enough ih => rw [settleIn_succ enough, ih]

theorem settle_eq {fuel : Nat} (enough : stack.burden < fuel) :
    stack.settle lookahead = settleIn lookahead fuel stack := by
  have limit : stack.burden < reductionLimit stack.length := by
    cases stack <;> simp only [burden, reductionLimit, Automaton.nonterminalCount,
      List.length_nil, List.length_cons] <;> omega
  rw [settle, settleIn_of_le limit, settleIn_of_le enough]

theorem settle_reduce
    (acts : Automaton.action stack.state lookahead = some (.reduce number)) (proper : number ≠ 0)
    (found : Production.all[number]? = some rule) (reduced : stack.reduce? rule = some next) :
    stack.settle lookahead = next.settle lookahead := by
  have enough : stack.burden < stack.burden + next.burden + 1 + 1 := by omega
  have left : next.burden < stack.burden + next.burden + 1 := by omega
  rw [settle_eq enough, settle_eq left]
  exact settleIn_reduce _ acts proper found reduced

theorem settle_shift {target : Nat}
    (acts : Automaton.action stack.state lookahead = some (.shift target)) :
    stack.settle lookahead = .shift target stack := by
  rw [settle_eq (Nat.lt_succ_self _), settleIn, acts]

theorem settle_finish {tree : Tree (.nonterminal .program)}
    (acts : Automaton.action stack.state lookahead = some (.reduce 0))
    (finished : stack.finish? = some tree) : stack.settle lookahead = .finish tree := by
  rw [settle_eq (Nat.lt_succ_self _), settleIn, acts]
  simp only [finished]

end Settling

theorem settleIn_lexemes (lookahead : Lookahead) (fuel : Nat) (stack : Stack) :
    match settleIn lookahead fuel stack with
    | .shift _ after | .stuck after => after.lexemes = stack.lexemes
    | .finish tree => tree.lexemes = stack.lexemes := by
  fun_induction settleIn lookahead fuel stack with
  | case4 fuel stack acts tree finished => exact finish?_lexemes finished
  | case7 fuel stack number proper acts rule found next reduced ih =>
    rwa [reduce?_lexemes reduced] at ih
  | _ => rfl

end Stack

end MonkeyLang
