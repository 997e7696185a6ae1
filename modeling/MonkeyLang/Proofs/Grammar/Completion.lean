import Mathlib.Data.List.Basic
import MonkeyLang.Proofs.Grammar.Derivation

namespace MonkeyLang

/-- How many productions lie at most between the whole program and one that begins with the
    nonterminal, among those that are chosen to complete a stack. -/
def Nonterminal.depth : Nonterminal → Nat
  | program | list _ | operator _ | alternative => 0
  | body | closedList _ | block => 1
  | statements => 2
  | statement => 3
  | plainStatement => 4
  | expr => 5
  | conditional | level .or => 6
  | chain .or => 7
  | level .and => 8
  | chain .and => 9
  | level .equality => 10
  | chain .equality => 11
  | level .comparison => 12
  | chain .comparison => 13
  | level .sum => 14
  | chain .sum => 15
  | level .product => 16
  | chain .product => 17
  | unary => 18
  | postfixed => 19
  | primary => 20
  | placedLiteral | placedIdent => 21
  | literal | ident => 22

def Symbol.depth : Symbol → Nat
  | terminal _ => 23
  | nonterminal name => name.depth

theorem Symbol.depth_le (s : Symbol) : s.depth ≤ 23 := by
  cases s with
  | terminal => exact Nat.le_refl _
  | nonterminal name =>
    cases name with
    | level tier | chain tier => cases tier <;> decide
    | _ => simp only [depth, Nonterminal.depth]; omega

section Numbers

theorem TokenKind.mem_all (kind : TokenKind) : kind ∈ TokenKind.all := by
  cases kind with
  | fixed word => cases word <;> decide
  | _ => decide

theorem Nonterminal.mem_all (name : Nonterminal) : name ∈ Nonterminal.all := by
  cases name with
  | level tier | chain tier | operator tier => cases tier <;> decide
  | list of | closedList of => cases of <;> decide
  | _ => decide

theorem Automaton.symbolNumber_injective {s t : Symbol} (same : symbolNumber s = symbolNumber t) :
    s = t := by
  have below (kind : TokenKind) : TokenKind.all.idxOf kind < kindCount :=
    List.idxOf_lt_length_of_mem kind.mem_all
  cases s with
  | terminal kind =>
    cases t with
    | terminal other => rw [(List.idxOf_inj kind.mem_all).mp same]
    | nonterminal other =>
      have less := below kind
      simp only [symbolNumber] at same
      omega
  | nonterminal name =>
    cases t with
    | terminal other =>
      have less := below other
      simp only [symbolNumber] at same
      omega
    | nonterminal other =>
      rw [(List.idxOf_inj name.mem_all).mp (Nat.add_left_cancel same)]

end Numbers

namespace Automaton

structure Edge where
  source : Nat
  symbol : Nat
  target : Nat

def edges : List Edge :=
  rows.zipIdx.flatMap fun (row, source) =>
    row.shifts.map (fun (kind, target) => ⟨source, kind, target⟩) ++
      row.gotos.map fun (name, target) => ⟨source, kindCount + name, target⟩

theorem mem_edges {state target : Nat} {s : Symbol} (moves : move state s = some target) :
    ⟨state, symbolNumber s, target⟩ ∈ edges := by
  have inRow {row : Row} (found : rows[state]? = some row)
      (listed : (∃ kind, s = .terminal kind ∧ (symbolNumber s, target) ∈ row.shifts) ∨
        ∃ name, s = .nonterminal name ∧ (Nonterminal.all.idxOf name, target) ∈ row.gotos) :
      ⟨state, symbolNumber s, target⟩ ∈ edges := by
    refine List.mem_flatMap.mpr ⟨(row, state), List.mem_zipIdx_iff_getElem?.mpr found, ?_⟩
    rcases listed with ⟨kind, rfl, member⟩ | ⟨name, rfl, member⟩
    · exact List.mem_append_left _ (List.mem_map.mpr ⟨_, member, rfl⟩)
    · exact List.mem_append_right _ (List.mem_map.mpr ⟨_, member, rfl⟩)
  cases s with
  | terminal kind =>
    have acts := action_of_move moves
    unfold action at acts
    split at acts
    · cases acts
    · rename_i row found
      split at acts
      · rename_i other shifts
        cases acts
        obtain ⟨before, after, split, _⟩ := List.lookup_eq_some_iff.mp shifts
        have member : (lookaheadNumber (some kind), target) ∈ row.shifts :=
          split ▸ List.mem_append_right _ List.mem_cons_self
        exact inRow found (.inl ⟨kind, rfl, member⟩)
      · obtain ⟨reduction, _, reduces⟩ := Option.map_eq_some_iff.mp acts
        cases reduces
  | nonterminal name =>
    simp only [move, goto] at moves
    split at moves
    · cases moves
    · rename_i row found
      obtain ⟨before, after, split, _⟩ := List.lookup_eq_some_iff.mp moves
      have member : (Nonterminal.all.idxOf name, target) ∈ row.gotos :=
        split ▸ List.mem_append_right _ List.mem_cons_self
      exact inRow found (.inr ⟨name, rfl, member⟩)

/-- For every state the productions that are under way in it: their numbers, and how many of their
    symbols are passed. -/
def items : List (List (Nat × Nat)) :=
  [[], [(0, 1)], [(2, 1), (14, 1)], [(3, 1), (4, 1), (6, 1)], [(5, 1)], [(7, 1)], [(8, 1)],
   [(9, 1), (10, 1)], [(11, 1)], [(12, 1), (13, 1)], [(15, 1), (16, 1)], [(20, 1), (21, 1)],
   [(22, 1)], [(23, 1), (24, 1)], [(25, 1)], [(26, 1), (27, 1)], [(28, 1)], [(29, 1), (30, 1)],
   [(31, 1)], [(32, 1), (33, 1)], [(34, 1)], [(35, 1), (36, 1)], [(37, 1)], [(51, 1)], [(52, 1)],
   [(53, 1), (54, 1), (55, 1), (56, 1)], [(57, 1)], [(58, 1)], [(59, 1)], [(60, 1)], [(61, 1)],
   [(62, 1)], [(63, 1)], [(64, 1)], [(65, 1)], [(66, 1)], [(67, 1)], [(68, 1)], [(69, 1)],
   [(70, 1)], [(71, 1)], [(72, 1)], [(4, 2), (14, 1)], [(6, 2)], [(8, 2)], [(9, 2)], [(10, 2)],
   [(13, 1)], [(14, 1)], [(11, 2)], [(15, 2), (16, 2)], [(21, 2)], [(38, 1)], [(24, 2)], [(39, 1)],
   [(27, 2)], [(40, 1)], [(41, 1)], [(30, 2)], [(42, 1)], [(43, 1)], [(44, 1)], [(45, 1)],
   [(33, 2)], [(46, 1)], [(47, 1)], [(36, 2)], [(48, 1)], [(49, 1)], [(50, 1)], [(51, 2)],
   [(52, 2)], [(54, 2)], [(55, 2)], [(56, 2)], [(60, 2)], [(61, 2)], [(74, 1), (77, 1)],
   [(75, 1), (76, 1), (78, 1)], [(62, 2)], [(8, 3)], [(9, 3)], [(15, 3), (16, 3)], [(19, 1)],
   [(21, 3)], [(24, 3)], [(27, 3)], [(30, 3)], [(33, 3)], [(36, 3)], [(54, 3)], [(55, 3)],
   [(56, 3)], [(60, 3)], [(61, 3)], [(77, 2)], [(76, 2), (78, 2)], [(62, 3)], [(80, 1), (83, 1)],
   [(81, 1), (82, 1), (84, 1)], [(8, 4)], [(16, 4)], [(19, 2)], [(54, 4)], [(55, 4)], [(56, 4)],
   [(78, 3)], [(62, 4)], [(83, 2)], [(82, 2), (84, 2)], [(8, 5)], [(16, 5)], [(17, 1)], [(18, 1)],
   [(19, 3)], [(55, 5)], [(62, 5)], [(84, 3)], [(55, 6)]]

def itemsAt (state : Nat) : List (Nat × Nat) := items.getD state []

def admitsName (name : Nonterminal) (state : Nat) : Bool :=
  match name with
  | .program => state == 0
  | name => (goto state name).isSome

def passes (edge : Edge) : Nat × Nat → Bool
  | (_, 0) => false
  | (number, passed + 1) =>
    match Production.all[number]? with
    | none => false
    | some rule =>
      rule.rhs[passed]?.map symbolNumber == some edge.symbol &&
        if passed = 0 then admitsName rule.lhs edge.source
        else (itemsAt edge.source).contains (number, passed)

/-- Whether the stack gets lower when the production is completed, or its last tree comes nearer to
    the whole program. -/
def leadsOn : Nat × Nat → Bool
  | (number, passed) =>
    match Production.all[number]?, passed with
    | none, _ | _, 0 => false
    | some rule, 1 => rule.rhs.head?.any fun s => rule.lhs.depth < s.depth
    | _, _ => true

section Tables

theorem edges_inside : edges.all (fun edge =>
    edge.target != 0 && edge.target < items.length) = true := by
  decide +kernel

theorem edges_pass : edges.all (fun edge => (itemsAt edge.target).all (passes edge)) = true := by
  decide +kernel

theorem items_leadOn : (List.range items.length).all (fun state =>
    state == 0 || (itemsAt state).any leadsOn) = true := by
  decide +kernel

end Tables

variable {source target : Nat} {s : Symbol}

theorem ne_zero_of_move (moves : move source s = some target) : target ≠ 0 := by
  have inside := List.all_eq_true.mp edges_inside _ (mem_edges moves)
  simp only [Bool.and_eq_true, bne_iff_ne] at inside
  exact inside.1

theorem exists_leadsOn (moves : move source s = some target) :
    ∃ item ∈ itemsAt target, leadsOn item = true := by
  have inside := List.all_eq_true.mp edges_inside _ (mem_edges moves)
  simp only [Bool.and_eq_true, decide_eq_true_eq] at inside
  have lead := List.all_eq_true.mp items_leadOn target (List.mem_range.mpr inside.2)
  simp only [Bool.or_eq_true, beq_iff_eq] at lead
  exact List.any_eq_true.mp (lead.resolve_left (ne_zero_of_move moves))

theorem passes_of_move {number passed : Nat} (moves : move source s = some target)
    (underWay : (number, passed) ∈ itemsAt target) :
    ∃ before rule, passed = before + 1 ∧ Production.all[number]? = some rule ∧
      rule.rhs[before]? = some s ∧
      (before = 0 ∧ admitsName rule.lhs source = true ∨
        (number, before) ∈ itemsAt source) := by
  have passing := List.all_eq_true.mp
    (List.all_eq_true.mp edges_pass _ (mem_edges moves)) _ underWay
  unfold passes at passing
  split at passing
  · cases passing
  · rename_i number before same
    cases same
    split at passing
    · cases passing
    · rename_i rule found
      simp only [Bool.and_eq_true, beq_iff_eq, Option.map_eq_some_iff] at passing
      obtain ⟨⟨symbol, here, number⟩, from_⟩ := passing
      cases symbolNumber_injective number
      refine ⟨before, rule, rfl, found, here, ?_⟩
      split at from_
      · exact .inl ⟨‹_›, from_⟩
      · exact .inr (List.contains_iff_mem.mp from_)

end Automaton

section Trees

def Forest.append {xs ys : List Symbol} : Forest xs → Forest ys → Forest (xs ++ ys)
  | .nil, later => later
  | .cons tree trees, later => .cons tree (trees.append later)

@[simp] theorem Forest.lexemes_append {xs ys : List Symbol} (first : Forest xs)
    (later : Forest ys) : (first.append later).lexemes = first.lexemes ++ later.lexemes := by
  cases first with
  | nil => simp [append]
  | cons tree trees => simp [append, trees.lexemes_append later]

theorem Forest.exists_of_all {symbols : List Symbol} (all : ∀ s ∈ symbols, Nonempty (Tree s)) :
    Nonempty (Forest symbols) := by
  induction symbols with
  | nil => exact ⟨.nil⟩
  | cons s rest ih =>
    obtain ⟨here, others⟩ := List.forall_mem_cons.mp all
    obtain ⟨tree⟩ := here
    obtain ⟨trees⟩ := ih others
    exact ⟨.cons tree trees⟩

theorem TokenKind.exists_payload (kind : TokenKind) : Nonempty kind.Payload := by
  cases kind with
  | fixed => exact ⟨()⟩
  | int | uint | float => exact ⟨0⟩
  | string | ident => exact ⟨""⟩

theorem Symbol.exists_tree (s : Symbol) : Nonempty (Tree s) := by
  have leaf (kind : TokenKind) : Nonempty (Tree (.terminal kind)) := by
    obtain ⟨payload⟩ := kind.exists_payload
    exact ⟨.leaf kind payload default⟩
  have node {lhs : Nonterminal} {rhs : List Symbol} (p : Production lhs rhs)
      (kids : ∀ s ∈ rhs, Nonempty (Tree s)) : Nonempty (Tree (.nonterminal lhs)) := by
    obtain ⟨trees⟩ := Forest.exists_of_all kids
    exact ⟨.node p trees⟩
  have literal := node .nilLiteral (by simp [leaf])
  have placed := node .placedLiteral (by simp [literal])
  have primary := node .literalPrimary (by simp [placed])
  have postfixed := node .primaryPostfixed (by simp [primary])
  have unary := node .postfixedUnary (by simp [postfixed])
  have chain (tier : Tier) (operand : Nonempty (Tree (.nonterminal tier.operand))) :=
    node (.chain tier) (by simp [operand])
  have level (tier : Tier) (operand : Nonempty (Tree (.nonterminal tier.operand))) :=
    node (.level tier) (by simp [chain tier operand])
  have product := level .product unary
  have sum := level .sum product
  have comparison := level .comparison sum
  have equality := level .equality comparison
  have and := level .and equality
  have or := level .or and
  have expr := node .levelExpr (by simp [or])
  have ident := node .ident (by simp [leaf])
  have body := node .emptyBody (by simp)
  have block := node .block (by simp [leaf, body])
  have plain := node .result (by simp [leaf])
  have statement := node .statement (by simp [plain])
  have element (of : Listed) : Nonempty (Tree (.nonterminal of.element)) := by
    cases of <;> assumption
  cases s with
  | terminal kind => exact leaf kind
  | nonterminal name =>
    cases name with
    | program => exact node .program (by simp [body])
    | statements => exact node .firstStatement (by simp [statement])
    | conditional => exact node .ifThen (by simp [leaf, or, block])
    | alternative => exact node .blockAlternative (by simp [block])
    | level tier => cases tier <;> assumption
    | chain tier => exact chain tier (by cases tier <;> assumption)
    | operator tier =>
      cases tier with
      | or => exact node .orOperator (by simp [leaf])
      | and => exact node .andOperator (by simp [leaf])
      | equality => exact node .eqOperator (by simp [leaf])
      | comparison => exact node .ltOperator (by simp [leaf])
      | sum => exact node .addOperator (by simp [leaf])
      | product => exact node .mulOperator (by simp [leaf])
    | placedIdent => exact node .placedIdent (by simp [ident])
    | list of => exact node (.emptyList of) (by simp)
    | closedList of => exact node (.firstClosed of) (by simp [leaf, element of])
    | _ => assumption

end Trees

namespace Stack

inductive Linked : Stack → Prop
  | nil : Linked []
  | cons {entry : StackEntry} {below : Stack}
      (moves : Automaton.move (state below) entry.symbol = some entry.state)
      (linked : Linked below) : Linked (entry :: below)

section Linked

variable {stack below next : Stack}

theorem Linked.eq_nil (linked : Linked stack) (start : state stack = 0) : stack = [] := by
  cases linked with
  | nil => rfl
  | cons moves _ => exact absurd start (Automaton.ne_zero_of_move moves)

theorem Linked.taken {symbols : List Symbol} {kids : Forest symbols} (linked : Linked stack)
    (taken : take? symbols stack = some (kids, below)) : Linked below := by
  induction symbols generalizing below with
  | nil =>
    cases taken
    exact linked
  | cons s rest ih =>
    obtain ⟨tree, trees, state, rfl, found⟩ := take?_cons taken
    cases ih found with
    | cons _ linked => exact linked

theorem Linked.reduced {rule : GrammarRule} (linked : Linked stack)
    (reduced : stack.reduce? rule = some next) : Linked next := by
  obtain ⟨kids, below, target, taken, goes, rfl⟩ := reduce?_eq_some reduced
  exact .cons goes (linked.taken taken)

theorem Linked.settledIn (linked : Linked stack) (lookahead : Lookahead) (fuel : Nat) :
    match settleIn lookahead fuel stack with
    | .shift target after =>
      Linked after ∧ Automaton.action (state after) lookahead = some (.shift target)
    | .stuck after => Linked after
    | .finish _ => True := by
  fun_induction settleIn lookahead fuel stack with
  | case1 | case2 | case5 | case6 | case8 => exact linked
  | case3 _ _ _ acts => exact ⟨linked, acts⟩
  | case4 => trivial
  | case7 _ _ _ _ _ _ _ _ reduced ih => exact ih (linked.reduced reduced)

theorem exists_take_concat {symbols : List Symbol} {kids : Forest symbols}
    (taken : take? symbols stack = some (kids, below)) {s : Symbol} (tree : Tree s) (n : Nat) :
    ∃ more, take? (symbols ++ [s]) (⟨tree, n⟩ :: stack) = some (more, below) := by
  induction symbols generalizing below with
  | nil =>
    cases taken
    exact ⟨.cons tree .nil, by simp [take?]⟩
  | cons first rest ih =>
    obtain ⟨here, trees, state, rfl, found⟩ := take?_cons taken
    obtain ⟨more, longer⟩ := ih found
    refine ⟨.cons here more, ?_⟩
    change take? (first :: (rest ++ [s])) _ = _
    rw [take?, longer]
    exact dif_pos rfl

theorem Linked.underWay {number passed : Nat} (linked : Linked stack)
    (item : (number, passed) ∈ Automaton.itemsAt (state stack)) :
    ∃ rule before after kids below, Production.all[number]? = some rule ∧
      rule.rhs = before ++ after ∧ before.length = passed ∧
      take? before stack = some (kids, below) ∧
      Automaton.admitsName rule.lhs (state below) = true := by
  induction linked generalizing passed with
  | nil => cases item
  | @cons entry under moves _ ih =>
    obtain ⟨passed, rule, rfl, found, here, origin⟩ := Automaton.passes_of_move moves item
    have earlier : ∃ before after kids below, rule.rhs = before ++ after ∧
        before.length = passed ∧ take? before under = some (kids, below) ∧
        Automaton.admitsName rule.lhs (state below) = true := by
      rcases origin with ⟨rfl, admits⟩ | item
      · exact ⟨[], rule.rhs, .nil, under, rfl, rfl, rfl, admits⟩
      · obtain ⟨other, before, after, kids, below, found', rest⟩ := ih item
        cases found.symm.trans found'
        exact ⟨before, after, kids, below, rest⟩
    obtain ⟨before, after, kids, below, whole, rfl, taken, admits⟩ := earlier
    rw [whole, List.getElem?_append_right (Nat.le_refl _), Nat.sub_self] at here
    cases after with
    | nil => cases here
    | cons s after =>
      cases here
      obtain ⟨more, longer⟩ := exists_take_concat taken entry.tree entry.state
      refine ⟨rule, before ++ [entry.symbol], after, more, below, found, ?_, ?_, longer, admits⟩
      · rw [whole, List.append_assoc, List.singleton_append]
      · rw [List.length_append, List.length_singleton]

end Linked

/-- How far the stack is from a whole program. The height counts more than the last tree. -/
def distance : Stack → Nat
  | [] => 0
  | entry :: below => 24 * (below.length + 1) + entry.symbol.depth

theorem distance_lt {stack below : Stack} {number : Nat} {rule : GrammarRule}
    {before after : List Symbol} {kids : Forest before} {entry : StackEntry}
    (found : Production.all[number]? = some rule) (split : rule.rhs = before ++ after)
    (leads : Automaton.leadsOn (number, before.length) = true)
    (taken : take? before stack = some (kids, below))
    (left : entry.symbol = .nonterminal rule.lhs) :
    distance (entry :: below) < distance stack := by
  have lowest := entry.symbol.depth_le
  match before with
  | [] => simp [Automaton.leadsOn, found] at leads
  | [s] =>
    obtain ⟨tree, trees, n, _, under⟩ := take?_cons taken
    cases under
    simp only [Automaton.leadsOn, found, split, List.length_singleton, List.head?_append,
      List.head?_cons, Option.some_or, Option.any_some, decide_eq_true_eq] at leads
    have nearer : entry.symbol.depth < s.depth := left ▸ leads
    simp only [distance]
    omega
  | s :: next :: rest =>
    have length := take?_length taken
    cases stack with
    | nil =>
      simp only [List.length_cons, List.length_nil] at length
      omega
    | cons top under =>
      simp only [List.length_cons] at length
      simp only [distance]
      omega

/-- Some further lexemes make a program of what is on the stack. -/
theorem Linked.completes {stack : Stack} (linked : Linked stack) :
    ∃ (more : List Lexeme) (tree : Tree (.nonterminal .program)),
      tree.lexemes = stack.lexemes ++ more := by
  induction height : distance stack using Nat.strongRecOn generalizing stack with
  | _ n ih =>
    subst height
    cases linked with
    | nil =>
      obtain ⟨tree⟩ := Symbol.exists_tree (.nonterminal .program)
      exact ⟨tree.lexemes, tree, rfl⟩
    | @cons entry under moves linked =>
      have whole := Linked.cons moves linked
      obtain ⟨⟨number, passed⟩, item, leads⟩ := Automaton.exists_leadsOn moves
      obtain ⟨rule, before, after, kids, below, found, split, rfl, taken, admits⟩ :=
        whole.underWay item
      -- The rest of the production is made up, and the production is completed.
      obtain ⟨others⟩ : Nonempty (Forest after) :=
        Forest.exists_of_all fun s _ => s.exists_tree
      have lexemes := take?_lexemes taken
      have nearer (entry : StackEntry) (left : entry.symbol = .nonterminal rule.lhs) :=
        distance_lt found split leads taken left
      obtain @⟨lhs, rhs, production⟩ := rule
      subst split
      have completed : (Tree.node production (kids.append others)).lexemes =
          kids.lexemes ++ others.lexemes := by simp
      by_cases last : lhs = .program
      · subst last
        have start : state below = 0 := by simpa [Automaton.admitsName] using admits
        have bottom : below = [] := (whole.taken taken).eq_nil start
        subst bottom
        exact ⟨others.lexemes, _, by rw [completed, lexemes, Stack.lexemes, List.nil_append]⟩
      · have goes : (Automaton.goto (state below) lhs).isSome = true := by
          cases lhs <;> first | exact absurd rfl last | exact admits
        obtain ⟨target, goes⟩ := Option.isSome_iff_exists.mp goes
        have next : Linked (⟨.node production (kids.append others), target⟩ :: below) :=
          .cons goes (whole.taken taken)
        obtain ⟨more, tree, found⟩ := ih _ (nearer _ rfl) next rfl
        refine ⟨others.lexemes ++ more, tree, ?_⟩
        rw [found, Stack.lexemes, completed, lexemes]
        simp

end Stack

end MonkeyLang
