import MonkeyLang.Proofs.Grammar.Lists
import MonkeyLang.Proofs.Grammar.Settle

namespace MonkeyLang

def Lexeme.lookahead (rest : List Lexeme) : Lookahead := rest.head?.map (·.token.kind)

section Sound

theorem Stack.derive_lexemes {stack : Stack} {offset : Nat} {rest : List Lexeme}
    {tree : Tree (.nonterminal .program)} (found : stack.derive offset rest = .ok tree) :
    tree.lexemes = stack.lexemes ++ rest := by
  induction rest generalizing stack offset with
  | nil =>
    have kept := settleIn_lexemes none (reductionLimit stack.length) stack
    rw [derive, settle] at found
    split at found
    · rename_i settled
      rw [settled] at kept
      cases found
      rw [kept, List.append_nil]
    · cases found
    · cases found
  | cons first rest ih =>
    have kept := settleIn_lexemes (some first.token.kind) (reductionLimit stack.length) stack
    rw [derive, settle] at found
    split at found
    · rename_i settled
      rw [settled] at kept
      rw [ih found, lexemes, kept, List.append_assoc]
      rfl
    · cases found
    · cases found

end Sound

namespace Stack

def Finds (stack : Stack) (rest : List Lexeme) (program : Tree (.nonterminal .program)) : Prop :=
  ∀ offset, stack.derive offset rest = .ok program

variable {stack next : Stack} {rest : List Lexeme} {program : Tree (.nonterminal .program)}

theorem Finds.reduce {number : Nat} {rule : GrammarRule} (finds : next.Finds rest program)
    (acts : Automaton.action stack.state (Lexeme.lookahead rest) = some (.reduce number))
    (proper : number ≠ 0) (found : Production.all[number]? = some rule)
    (reduced : stack.reduce? rule = some next) : stack.Finds rest program := by
  intro offset
  have same := settle_reduce acts proper found reduced
  have later := finds offset
  cases rest with
  | nil =>
    change stack.settle none = next.settle none at same
    rw [derive] at later ⊢
    rwa [same]
  | cons first rest =>
    change stack.settle (some first.token.kind) = next.settle (some first.token.kind) at same
    rw [derive] at later ⊢
    rw [same]
    split at later
    · exact later
    · cases later
    · cases later

theorem Finds.shift (first : Lexeme) {target : Nat}
    (finds : Finds (⟨.ofLexeme first, target⟩ :: stack) rest program)
    (acts : Automaton.action stack.state (some first.token.kind) = some (.shift target)) :
    stack.Finds (first :: rest) program := by
  intro offset
  rw [derive, settle_shift acts]
  exact finds first.span.stop

end Stack

section Leading

mutual

theorem Tree.acts_first {s : Symbol} {state target : Nat} {rest : List Lexeme} (tree : Tree s)
    (moves : Automaton.move state s = some target)
    (ready : (Automaton.action target (Lexeme.lookahead rest)).isSome = true) :
    (Automaton.action state (Lexeme.lookahead (tree.lexemes ++ rest))).isSome = true := by
  match tree with
  | .leaf kind payload span =>
    rw [Tree.lexemes]
    change (Automaton.action state (some kind)).isSome = true
    rw [Automaton.action_of_move moves]
    rfl
  | .node production kids =>
    obtain ⟨last, number, reaches, _, _, reduces⟩ := Automaton.exists_reduction production moves
    rw [Tree.lexemes]
    exact kids.acts_first reaches (by rw [reduces _ ready]; rfl)

theorem Forest.acts_first {symbols : List Symbol} {state target : Nat} {rest : List Lexeme}
    (trees : Forest symbols) (reaches : Automaton.path state symbols = some target)
    (ready : (Automaton.action target (Lexeme.lookahead rest)).isSome = true) :
    (Automaton.action state (Lexeme.lookahead (trees.lexemes ++ rest))).isSome = true := by
  match trees with
  | .nil =>
    cases reaches
    exact ready
  | .cons tree trees =>
    obtain ⟨middle, moves, later⟩ := Option.bind_eq_some_iff.mp reaches
    rw [Forest.lexemes, List.append_assoc]
    exact tree.acts_first moves (trees.acts_first later ready)

end

end Leading

section Complete

variable {program : Tree (.nonterminal .program)}

mutual

theorem Tree.finds {s : Symbol} {target : Nat} {rest : List Lexeme} (tree : Tree s) (stack : Stack)
    (moves : Automaton.move stack.state s = some target)
    (ready : (Automaton.action target (Lexeme.lookahead rest)).isSome = true)
    (pushed : Stack.Finds (⟨tree, target⟩ :: stack) rest program) :
    stack.Finds (tree.lexemes ++ rest) program := by
  match tree with
  | .leaf kind payload span =>
    rw [Tree.lexemes]
    exact Stack.Finds.shift ⟨⟨kind, payload⟩, span⟩ pushed (Automaton.action_of_move moves)
  | .node production kids =>
    obtain ⟨last, number, reaches, proper, found, reduces⟩ :=
      Automaton.exists_reduction production moves
    have due := reduces _ ready
    obtain ⟨after, taken, state, finds⟩ := kids.finds stack reaches (by rw [due]; rfl)
    have reduced : after.reduce? ⟨production⟩ =
        some (⟨.node production kids, target⟩ :: stack) := by
      rw [Stack.reduce?, taken]
      exact congrArg (Option.map _) moves
    rw [Tree.lexemes]
    exact finds (pushed.reduce (state ▸ due) proper found reduced)

theorem Forest.finds {symbols : List Symbol} {target : Nat} {rest : List Lexeme}
    (trees : Forest symbols) (stack : Stack)
    (reaches : Automaton.path stack.state symbols = some target)
    (ready : (Automaton.action target (Lexeme.lookahead rest)).isSome = true) :
    ∃ after, Stack.take? symbols after = some (trees, stack) ∧ after.state = target ∧
      (after.Finds rest program → stack.Finds (trees.lexemes ++ rest) program) := by
  match trees with
  | .nil =>
    cases reaches
    exact ⟨stack, rfl, rfl, id⟩
  | .cons tree trees =>
    obtain ⟨middle, moves, onward⟩ := Option.bind_eq_some_iff.mp reaches
    obtain ⟨after, taken, state, finds⟩ := trees.finds (⟨tree, middle⟩ :: stack) onward ready
    refine ⟨after, ?_, state, fun found => ?_⟩
    · rw [Stack.take?, taken]
      exact dif_pos rfl
    · rw [Forest.lexemes, List.append_assoc]
      exact tree.finds stack moves (trees.acts_first onward ready) (finds found)

end

end Complete

theorem Tree.ofLexemes_lexemes (tree : Tree (.nonterminal .program)) :
    Tree.ofLexemes tree.lexemes = .ok tree := by
  cases tree with
  | node production kids =>
    cases production
    cases kids with
    | cons body none =>
      cases none
      have goes : Automaton.move (Stack.state []) (.nonterminal .body) = some 1 := by decide
      have ends : Automaton.action (Stack.state [⟨body, 1⟩]) none = some (.reduce 0) := by
        change Automaton.action 1 none = some (.reduce 0)
        decide
      have finished : Stack.finish? [⟨body, 1⟩] = some (.node .program (.cons body .nil)) := rfl
      have whole : Stack.Finds [⟨body, 1⟩] [] (.node .program (.cons body .nil)) := by
        intro offset
        rw [Stack.derive, Stack.settle_finish ends finished]
      have ready : (Automaton.action 1 (Lexeme.lookahead [])).isSome = true := by decide
      rw [Tree.lexemes, Forest.lexemes, Forest.lexemes]
      exact Tree.finds body [] goes ready whole 0

theorem Tree.ofLexemes_eq_ok_iff {lexemes : List Lexeme} {tree : Tree (.nonterminal .program)} :
    Tree.ofLexemes lexemes = .ok tree ↔ tree.lexemes = lexemes := by
  constructor
  · exact fun found => Stack.derive_lexemes found
  · rintro rfl
    exact tree.ofLexemes_lexemes

/-- The program of some lexemes is the value of their derivation from the grammar, which is the only
    one; and the derivations of bodies and lists are those of their repetitions. -/
theorem Program.ofLexemes_iff_derived (lexemes : List Lexeme) :
    (∀ program, Program.ofLexemes lexemes = .ok program ↔
      ∃ tree : Tree (.nonterminal .program), tree.lexemes = lexemes ∧ tree.value = program) ∧
    (∀ tree other : Tree (.nonterminal .program),
      tree.lexemes = lexemes → other.lexemes = lexemes → tree = other) ∧
    (∀ stmts, (∃ tree : Tree (.nonterminal .body), tree.lexemes = lexemes ∧ tree.value = stmts) ↔
      ∃ parts : BodyParts, parts.lexemes = lexemes ∧ parts.value = stmts) ∧
    ∀ of items, (∃ tree : Tree (.nonterminal (.list of)),
        tree.lexemes = lexemes ∧ tree.value = items) ↔
      ∃ parts : ListParts of, parts.lexemes = lexemes ∧ parts.value = items := by
  refine ⟨fun program => ?_, fun tree other here there => ?_, fun stmts => Tree.body_iff,
    fun of items => Tree.list_iff⟩
  · rw [Program.ofLexemes]
    constructor
    · intro found
      cases derived : Tree.ofLexemes lexemes with
      | error e => simp [derived, Except.map] at found
      | ok tree =>
        rw [derived] at found
        exact ⟨tree, Tree.ofLexemes_eq_ok_iff.mp derived, Except.ok.inj found⟩
    · rintro ⟨tree, derived, rfl⟩
      rw [Tree.ofLexemes_eq_ok_iff.mpr derived]
      rfl
  · have first := Tree.ofLexemes_eq_ok_iff.mpr here
    have second := Tree.ofLexemes_eq_ok_iff.mpr there
    exact Except.ok.inj (first.symm.trans second)

end MonkeyLang
