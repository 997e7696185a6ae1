import MonkeyLang.Proofs.Grammar.Completion

namespace MonkeyLang

def BeginsProgram (lexemes : List Lexeme) : Prop :=
  ∃ (more : List Lexeme) (tree : Tree (.nonterminal .program)), tree.lexemes = lexemes ++ more

/-- The error is at the first place possible: a program begins with the lexemes before it, and none
    with the rejected one after them, or with these lexemes none ends. A program begins with them
    and any lexeme of an expected kind. -/
inductive ParseError.First : List Lexeme → ParseError → Prop
  | unexpected {accepted rest : List Lexeme} {found : Lexeme} {expected : List TokenKind}
      (begins : BeginsProgram accepted) (ends : ¬BeginsProgram (accepted ++ [found]))
      (follow : ∀ l : Lexeme, l.token.kind ∈ expected → BeginsProgram (accepted ++ [l])) :
      First (accepted ++ found :: rest) (.unexpected found expected)
  | unexpectedEnd {lexemes : List Lexeme} {offset : Nat} {expected : List TokenKind}
      (begins : BeginsProgram lexemes)
      (incomplete : ∀ tree : Tree (.nonterminal .program), tree.lexemes ≠ lexemes)
      (follow : ∀ l : Lexeme, l.token.kind ∈ expected → BeginsProgram (lexemes ++ [l])) :
      First lexemes (.unexpectedEnd offset expected)

namespace Stack

variable {stack : Stack} {l : Lexeme}

theorem Linked.begins (linked : Linked stack) : BeginsProgram stack.lexemes := linked.completes

theorem Linked.shifted {lookahead : Lookahead} {target : Nat} {after : Stack}
    (linked : Linked stack) (same : stack.settle lookahead = .shift target after) :
    Linked after ∧ after.lexemes = stack.lexemes ∧
      Automaton.action (state after) lookahead = some (.shift target) := by
  have kept := settleIn_lexemes lookahead (reductionLimit stack.length) stack
  have settled := linked.settledIn lookahead (reductionLimit stack.length)
  rw [← settle, same] at kept settled
  exact ⟨settled.1, kept, settled.2⟩

theorem Linked.stuck {lookahead : Lookahead} {after : Stack} (linked : Linked stack)
    (same : stack.settle lookahead = .stuck after) :
    Linked after ∧ after.lexemes = stack.lexemes := by
  have kept := settleIn_lexemes lookahead (reductionLimit stack.length) stack
  have settled := linked.settledIn lookahead (reductionLimit stack.length)
  rw [← settle, same] at kept settled
  exact ⟨settled, kept⟩

theorem Linked.shift {target : Nat} (linked : Linked stack) (found : Lexeme)
    (acts : Automaton.action (state stack) (some found.token.kind) = some (.shift target)) :
    Linked (⟨.ofLexeme found, target⟩ :: stack) := by
  refine .cons ?_ linked
  simp only [Automaton.move, acts]

theorem lexemes_shift (found : Lexeme) (target : Nat) :
    lexemes (⟨.ofLexeme found, target⟩ :: stack) = stack.lexemes ++ [found] := by
  rw [lexemes, Tree.ofLexeme, Tree.lexemes]

theorem Linked.follow (linked : Linked stack) (expected : l.token.kind ∈ stack.expected) :
    BeginsProgram (stack.lexemes ++ [l]) := by
  have admitted : stack.admits l.token.kind = true := (List.mem_filter.mp expected).2
  unfold admits at admitted
  split at admitted
  · rename_i target after same
    obtain ⟨linked, kept, acts⟩ := linked.shifted same
    have next := (linked.shift l acts).begins
    rwa [lexemes_shift, kept] at next
  · cases admitted

theorem Linked.rejects {lexemes : List Lexeme} {offset : Nat} {e : ParseError}
    (linked : Linked stack) (rejected : stack.derive offset lexemes = .error e) :
    (∃ accepted found rest expected, lexemes = accepted ++ found :: rest ∧
      e = .unexpected found expected ∧ BeginsProgram (stack.lexemes ++ accepted) ∧
      (∀ l : Lexeme, l.token.kind ∈ expected →
        BeginsProgram (stack.lexemes ++ accepted ++ [l])) ∧
      ∀ others, ∃ e', stack.derive offset (accepted ++ found :: others) = .error e') ∨
    ∃ last expected, e = .unexpectedEnd last expected ∧
      BeginsProgram (stack.lexemes ++ lexemes) ∧
      ∀ l : Lexeme, l.token.kind ∈ expected → BeginsProgram (stack.lexemes ++ lexemes ++ [l]) := by
  induction lexemes generalizing stack offset with
  | nil =>
    have here {after : Stack} (settled : Linked after ∧ after.lexemes = stack.lexemes)
        (ended : e = .unexpectedEnd offset after.expected) :
        ∃ last expected, e = .unexpectedEnd last expected ∧
          BeginsProgram (stack.lexemes ++ []) ∧
          ∀ l : Lexeme, l.token.kind ∈ expected → BeginsProgram (stack.lexemes ++ [] ++ [l]) := by
      obtain ⟨linked, same⟩ := settled
      rw [List.append_nil, ← same]
      exact ⟨offset, after.expected, ended, linked.begins, fun l expected => linked.follow expected⟩
    rw [derive] at rejected
    split at rejected
    · cases rejected
    · rename_i target after same
      obtain ⟨linked, kept, _⟩ := linked.shifted same
      exact .inr (here ⟨linked, kept⟩ (Except.error.inj rejected).symm)
    · rename_i after same
      exact .inr (here (linked.stuck same) (Except.error.inj rejected).symm)
  | cons first rest ih =>
    have here {after : Stack} (settled : Linked after ∧ after.lexemes = stack.lexemes)
        (blocked : ∀ others, stack.derive offset (first :: others) =
          .error (.unexpected first after.expected)) :
        ∃ accepted found more expected, first :: rest = accepted ++ found :: more ∧
          e = .unexpected found expected ∧ BeginsProgram (stack.lexemes ++ accepted) ∧
          (∀ l : Lexeme, l.token.kind ∈ expected →
            BeginsProgram (stack.lexemes ++ accepted ++ [l])) ∧
          ∀ others, ∃ e', stack.derive offset (accepted ++ found :: others) = .error e' := by
      obtain ⟨linked, same⟩ := settled
      refine ⟨[], first, rest, after.expected, rfl, ?_, ?_, ?_, fun others => ⟨_, blocked others⟩⟩
      · exact Except.error.inj (rejected.symm.trans (blocked rest))
      · rw [List.append_nil, ← same]
        exact linked.begins
      · intro l expected
        rw [List.append_nil, ← same]
        exact linked.follow expected
    cases same : stack.settle (some first.token.kind) with
    | shift target after =>
      obtain ⟨linked, kept, acts⟩ := linked.shifted same
      have onward (others : List Lexeme) : stack.derive offset (first :: others) =
          derive (⟨.ofLexeme first, target⟩ :: after) first.span.stop others := by
        rw [derive, same]
      rw [onward] at rejected
      have later := ih (linked.shift first acts) rejected
      simp only [lexemes_shift, kept, List.append_assoc, List.singleton_append] at later ⊢
      rcases later with ⟨accepted, found, more, expected, rfl, ended, begins, follow, blocked⟩ | ended
      · refine .inl ⟨first :: accepted, found, more, expected, rfl, ended, begins, follow, ?_⟩
        intro others
        rw [List.cons_append, onward]
        exact blocked others
      · exact .inr ended
    | stuck after => exact .inl (here (linked.stuck same) fun others => by rw [derive, same])
    | finish tree => exact .inl (here ⟨linked, rfl⟩ fun others => by rw [derive, same])

end Stack

/-- Lexemes that are no program are rejected at the first place possible, and the kind of the
    rejected one is not among the expected ones. -/
theorem Program.ofLexemes_error_first (lexemes : List Lexeme) (e : ParseError)
    (rejected : Program.ofLexemes lexemes = .error e) :
    ParseError.First lexemes e ∧
      ∀ found expected, e = .unexpected found expected → found.token.kind ∉ expected := by
  have failed : Stack.derive [] 0 lexemes = .error e := by
    unfold Program.ofLexemes at rejected
    cases derived : Tree.ofLexemes lexemes with
    | ok tree => simp [derived, Except.map] at rejected
    | error e' =>
      rw [derived] at rejected
      cases rejected
      exact derived
  rcases Stack.Linked.nil.rejects failed with
    ⟨accepted, found, rest, expected, rfl, rfl, begins, follow, blocked⟩ |
    ⟨last, expected, rfl, begins, follow⟩
  · simp only [Stack.lexemes, List.nil_append] at begins follow
    -- A program that went on with the rejected lexeme would have been found.
    have ends : ¬BeginsProgram (accepted ++ [found]) := by
      rintro ⟨more, tree, whole⟩
      obtain ⟨e', failed'⟩ := blocked more
      have derived := tree.ofLexemes_lexemes
      rw [whole, List.append_assoc, List.singleton_append, Tree.ofLexemes, failed'] at derived
      cases derived
    refine ⟨.unexpected begins ends follow, ?_⟩
    rintro _ _ ⟨⟩ listed
    exact ends (follow found listed)
  · simp only [Stack.lexemes, List.nil_append] at begins follow
    constructor
    · refine .unexpectedEnd begins (fun tree whole => ?_) follow
      have derived := tree.ofLexemes_lexemes
      rw [whole, Tree.ofLexemes, failed] at derived
      cases derived
    · intro found expected' same
      cases same

/-- After an opening parenthesis and `nil` a semicolon is rejected, and only the closing parenthesis
    is said to be expected. -/
theorem Program.ofLexemes_unclosed :
    Program.ofLexemes [⟨.fixed .leftParen, ⟨0, 1⟩⟩, ⟨.fixed .nilKey, ⟨1, 4⟩⟩,
        ⟨.fixed .semicolon, ⟨4, 5⟩⟩] =
      .error (.unexpected ⟨.fixed .semicolon, ⟨4, 5⟩⟩ [.fixed .rightParen]) ∧
    ParseError.First [⟨.fixed .leftParen, ⟨0, 1⟩⟩, ⟨.fixed .nilKey, ⟨1, 4⟩⟩,
        ⟨.fixed .semicolon, ⟨4, 5⟩⟩]
      (.unexpected ⟨.fixed .semicolon, ⟨4, 5⟩⟩ [.fixed .rightParen]) :=
  ⟨rfl, (Program.ofLexemes_error_first _ _ rfl).1⟩

end MonkeyLang
