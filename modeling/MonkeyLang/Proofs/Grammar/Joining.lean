import MonkeyLang.Proofs.Grammar.Derivation
import MonkeyLang.Proofs.Grammar.Placing
import MonkeyLang.Proofs.Token.Joining

namespace MonkeyLang

section Moving

variable (n : Nat)

mutual

def Tree.shift : {s : Symbol} → Tree s → Tree s
  | _, .leaf kind payload span => .leaf kind payload (span.shift n)
  | _, .node p kids => .node p kids.shift

def Forest.shift : {symbols : List Symbol} → Forest symbols → Forest symbols
  | _, .nil => .nil
  | _, .cons tree trees => .cons tree.shift trees.shift

end

mutual

theorem Tree.lexemes_shift : {s : Symbol} → (tree : Tree s) →
    (tree.shift n).lexemes = tree.lexemes.map (Lexeme.shift n)
  | _, .leaf kind payload span => by
    rw [Tree.shift, Tree.lexemes, Tree.lexemes]
    rfl
  | _, .node p kids => by rw [Tree.shift, Tree.lexemes, Tree.lexemes, kids.lexemes_shift]

theorem Forest.lexemes_shift : {symbols : List Symbol} → (trees : Forest symbols) →
    (trees.shift n).lexemes = trees.lexemes.map (Lexeme.shift n)
  | _, .nil => by rw [Forest.shift, Forest.lexemes, List.map_nil]
  | _, .cons tree trees => by
    rw [Forest.shift, Forest.lexemes, Forest.lexemes, List.map_append, tree.lexemes_shift,
      trees.lexemes_shift]

end

def Listed.shift : (of : Listed) → of.Item → of.Item
  | expr => Expr.mapSpans (Span.shift n)
  | ident => id

def Nonterminal.shift : (name : Nonterminal) → name.Value → name.Value
  | program => Program.shift n
  | body | statements => mapSpansBody (Span.shift n)
  | statement | plainStatement => Stmt.mapSpans (Span.shift n)
  | operator _ | ident => id
  | placedIdent => fun name => (name.1, name.2.shift n)
  | list of | closedList of => List.map (of.shift n)
  | expr | conditional | alternative | block | level _ | chain _ | unary | postfixed | primary
  | placedLiteral | literal => Expr.mapSpans (Span.shift n)

def Symbol.shift : (s : Symbol) → s.Value → s.Value
  | terminal _ => id
  | nonterminal name => name.shift n

def Values.shift : (symbols : List Symbol) → Values symbols → Values symbols
  | [] => id
  | s :: rest => fun values => (s.shift n values.1, Values.shift rest values.2)

theorem Span.steady_shift : Span.Steady (Span.shift n) where
  merge a b := by
    simp only [shift, merge, Span.mk.injEq]
    omega
  join _ _ := rfl

theorem Nonterminal.shift_eq (name : Nonterminal) : name.shift n = name.mapSpans (Span.shift n) := by
  cases name with
  | list of | closedList of => cases of <;> rfl
  | _ => rfl

theorem Values.shift_eq (symbols : List Symbol) :
    Values.shift n symbols = Values.mapSpans (Span.shift n) symbols := by
  induction symbols with
  | nil => rfl
  | cons s rest ih =>
    have first : s.shift n = s.mapSpans (Span.shift n) := by
      cases s with
      | terminal kind => rfl
      | nonterminal name => exact name.shift_eq n
    funext values
    exact Prod.ext (congrFun first values.1) (congrFun ih values.2)

theorem Production.value_shift {lhs : Nonterminal} {rhs : List Symbol} (p : Production lhs rhs)
    (place : Span) (values : Values rhs) :
    p.value (place.shift n) (Values.shift n rhs values) = lhs.shift n (p.value place values) := by
  rw [Values.shift_eq, Nonterminal.shift_eq]
  exact p.value_mapSpans (Span.steady_shift n) place values

end Moving

section Filled

def Nonterminal.filled : Nonterminal → Bool
  | program | body | list _ => false
  | _ => true

def Symbol.filled : Symbol → Bool
  | terminal _ => true
  | nonterminal name => name.filled

theorem Production.filled {lhs : Nonterminal} {rhs : List Symbol} (p : Production lhs rhs)
    (filled : lhs.filled = true) : rhs.any Symbol.filled = true := by
  cases p with
  | link tier | chain tier => cases tier <;> rfl
  | firstClosed of => cases of <;> rfl
  | program | emptyBody | tailBody | statementsBody | fullBody | emptyList | oneList | commaList
  | openList => cases filled
  | _ => rfl

mutual

theorem Tree.lexemes_ne_nil {s : Symbol} (tree : Tree s) (filled : s.filled = true) :
    tree.lexemes ≠ [] := by
  match tree with
  | .leaf kind payload span =>
    rw [Tree.lexemes]
    exact List.cons_ne_nil _ _
  | .node p kids =>
    rw [Tree.lexemes]
    exact kids.lexemes_ne_nil (p.filled filled)

theorem Forest.lexemes_ne_nil {symbols : List Symbol} (trees : Forest symbols)
    (filled : symbols.any Symbol.filled = true) : trees.lexemes ≠ [] := by
  match trees with
  | .nil => cases filled
  | .cons tree trees =>
    rw [Forest.lexemes]
    rcases Bool.or_eq_true_iff.mp filled with first | later
    · exact List.append_ne_nil_of_left_ne_nil (tree.lexemes_ne_nil first) _
    · exact List.append_ne_nil_of_right_ne_nil _ (trees.lexemes_ne_nil later)

end

theorem Lexeme.extent?_eq_none {lexemes : List Lexeme} (none : extent? lexemes = none) :
    lexemes = [] := by
  cases lexemes with
  | nil => rfl
  | cons l rest =>
    rw [extent?_cons] at none
    cases place : extent? rest <;> rw [place] at none <;> cases none

theorem Production.value_anywhere {lhs : Nonterminal} {rhs : List Symbol} (p : Production lhs rhs)
    (bare : rhs.any Symbol.filled = false) (place place' : Span) (values : Values rhs) :
    p.value place values = p.value place' values := by
  have unfilled : lhs.filled = false := by
    by_contra filled
    rw [p.filled (eq_true_of_ne_false filled)] at bare
    cases bare
  cases p with
  | program | emptyBody | tailBody | statementsBody | fullBody | emptyList | oneList | commaList
  | openList => rfl
  | _ => cases unfilled

theorem Span.join?_shift (n : Nat) (a b : Option Span) :
    join? (a.map (shift n)) (b.map (shift n)) = (join? a b).map (shift n) := by
  cases a <;> cases b <;> rfl

variable (n : Nat)

mutual

theorem Tree.reading_shift {s : Symbol} (tree : Tree s) :
    (tree.shift n).reading = (s.shift n tree.reading.1, tree.reading.2.map (Span.shift n)) := by
  match tree with
  | .leaf kind payload span =>
    rw [Tree.shift, Tree.reading, Tree.reading]
    rfl
  | .node p kids =>
    rw [Tree.shift, Tree.reading, Tree.reading, kids.readings_shift]
    have placed := kids.readings_snd
    generalize kids.readings = read at placed ⊢
    obtain ⟨values, place⟩ := read
    cases place with
    | some place => exact Prod.ext (p.value_shift n place values) rfl
    | none =>
      -- Without lexemes there is no place to move, and the value does not look at the default one.
      have bare : kids.lexemes = [] := Lexeme.extent?_eq_none placed.symm
      have unfilled := eq_false_of_ne_true fun filled => kids.lexemes_ne_nil filled bare
      refine Prod.ext ?_ rfl
      change p.value default _ = Nonterminal.shift n _ (p.value default values)
      rw [← p.value_shift, p.value_anywhere unfilled]

theorem Forest.readings_shift {symbols : List Symbol} (trees : Forest symbols) :
    (trees.shift n).readings =
      (Values.shift n symbols trees.readings.1, trees.readings.2.map (Span.shift n)) := by
  match trees with
  | .nil =>
    rw [Forest.shift, Forest.readings]
    rfl
  | .cons tree trees =>
    rw [Forest.shift, Forest.readings, Forest.readings, tree.reading_shift, trees.readings_shift]
    exact Prod.ext rfl (Span.join?_shift n _ _)

end

theorem Tree.value_shift {s : Symbol} (tree : Tree s) :
    (tree.shift n).value = s.shift n tree.value := by
  rw [Tree.value, reading_shift]
  rfl

end Filled

section Ends

def Nonterminal.unended : Nonterminal → Bool
  | program | body | statements | statement | plainStatement | list _ => false
  | _ => true

def Symbol.unended : Symbol → Bool
  | terminal kind => kind ≠ .fixed .semicolon
  | nonterminal name => name.unended

theorem Production.unended {lhs : Nonterminal} {rhs : List Symbol} (p : Production lhs rhs)
    (unended : lhs.unended = true) : rhs.getLast?.any Symbol.unended = true := by
  cases p with
  | link tier | chain tier => cases tier <;> rfl
  | program | emptyBody | tailBody | statementsBody | fullBody | firstStatement | nextStatement
  | statement | binding | resultOf | result | exprStatement | conditionalStatement | emptyList
  | oneList | commaList | openList => cases unended
  | _ => rfl

def Lexeme.Unended (lexemes : List Lexeme) : Prop :=
  ∃ last, lexemes.getLast? = some last ∧ last.token.kind ≠ .fixed .semicolon

mutual

theorem Tree.lexemes_unended {s : Symbol} (tree : Tree s) (unended : s.unended = true) :
    Lexeme.Unended tree.lexemes := by
  match tree with
  | .leaf kind payload span =>
    rw [Tree.lexemes]
    exact ⟨_, rfl, of_decide_eq_true unended⟩
  | .node p kids =>
    rw [Tree.lexemes]
    exact kids.lexemes_unended (p.unended unended)

theorem Forest.lexemes_unended {symbols : List Symbol} (trees : Forest symbols)
    (unended : symbols.getLast?.any Symbol.unended = true) : Lexeme.Unended trees.lexemes := by
  match trees with
  | .nil => cases unended
  | .cons tree .nil =>
    rw [Forest.lexemes, Forest.lexemes, List.append_nil]
    exact tree.lexemes_unended unended
  | .cons tree (.cons next trees) =>
    rw [List.getLast?_cons_cons] at unended
    obtain ⟨last, found, other⟩ := (Forest.cons next trees).lexemes_unended unended
    rw [Forest.lexemes]
    exact ⟨last, by rw [List.getLast?_append, found]; rfl, other⟩

end

def Lexeme.Ended (lexemes : List Lexeme) : Prop :=
  ∀ last, lexemes.getLast? = some last → last.token.kind = .fixed .semicolon

theorem BodyParts.tail_eq_none {parts : BodyParts} (ended : Lexeme.Ended parts.lexemes) :
    parts.tail = none := by
  cases tail : parts.tail with
  | none => rfl
  | some e =>
    obtain ⟨last, found, other⟩ := e.lexemes_unended rfl
    refine absurd (ended last ?_) other
    rw [lexemes, tail]
    simp [found]

end Ends

section Joining

def BodyParts.shift (n : Nat) (parts : BodyParts) : BodyParts :=
  ⟨parts.statements.map (Tree.shift n), parts.tail.map (Tree.shift n)⟩

def BodyParts.join (first second : BodyParts) : BodyParts :=
  ⟨first.statements ++ second.statements, second.tail⟩

variable (n : Nat) {parts : BodyParts}

theorem BodyParts.lexemes_shift :
    (parts.shift n).lexemes = parts.lexemes.map (Lexeme.shift n) := by
  have trees {s : Symbol} (trees : List (Tree s)) : (trees.map (Tree.shift n)).flatMap Tree.lexemes =
      (trees.flatMap Tree.lexemes).map (Lexeme.shift n) := by
    simp only [List.flatMap_map, List.map_flatMap, Tree.lexemes_shift]
  simp only [lexemes, shift, Option.toList_map, trees, List.map_append]

theorem BodyParts.value_shift :
    (parts.shift n).value = mapSpansBody (Span.shift n) parts.value := by
  have moved (e : Tree (.nonterminal (.level .or))) : tailStatement (e.shift n).value =
      (tailStatement e.value).mapSpans (Span.shift n) := by
    rw [Tree.value_shift]
    exact tailStatement_mapSpans (Span.shift n) e.value
  have stated (item : StatementTree) :
      (item.shift n).value = item.value.mapSpans (Span.shift n) := item.value_shift n
  simp only [value, shift, Option.toList_map, List.map_map, Function.comp_def, moved, stated,
    mapSpansBody_eq_map, List.map_append]

theorem Tree.exists_parts (tree : Tree (.nonterminal .program)) :
    ∃ parts : BodyParts, parts.lexemes = tree.lexemes ∧ parts.value = tree.value.body := by
  cases tree with
  | node production kids =>
    match production, kids with
    | .program, .cons body .nil =>
      obtain ⟨parts, lexemes, value⟩ := Tree.body_iff.mp ⟨body, rfl, rfl⟩
      exact ⟨parts, by simp [lexemes], by simp [value, Production.value]⟩

theorem Program.exists_tree {lexemes : List Lexeme} {program : Program}
    (parsed : ofLexemes lexemes = .ok program) :
    ∃ tree : Tree (.nonterminal .program), tree.lexemes = lexemes ∧ tree.value = program := by
  rw [ofLexemes] at parsed
  cases derived : Tree.ofLexemes lexemes with
  | error e =>
    rw [derived] at parsed
    cases parsed
  | ok tree =>
    rw [derived] at parsed
    exact ⟨tree, Tree.ofLexemes_eq_ok_iff.mp derived, Except.ok.inj parsed⟩

theorem Program.ofLexemes_eq_ok_iff {lexemes : List Lexeme} {program : Program} :
    ofLexemes lexemes = .ok program ↔
      ∃ parts : BodyParts, parts.lexemes = lexemes ∧ parts.value = program.body := by
  constructor
  · intro parsed
    obtain ⟨tree, rfl, rfl⟩ := exists_tree parsed
    exact tree.exists_parts
  · rintro ⟨parts, rfl, value⟩
    obtain ⟨body, same, value'⟩ := Tree.body_iff.mpr ⟨parts, rfl, rfl⟩
    have derived : Tree.ofLexemes parts.lexemes = .ok (.node .program (.cons body .nil)) :=
      Tree.ofLexemes_eq_ok_iff.mpr (by simp [same])
    rw [ofLexemes, derived]
    exact congrArg Except.ok (by simp [Production.value, value', value])

/-- Behind a program that ends in a semicolon another one goes on. -/
theorem Program.ofLexemes_lines {lexemes later : List Lexeme} {p q : Program}
    (first : ofLexemes lexemes = .ok p) (ended : Lexeme.Ended lexemes)
    (second : ofLexemes later = .ok q) :
    ofLexemes (lexemes ++ later.map (Lexeme.shift n)) = .ok ⟨p.body ++ (q.shift n).body⟩ := by
  obtain ⟨parts, rfl, value⟩ := ofLexemes_eq_ok_iff.mp first
  obtain ⟨parts', rfl, value'⟩ := ofLexemes_eq_ok_iff.mp second
  have whole := parts.tail_eq_none ended
  refine ofLexemes_eq_ok_iff.mpr ⟨parts.join (parts'.shift n), ?_, ?_⟩
  · rw [← parts'.lexemes_shift]
    simp [BodyParts.join, BodyParts.lexemes, whole]
  · change _ = p.body ++ mapSpansBody (Span.shift n) q.body
    rw [← value, ← value', ← parts'.value_shift]
    simp [BodyParts.join, BodyParts.value, whole]

end Joining

end MonkeyLang
