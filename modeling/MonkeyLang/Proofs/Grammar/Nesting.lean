import MonkeyLang.Proofs.Grammar.Spans
import MonkeyLang.Proofs.Session.Joining

namespace MonkeyLang

open Text (byteLength byteLength_append)

section Chains

/-- The places lie between the two offsets, one behind the other, and none is empty. -/
def Span.Chain : Nat → List Span → Nat → Prop
  | lo, [], hi => lo ≤ hi
  | lo, s :: rest, hi => lo ≤ s.start ∧ s.start < s.stop ∧ Chain s.stop rest hi

namespace Span

variable {lo hi lo' hi' : Nat} {a b : List Span} {s : Span}

theorem Chain.le (chain : Chain lo a hi) : lo ≤ hi := by
  induction a generalizing lo with
  | nil => exact chain
  | cons s rest ih =>
    obtain ⟨least, filled, later⟩ := chain
    have most := ih later
    omega

theorem Chain.widen (chain : Chain lo a hi) (below : lo' ≤ lo) (above : hi ≤ hi') :
    Chain lo' a hi' := by
  induction a generalizing lo lo' with
  | nil => exact Nat.le_trans below (Nat.le_trans chain above)
  | cons s rest ih =>
    obtain ⟨least, filled, later⟩ := chain
    exact ⟨Nat.le_trans below least, filled, ih later (Nat.le_refl _)⟩

theorem chain_append : Chain lo (a ++ b) hi ↔ ∃ mid, Chain lo a mid ∧ Chain mid b hi := by
  induction a generalizing lo with
  | nil =>
    constructor
    · exact fun chain => ⟨lo, Nat.le_refl _, chain⟩
    · rintro ⟨mid, below, chain⟩
      exact chain.widen below (Nat.le_refl _)
  | cons s rest ih =>
    constructor
    · rintro ⟨least, filled, later⟩
      obtain ⟨mid, first, second⟩ := ih.mp later
      exact ⟨mid, ⟨least, filled, first⟩, second⟩
    · rintro ⟨mid, ⟨least, filled, first⟩, second⟩
      exact ⟨least, filled, ih.mpr ⟨mid, first, second⟩⟩

theorem Chain.mem (chain : Chain lo a hi) (member : s ∈ a) :
    lo ≤ s.start ∧ s.start < s.stop ∧ s.stop ≤ hi := by
  induction a generalizing lo with
  | nil => cases member
  | cons first rest ih =>
    obtain ⟨least, filled, later⟩ := chain
    rcases List.mem_cons.mp member with rfl | member
    · exact ⟨least, filled, later.le⟩
    · obtain ⟨least', filled', most⟩ := ih later member
      exact ⟨by omega, filled', most⟩

theorem Chain.pairwise (chain : Chain lo a hi) : a.Pairwise (·.stop ≤ ·.start) := by
  induction a generalizing lo with
  | nil => exact .nil
  | cons s rest ih => exact .cons (fun _ member => (chain.2.2.mem member).1) (ih chain.2.2)

end Span

theorem Lexeme.Munch.chain {offset : Nat} {text rest : List Char} {lexemes : List Lexeme}
    (munch : Munch offset text lexemes rest) :
    Span.Chain offset (lexemes.map (·.span)) (offset + byteLength text) := by
  induction munch with
  | done => exact Nat.le_add_right _ _
  | skip takes skips _ ih =>
    rw [byteLength_append, ← Nat.add_assoc]
    exact ih.widen (Nat.le_add_right _ _) (Nat.le_refl _)
  | token takes gives value _ ih =>
    rw [byteLength_append, ← Nat.add_assoc]
    exact ⟨Nat.le_refl _, Nat.lt_add_of_pos_right (byteLength_pos takes.ne_nil), ih⟩

theorem Lexeme.chain_extent {lo hi : Nat} {lexemes : List Lexeme} {place : Span}
    (chain : Span.Chain lo (lexemes.map (·.span)) hi) (found : extent? lexemes = some place) :
    lo ≤ place.start ∧ place.start < place.stop ∧ place.stop ≤ hi ∧
      Span.Chain place.start (lexemes.map (·.span)) place.stop := by
  induction lexemes generalizing lo place with
  | nil => cases found
  | cons l rest ih =>
    obtain ⟨least, filled, later⟩ := chain
    rw [extent?_cons] at found
    cases last : extent? rest with
    | none =>
      rw [last] at found
      cases found
      rw [Lexeme.extent?_eq_none last] at later
      refine ⟨least, filled, later, Nat.le_refl _, filled, ?_⟩
      rw [Lexeme.extent?_eq_none last]
      exact Nat.le_refl _
    | some tail =>
      rw [last] at found
      cases found
      obtain ⟨below, filled', above, chain⟩ := ih later last
      have long := Nat.le_trans below (Nat.le_of_lt filled')
      exact ⟨least, Nat.lt_of_lt_of_le filled long, above, Nat.le_refl _, filled,
        chain.widen below (Nat.le_refl _)⟩

end Chains

inductive Node
  | stmt (item : Stmt)
  | expr (e : Expr)
  | methodName (place : Span)

namespace Node

def span : Node → Span
  | stmt item => item.span
  | expr e => e.span
  | methodName place => place

def children : Node → List Node
  | stmt item => item.parts.map expr
  | expr (.block _ body) => body.map stmt
  | expr (.method _ receiver _ nameSpan args) =>
    expr receiver :: methodName nameSpan :: args.map expr
  | expr e => e.parts.map expr
  | methodName _ => []

/-- The node and all in it have places that begin and end with lexemes, and each place holds those
    right in it one behind the other. -/
inductive Nested (lexemes : List Lexeme) : Node → Prop
  | mk {n : Node} (bound : Lexeme.Bound lexemes n.span)
      (chain : Span.Chain n.span.start (n.children.map span) n.span.stop)
      (parts : ∀ child ∈ n.children, Nested lexemes child) : Nested lexemes n

structure Within (lexemes : List Lexeme) (lo : Nat) (nodes : List Node) (hi : Nat) : Prop where
  chain : Span.Chain lo (nodes.map span) hi
  nested : ∀ n ∈ nodes, n.Nested lexemes

variable {lexemes : List Lexeme} {lo hi lo' hi' : Nat} {n : Node} {nodes rest : List Node}

theorem Nested.bound (nested : n.Nested lexemes) : Lexeme.Bound lexemes n.span := by
  cases nested with
  | mk bound _ _ => exact bound

namespace Within

theorem nil (room : lo ≤ hi) : Within lexemes lo [] hi := ⟨room, by simp⟩

theorem room (within : Within lexemes lo nodes hi) : lo ≤ hi := within.chain.le

theorem widen (within : Within lexemes lo nodes hi) (below : lo' ≤ lo) (above : hi ≤ hi') :
    Within lexemes lo' nodes hi' :=
  ⟨within.chain.widen below above, within.nested⟩

theorem append {mid : Nat} (first : Within lexemes lo nodes mid)
    (second : Within lexemes mid rest hi) : Within lexemes lo (nodes ++ rest) hi := by
  refine ⟨?_, List.forall_mem_append.mpr ⟨first.nested, second.nested⟩⟩
  rw [List.map_append]
  exact Span.chain_append.mpr ⟨mid, first.chain, second.chain⟩

theorem fromFirst (within : Within lexemes lo (n :: rest) hi) :
    lo ≤ n.span.start ∧ n.span.start < hi ∧ Within lexemes n.span.start (n :: rest) hi := by
  obtain ⟨⟨least, filled, later⟩, nested⟩ := within
  have most : n.span.stop ≤ hi := later.le
  exact ⟨least, by omega, ⟨Nat.le_refl _, filled, later⟩, nested⟩

theorem split (within : Within lexemes lo (nodes ++ rest) hi) :
    ∃ mid, Within lexemes lo nodes mid ∧ Within lexemes mid rest hi := by
  obtain ⟨chain, nested⟩ := within
  rw [List.map_append] at chain
  obtain ⟨mid, first, second⟩ := Span.chain_append.mp chain
  obtain ⟨here, there⟩ := List.forall_mem_append.mp nested
  exact ⟨mid, ⟨first, here⟩, ⟨second, there⟩⟩

theorem node (bound : Lexeme.Bound lexemes n.span) (filled : n.span.start < n.span.stop)
    (children : Within lexemes n.span.start n.children n.span.stop) :
    Within lexemes n.span.start [n] n.span.stop :=
  ⟨⟨Nat.le_refl _, filled, Nat.le_refl _⟩,
    List.forall_mem_singleton.mpr (.mk bound children.chain children.nested)⟩

end Within

end Node

section Grammar

open Node (Within)

def Listed.nodes : (of : Listed) → List of.Item → List Node
  | expr => List.map .expr
  | ident => fun _ => []

def Nonterminal.nodes : (name : Nonterminal) → name.Value → List Node
  | program => fun program => program.body.map .stmt
  | body => List.map .stmt
  | statements => fun stmts => stmts.reverse.map .stmt
  | statement | plainStatement => fun item => [.stmt item]
  | operator _ | ident => fun _ => []
  | placedIdent => fun name => [.methodName name.2]
  | list of => of.nodes
  | closedList of => fun items => of.nodes items.reverse
  | expr | conditional | alternative | block | level _ | chain _ | unary | postfixed | primary
  | placedLiteral | literal => fun e => [.expr e]

def Symbol.nodes : (s : Symbol) → s.Value → List Node
  | terminal _ => fun _ => []
  | nonterminal name => name.nodes

def Values.nodes : (symbols : List Symbol) → Values symbols → List Node
  | [] => fun _ => []
  | s :: rest => fun values => s.nodes values.1 ++ Values.nodes rest values.2

theorem Tier.nodes_operand (tier : Tier) (operand : tier.operand.Value) :
    tier.operand.nodes operand = [.expr (tier.operandExpr operand)] := by
  cases tier <;> rfl

theorem Listed.nodes_element (of : Listed) (element : of.element.Value) :
    of.element.nodes element = of.nodes [of.item element] := by
  cases of <;> rfl

theorem Listed.nodes_append (of : Listed) (items more : List of.Item) :
    of.nodes (items ++ more) = of.nodes items ++ of.nodes more := by
  cases of with
  | expr => exact List.map_append
  | ident => rfl

variable {lexemes : List Lexeme} {lo hi : Nat}

theorem Node.Within.tailStatement {e : Expr} (within : Within lexemes lo [.expr e] hi) :
    Within lexemes lo [.stmt (tailStatement e)] hi := by
  obtain ⟨⟨least, filled, most⟩, nested⟩ := within
  have inner := List.forall_mem_singleton.mp nested
  refine ⟨⟨least, filled, most⟩, List.forall_mem_singleton.mpr (.mk inner.bound ?_ nested)⟩
  exact ⟨Nat.le_refl _, filled, Nat.le_refl _⟩

theorem Node.Within.var {place : Span} (name : String)
    (within : Within lexemes lo [.methodName place] hi) :
    Within lexemes lo [.expr (.var place name)] hi := by
  obtain ⟨⟨least, filled, most⟩, nested⟩ := within
  have bound := (List.forall_mem_singleton.mp nested).bound
  refine ⟨⟨least, filled, most⟩, List.forall_mem_singleton.mpr (.mk bound ?_ (by simp [children, Expr.parts]))⟩
  exact Nat.le_of_lt filled

theorem Node.Within.binary {left right : Expr} (op : BinOp)
    (within : Within lexemes lo [.expr left, .expr right] hi) :
    Within lexemes lo [.expr (.binary (left.span.merge right.span) op left right)] hi := by
  obtain ⟨⟨least, filled, apart, filled', most⟩, nested⟩ := within
  change left.span.start < left.span.stop at filled
  change left.span.stop ≤ right.span.start at apart
  change right.span.start < right.span.stop at filled'
  have span : left.span.merge right.span = ⟨left.span.start, right.span.stop⟩ := by
    rw [Span.merge, Nat.min_eq_left (by omega), Nat.max_eq_right (by omega)]
  have start := (nested _ List.mem_cons_self).bound
  have stop := (nested _ (List.mem_cons_of_mem _ List.mem_cons_self)).bound
  rw [span]
  have inside : Within lexemes left.span.start [.expr left, .expr right] right.span.stop :=
    ⟨⟨Nat.le_refl _, filled, apart, filled', Nat.le_refl _⟩, nested⟩
  have room : left.span.start < right.span.stop := by omega
  have made := Within.node (n := .expr (.binary ⟨left.span.start, right.span.stop⟩ op left right))
    (start.join stop) room inside
  exact made.widen least most

theorem Production.value_within {lhs : Nonterminal} {rhs : List Symbol} (p : Production lhs rhs)
    {place : Span} {values : Values rhs}
    (placed : lhs.filled = true → place = ⟨lo, hi⟩ ∧ lo < hi ∧ Lexeme.Bound lexemes ⟨lo, hi⟩)
    (within : Within lexemes lo (Values.nodes rhs values) hi) :
    Within lexemes lo (lhs.nodes (p.value place values)) hi := by
  have whole {n : Node} (filled : lhs.filled = true) (span : n.span = place)
      (children : n.children = Values.nodes rhs values) : Within lexemes lo [n] hi := by
    obtain ⟨rfl, some, bound⟩ := placed filled
    rw [← children] at within
    have made : Within lexemes n.span.start [n] n.span.stop :=
      .node (by rwa [span]) (by rwa [span]) (by rwa [span])
    rwa [span] at made
  -- What stands behind its first part starts where that one does, and not where its lexemes do.
  have behind {n first : Node} {others : List Node} (filled : lhs.filled = true)
      (span : n.span = ⟨first.span.start, place.stop⟩) (children : n.children = first :: others)
      (same : Values.nodes rhs values = first :: others) : Within lexemes lo [n] hi := by
    obtain ⟨rfl, some, bound⟩ := placed filled
    rw [same] at within
    obtain ⟨least, room, inside⟩ := within.fromFirst
    have start := (List.forall_mem_cons.mp inside.nested).1.bound
    rw [← children] at inside
    have made : Within lexemes n.span.start [n] n.span.stop :=
      .node (by rw [span]; exact start.join bound) (by rwa [span]) (by rwa [span])
    rw [span] at made
    exact made.widen least (Nat.le_refl _)
  cases p with
  | binding | resultOf | result | exprStatement | conditionalStatement | ifThen | ifThenElse
  | negation | complement | intLiteral | uintLiteral | floatLiteral | stringLiteral | trueLiteral
  | falseLiteral | nilLiteral | placedIdent => exact whole rfl rfl rfl
  | function => exact whole rfl rfl rfl
  | block | array => exact whole rfl rfl (List.append_nil _).symm
  | call => exact behind rfl rfl rfl (congrArg (_ :: ·) (List.append_nil _))
  | method => exact behind rfl rfl rfl (congrArg (_ :: _ :: ·) (List.append_nil _))
  | index => exact behind rfl rfl rfl rfl
  | link tier =>
    obtain ⟨left, op, operand, ⟨⟩⟩ := values
    change Within lexemes lo (.expr left :: (tier.operand.nodes operand ++ [])) hi at within
    rw [List.append_nil, tier.nodes_operand] at within
    exact within.binary op
  | chain tier =>
    change Within lexemes lo (tier.operand.nodes values.1 ++ []) hi at within
    rwa [List.append_nil, tier.nodes_operand] at within
  | emptyBody => exact .nil within.room
  | emptyList of =>
    cases of <;> exact .nil within.room
  | orOperator | andOperator | eqOperator | neOperator | ltOperator | gtOperator | leOperator
  | geOperator | addOperator | subOperator | mulOperator | divOperator | modOperator | ident =>
    exact within
  | tailBody => exact within.tailStatement
  | identPrimary => exact within.var _
  | statement | conditionalExpr | levelExpr | blockAlternative | conditionalAlternative | level
  | postfixedUnary | primaryPostfixed | literalPrimary | placedLiteral | grouping | firstStatement =>
    exact within
  | program =>
    change Within lexemes lo (values.1.map Node.stmt ++ []) hi at within
    rwa [List.append_nil] at within
  | statementsBody =>
    change Within lexemes lo (values.1.reverse.map Node.stmt ++ []) hi at within
    rwa [List.append_nil] at within
  | fullBody =>
    obtain ⟨stmts, e, ⟨⟩⟩ := values
    change Within lexemes lo ((tailStatement e :: stmts).reverse.map Node.stmt) hi
    rw [List.reverse_cons, List.map_append]
    have parts : Within lexemes lo (stmts.reverse.map .stmt ++ [.expr e]) hi := within
    obtain ⟨mid, before, last⟩ := parts.split
    exact before.append last.tailStatement
  | nextStatement =>
    obtain ⟨stmts, item, ⟨⟩⟩ := values
    change Within lexemes lo ((item :: stmts).reverse.map Node.stmt) hi
    rw [List.reverse_cons, List.map_append]
    exact within
  | oneList of | firstClosed of =>
    change Within lexemes lo (of.element.nodes values.1 ++ []) hi at within
    rwa [List.append_nil, of.nodes_element] at within
  | commaList of =>
    change Within lexemes lo (of.nodes values.1.reverse ++ []) hi at within
    rwa [List.append_nil] at within
  | openList of | nextClosed of =>
    change Within lexemes lo (of.nodes values.1.reverse ++ (of.element.nodes values.2.1 ++ [])) hi
      at within
    rwa [List.append_nil, of.nodes_element, ← of.nodes_append, ← List.reverse_cons] at within

mutual

theorem Tree.reading_within {s : Symbol} {lo hi : Nat} (tree : Tree s)
    (inside : tree.lexemes ⊆ lexemes) (chain : Span.Chain lo (tree.lexemes.map (·.span)) hi) :
    Within lexemes lo (s.nodes tree.reading.1) hi := by
  match tree with
  | .leaf kind payload span => exact .nil chain.le
  | @Tree.node lhs _ p kids =>
    rw [Tree.lexemes] at inside chain
    rw [Tree.reading]
    cases found : Lexeme.extent? kids.lexemes with
    | none =>
      have bare : lhs.filled ≠ true := fun filled =>
        kids.lexemes_ne_nil (p.filled filled) (Lexeme.extent?_eq_none found)
      exact p.value_within (fun filled => absurd filled bare) (kids.readings_within inside chain)
    | some place =>
      have placed := kids.readings_snd.trans found
      obtain ⟨below, some, above, chain⟩ := Lexeme.chain_extent chain found
      have bound := Lexeme.bound_of_extent found inside
      have made : Within lexemes place.start (lhs.nodes (p.value place kids.readings.1)) place.stop :=
        p.value_within (fun _ => ⟨rfl, some, bound⟩) (kids.readings_within inside chain)
      change Within lexemes lo (lhs.nodes (p.value (kids.readings.2.getD default) kids.readings.1)) hi
      rw [placed]
      exact made.widen below above

theorem Forest.readings_within {symbols : List Symbol} {lo hi : Nat} (trees : Forest symbols)
    (inside : trees.lexemes ⊆ lexemes) (chain : Span.Chain lo (trees.lexemes.map (·.span)) hi) :
    Within lexemes lo (Values.nodes symbols trees.readings.1) hi := by
  match trees with
  | .nil => exact .nil chain.le
  | .cons tree trees =>
    rw [Forest.lexemes, List.append_subset] at inside
    rw [Forest.lexemes, List.map_append] at chain
    obtain ⟨mid, first, later⟩ := Span.chain_append.mp chain
    rw [Forest.readings]
    exact (tree.reading_within inside.1 first).append (trees.readings_within inside.2 later)

end

end Grammar

inductive Program.Contains (program : Program) : Node → Prop
  | stmt {item : Stmt} (member : item ∈ program.body) : Contains program (.stmt item)
  | child {outer inner : Node} (here : Contains program outer) (member : inner ∈ outer.children) :
      Contains program inner

theorem Program.Contains.nested {program : Program} {lexemes : List Lexeme} {length : Nat} {n : Node}
    (within : Node.Within lexemes 0 (program.body.map .stmt) length) (here : program.Contains n) :
    n.Nested lexemes ∧ n.span.start < n.span.stop ∧ n.span.stop ≤ length := by
  induction here with
  | stmt member =>
    have among := List.mem_map_of_mem (f := Node.stmt) member
    exact ⟨within.nested _ among, (within.chain.mem (List.mem_map_of_mem among)).2⟩
  | child _ member ih =>
    obtain ⟨⟨_, chain, parts⟩, filled, most⟩ := ih
    obtain ⟨_, filled', most'⟩ := chain.mem (List.mem_map_of_mem member)
    exact ⟨parts _ member, filled', Nat.le_trans most' most⟩

theorem Program.within {text : List Char} {program : Program} {lexemes : List Lexeme}
    (read : Lexeme.ofText text = .ok lexemes) (parsed : Program.ofLexemes lexemes = .ok program) :
    Node.Within lexemes 0 (program.body.map .stmt) (byteLength text) := by
  obtain ⟨tree, rfl, rfl⟩ := Program.exists_tree parsed
  have chain := (Lexeme.munch_of_ofText read).chain
  rw [Nat.zero_add] at chain
  exact tree.reading_within (List.Subset.refl _) chain

/-- Every statement, expression and method name of a program has a place in its text that is not
    empty, starts where a token starts and stops where one stops. The places of what is written
    right in it lie inside its own, one behind the other; and so do those of the statements of the
    program. -/
theorem Program.places_nested (text : List Char) (program : Program)
    (parsed : Program.ofText text = .ok program) :
    ∃ lexemes, Lexeme.ofText text = .ok lexemes ∧
      (∀ n, program.Contains n →
        n.span.start < n.span.stop ∧ n.span.stop ≤ byteLength text ∧
        (∃ l ∈ lexemes, l.span.start = n.span.start) ∧
        (∃ l ∈ lexemes, l.span.stop = n.span.stop) ∧
        (∀ child ∈ n.children,
          n.span.start ≤ child.span.start ∧ child.span.stop ≤ n.span.stop) ∧
        (n.children.map Node.span).Pairwise (·.stop ≤ ·.start)) ∧
      (program.body.map Stmt.span).Pairwise (·.stop ≤ ·.start) := by
  obtain ⟨lexemes, read, derived⟩ := Program.ofText_eq_ok_iff.mp parsed
  have within := Program.within read derived
  refine ⟨lexemes, read, fun n here => ?_, ?_⟩
  · obtain ⟨⟨bound, chain, -⟩, filled, most⟩ := here.nested within
    refine ⟨filled, most, bound.start, bound.stop, fun child member => ?_, chain.pairwise⟩
    obtain ⟨least, -, most⟩ := chain.mem (List.mem_map_of_mem member)
    exact ⟨least, most⟩
  · have ordered := within.chain.pairwise
    rwa [List.map_map] at ordered

/-- A method is called on a sum in parentheses, which keeps the place of the sum alone. -/
theorem Program.places_nested_grouped :
    ∃ program lexemes, Program.ofText "(a + b).f(1);".toList = .ok program ∧
      Lexeme.ofText "(a + b).f(1);".toList = .ok lexemes ∧
      program.Contains (.methodName ⟨8, 9⟩) ∧
      (∃ l ∈ lexemes, l.span.start = 8) ∧ ∃ l ∈ lexemes, l.span.stop = 9 := by
  obtain ⟨program, parsed, name⟩ : ∃ program, Program.ofText "(a + b).f(1);".toList = .ok program ∧
      program.Contains (.methodName ⟨8, 9⟩) := by
    refine ⟨⟨[.expr ⟨0, 13⟩ (.method ⟨1, 12⟩
      (.binary ⟨1, 6⟩ (.strict .add) (.var ⟨1, 2⟩ "a") (.var ⟨5, 6⟩ "b")) "f" ⟨8, 9⟩
      [.int ⟨10, 11⟩ 1])]⟩, by cbv, ?_⟩
    exact .child (.child (.stmt List.mem_cons_self) List.mem_cons_self)
      (List.mem_cons_of_mem _ List.mem_cons_self)
  obtain ⟨lexemes, read, held, -⟩ := Program.places_nested _ program parsed
  obtain ⟨-, -, start, stop, -⟩ := held _ name
  exact ⟨program, lexemes, parsed, read, name, start, stop⟩

end MonkeyLang
