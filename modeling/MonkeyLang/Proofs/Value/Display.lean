import MonkeyLang.Eval
import MonkeyLang.Proofs.Eval.Triple
import MonkeyLang.Proofs.Grammar.Lists
import MonkeyLang.Proofs.Number.Fraction
import MonkeyLang.Proofs.Token.Literals
import MonkeyLang.Proofs.Value.Codec

namespace MonkeyLang

/-- The trees that are written as they are read. There is no literal for the least integer, whose
    size is no integer; whole doubles are shown without a point. -/
inductive Unfolding.Literal : Unfolding → Prop
  | int {n : Int64} (sized : n ≠ Int64.minValue) : Literal (.int n)
  | float {x : Float} (fractional : Fractional x) : Literal (.float x)
  | str {s : String} (shown : ∀ c ∈ s.toList, Text.Shown c) : Literal (.str s)
  | bool (b : Bool) : Literal (.bool b)
  | nil : Literal .nil
  | array {members : List Unfolding} (all : ∀ member ∈ members, Literal member) :
      Literal (.array members)

def Unfolding.memberText : Unfolding → List Char
  | str s => Text.quoted s.toList
  | tree => tree.text

theorem Unfolding.memberTexts_eq (trees : List Unfolding) :
    memberTexts trees = trees.map memberText := by
  induction trees with
  | nil => rfl
  | cons tree rest ih => cases tree <;> simp [memberTexts, memberText, ih]

section Makes

/-- Wherever the expression is evaluated, it makes new arrays and does nothing else, and its value
    unfolds to the tree through these. -/
def Expr.Makes (e : Expr) (tree : Unfolding) : Prop :=
  ∀ enter lines frame s, ∃ value new handles,
    (e.eval enter lines frame).runIn s = (.ok value, s.grow new) ∧
      (s.grow new).Unfolds [value] [tree] handles ∧
      Store.Between s.arrays.size (s.arrays.size + new.size) handles

def MakesAll (es : List Expr) (trees : List Unfolding) : Prop :=
  ∀ enter lines frame s, ∃ values new handles,
    (evalArgs enter lines frame es).runIn s = (.ok values, s.grow new) ∧
      (s.grow new).Unfolds values trees handles ∧
      Store.Between s.arrays.size (s.arrays.size + new.size) handles

theorem Expr.makes_flat {e : Expr} {tree : Unfolding} (value : Value)
    (evals : ∀ enter lines frame s, (e.eval enter lines frame).runIn s = (.ok value, s))
    (alone : value.flat? = some tree) : e.Makes tree := by
  intro enter lines frame s
  refine ⟨value, #[], [], ?_, .flat alone .nil, Store.between_nil⟩
  rw [Store.grow_empty]
  exact evals enter lines frame s

theorem Store.Unfolds.unwrap {s : Store} {value : Value} {tree : Unfolding} {handles : List ArrayId}
    (unfolds : s.Unfolds [value] [tree] handles) : value.unwrap = value := by
  cases unfolds with
  | flat alone _ => cases value <;> first | rfl | cases alone
  | array => rfl

theorem makesAll_nil : MakesAll [] [] := by
  intro enter lines frame s
  refine ⟨[], #[], [], ?_, .nil, Store.between_nil⟩
  rw [Store.grow_empty, evalArgs]
  rfl

theorem makesAll_cons {e : Expr} {es : List Expr} {tree : Unfolding} {trees : List Unfolding}
    (first : e.Makes tree) (later : MakesAll es trees) : MakesAll (e :: es) (tree :: trees) := by
  intro enter lines frame s
  obtain ⟨value, new, handles, here, held, fresh⟩ := first enter lines frame s
  obtain ⟨values, newer, handles', there, rest, fresh'⟩ := later enter lines frame (s.grow new)
  rw [Store.grow_grow] at there rest
  rw [Store.size_grow] at fresh'
  refine ⟨value :: values, new ++ newer, handles ++ handles', ?_, ?_, ?_⟩
  · rw [evalArgs, Eval.runIn_bind_ok here, Eval.runIn_bind_ok there, held.unwrap]
    rfl
  -- The later members only add arrays, so the tree of the first one stays.
  · refine Store.Unfolds.append (held.mono fun id member => ?_) rest
    rw [← Store.grow_grow]
    exact Store.members_grow _ _ (by rw [Store.size_grow]; exact fresh.high id member)
  · rw [Array.size_append, ← Nat.add_assoc]
    exact fresh.append fresh' (Nat.le_add_right _ _) (Nat.le_add_right _ _)

theorem makes_array {es : List Expr} {trees : List Unfolding} (all : MakesAll es trees)
    (span : Span) : (Expr.array span es).Makes (.array trees) := by
  intro enter lines frame s
  obtain ⟨values, new, handles, ran, inside, fresh⟩ := all enter lines frame s
  obtain ⟨id, newer, within, made, held, fresh⟩ := Store.unfolds_alloc inside fresh
  refine ⟨.array id, newer, id :: within, ?_, held.single, fresh⟩
  rw [Expr.eval, Eval.runIn_bind_ok ran]
  change (Except.ok (Value.array ((s.grow new).alloc values.toArray).1),
    ((s.grow new).alloc values.toArray).2) = _
  rw [made]

end Makes

section Trees

namespace Tree

def ofLiteral (literal : Tree (.nonterminal .literal)) : Tree (.nonterminal .primary) :=
  .node .literalPrimary (.cons (.node .placedLiteral (.cons literal .nil)) .nil)

def ofPrimary (primary : Tree (.nonterminal .primary)) : Tree (.nonterminal .unary) :=
  .node .postfixedUnary (.cons (.node .primaryPostfixed (.cons primary .nil)) .nil)

def onLevel (tier : Tier) (operand : Tree (.nonterminal tier.operand)) :
    Tree (.nonterminal (.level tier)) :=
  .node (.level tier) (.cons (.node (.chain tier) (.cons operand .nil)) .nil)

def ofUnary (unary : Tree (.nonterminal .unary)) : Tree (.nonterminal (.level .or)) :=
  onLevel .or (onLevel .and (onLevel .equality (onLevel .comparison (onLevel .sum
    (onLevel .product unary)))))

def negated (place : Span) (operand : Tree (.nonterminal .unary)) : Tree (.nonterminal .unary) :=
  .node .negation (.cons (.leaf (.fixed .minus) () place) (.cons operand .nil))

def bracketed (first last : Span) (members : Tree (.nonterminal (.list .expr))) :
    Tree (.nonterminal .primary) :=
  .node .array (.cons (.leaf (.fixed .leftBracket) () first)
    (.cons members (.cons (.leaf (.fixed .rightBracket) () last) .nil)))

@[simp] theorem lexemes_leaf (kind : TokenKind) (payload : kind.Payload) (place : Span) :
    (leaf kind payload place).lexemes = [⟨⟨kind, payload⟩, place⟩] := by
  rw [lexemes]

@[simp] theorem value_leaf (kind : TokenKind) (payload : kind.Payload) (place : Span) :
    (leaf kind payload place).value = payload := by
  rw [value, reading]

@[simp] theorem lexemes_ofUnary (unary : Tree (.nonterminal .unary)) :
    unary.ofUnary.lexemes = unary.lexemes := by
  simp [ofUnary, onLevel]

@[simp] theorem value_ofUnary (unary : Tree (.nonterminal .unary)) :
    unary.ofUnary.value = unary.value := by
  simp [ofUnary, onLevel, Production.value, Tier.operandExpr]

@[simp] theorem lexemes_ofPrimary (primary : Tree (.nonterminal .primary)) :
    primary.ofPrimary.lexemes = primary.lexemes := by
  simp [ofPrimary]

@[simp] theorem value_ofPrimary (primary : Tree (.nonterminal .primary)) :
    primary.ofPrimary.value = primary.value := by
  simp [ofPrimary, Production.value]

@[simp] theorem lexemes_ofLiteral (literal : Tree (.nonterminal .literal)) :
    literal.ofLiteral.lexemes = literal.lexemes := by
  simp [ofLiteral]

@[simp] theorem value_ofLiteral (literal : Tree (.nonterminal .literal)) :
    literal.ofLiteral.value = literal.value := by
  simp [ofLiteral, Production.value]

theorem lexemes_negated (place : Span) (operand : Tree (.nonterminal .unary)) :
    (negated place operand).lexemes = ⟨.fixed .minus, place⟩ :: operand.lexemes := by
  simp [negated, Token.fixed]

theorem value_negated (place : Span) (operand : Tree (.nonterminal .unary)) :
    ∃ span, (negated place operand).value = .unary span .neg operand.value := by
  simp [negated, Production.value]

theorem lexemes_bracketed (first last : Span) (members : Tree (.nonterminal (.list .expr))) :
    (bracketed first last members).lexemes =
      ⟨.fixed .leftBracket, first⟩ :: (members.lexemes ++ [⟨.fixed .rightBracket, last⟩]) := by
  simp [bracketed, Token.fixed]

theorem value_bracketed (first last : Span) (members : Tree (.nonterminal (.list .expr))) :
    ∃ span, (bracketed first last members).value = .array span members.value := by
  simp [bracketed, Production.value]

end Tree

end Trees

section Reading

open LexicalRule Lexeme
open Text (byteLength)

def Visible (text : List Char) : Prop :=
  ∃ c rest, text = c :: rest ∧ c ∉ [' ', '\t', '\n', '\r']

/-- In front of the end of a member, the text is cut into the lexemes of an expression that makes
    the tree. -/
structure Reads (text : List Char) (tree : Unfolding) : Prop where
  visible : Visible text
  cuts : ∀ offset after, Closes after → ∃ e : Tree (.nonterminal (.level .or)),
    Cuts offset text after e.lexemes ∧ e.value.Makes tree

theorem exists_mark {word : Fixed} (mark : word ∈ marks) (offset : Nat) (after : List Char) :
    ∃ place, Cuts offset word.spelling.toList after [⟨.fixed word, place⟩] :=
  ⟨_, cuts_token (takes_mark mark after) rfl rfl⟩

section Tokens

variable {rule : LexicalRule} {text : List Char} {kind : TokenKind} {payload : kind.Payload}
  {tree : Unfolding} (production : Production .literal [.terminal kind])

theorem exists_literal {after : List Char} (offset : Nat) (takes : rule.Takes text after)
    (gives : rule.kind = some kind) (value : kind.read? text = some payload) :
    ∃ (literal : Tree (.nonterminal .literal)) (place : Span),
      Cuts offset text after literal.lexemes ∧
      literal.value = production.value place (payload, ()) := by
  let place : Span := ⟨offset, offset + byteLength text⟩
  refine ⟨.node production (.cons (.leaf kind payload place) .nil), place, ?_, ?_⟩
  · simpa using cuts_token takes gives value
  · simp [Forest.readings, Tree.reading, Span.join?]

theorem reads_token (visible : Visible text) (takes : ∀ after, Closes after → rule.Takes text after)
    (gives : rule.kind = some kind) (value : kind.read? text = some payload)
    (makes : ∀ place, Expr.Makes (production.value place (payload, ())) tree) :
    Reads text tree := by
  refine ⟨visible, fun offset after closes => ?_⟩
  obtain ⟨literal, place, cuts, same⟩ :=
    exists_literal production offset (takes after closes) gives value
  refine ⟨literal.ofLiteral.ofPrimary.ofUnary, by simpa using cuts, ?_⟩
  simpa [same] using makes place

theorem reads_negated (takes : ∀ after, Closes after → rule.Takes text after)
    (gives : rule.kind = some kind) (value : kind.read? text = some payload)
    (makes : ∀ span place,
      Expr.Makes (.unary span .neg (production.value place (payload, ()))) tree) :
    Reads ('-' :: text) tree := by
  refine ⟨⟨'-', text, rfl, by decide⟩, fun offset after closes => ?_⟩
  have dash : Fixed.minus ∈ marks := by decide
  obtain ⟨sign, minus⟩ := exists_mark dash offset (text ++ after)
  obtain ⟨literal, place, cuts, same⟩ :=
    exists_literal production _ (takes after closes) gives value
  refine ⟨(Tree.negated sign literal.ofLiteral.ofPrimary).ofUnary, ?_, ?_⟩
  · rw [Tree.lexemes_ofUnary, Tree.lexemes_negated, Tree.lexemes_ofPrimary, Tree.lexemes_ofLiteral]
    exact minus.append cuts
  · rw [Tree.value_ofUnary]
    obtain ⟨span, value⟩ := Tree.value_negated sign literal.ofLiteral.ofPrimary
    rw [value, Tree.value_ofPrimary, Tree.value_ofLiteral, same]
    exact makes span place

end Tokens

theorem reads_word {word : Fixed} {tree : Unfolding}
    (production : Production .literal [.word word]) (value : Value) (stands : word ∈ valueWords)
    (evals : ∀ place enter lines frame s,
      ((production.value place ((), ())).eval enter lines frame).runIn s = (.ok value, s))
    (alone : value.flat? = some tree) : Reads word.spelling.toList tree := by
  have visible : Visible word.spelling.toList := by
    simp only [valueWords, List.mem_cons, List.not_mem_nil, or_false] at stands
    rcases stands with rfl | rfl | rfl <;> exact ⟨_, _, rfl, by decide⟩
  refine reads_token production visible (fun after => takes_word stands) rfl rfl fun place => ?_
  exact Expr.makes_flat value (evals place) alone

section Leaves

open Decimal

variable {ds : List Char}

theorem visible_digits (some : ds ≠ []) (digits : AllDigits ds) (rest : List Char) :
    Visible (ds ++ rest) := by
  obtain ⟨d, later, rfl⟩ := List.exists_cons_of_ne_nil some
  have blank : ∀ c ∈ [' ', '\t', '\n', '\r'], c.isDigit = false := by simp
  refine ⟨d, later ++ rest, rfl, fun member => ?_⟩
  have digit := digits d List.mem_cons_self
  rw [blank d member] at digit
  cases digit

theorem read_toDigits {k : Nat} (fits : k < 0x8000000000000000) :
    TokenKind.int.read? (Nat.toDigits 10 k) = some (Int64.ofNat k) := by
  rw [TokenKind.read?, natOf, natFrom_toDigits]
  exact if_pos fits

theorem takes_toDigits (k : Nat) {after : List Char} (closes : Closes after) :
    int.Takes (Nat.toDigits 10 k) after :=
  takes_number (by simp [numbers])
    (matches_int.mpr ⟨Nat.toDigits_ne_nil, allDigits_toDigits k⟩) closes

theorem reads_int {n : Int64} (sized : n ≠ Int64.minValue) :
    Reads (toString n.toInt).toList (.int n) := by
  have low := n.le_toInt
  have high := n.toInt_lt
  rw [Json.toString_toList]
  by_cases negative : n.toInt < 0
  · have least : n.toInt ≠ -2 ^ 63 := fun same => sized (Int64.toInt_inj.mp same)
    have size : n.toInt = -(n.toInt.natAbs : Int) := by omega
    have value : -Int64.ofNat n.toInt.natAbs = n := by
      rw [← Int64.ofInt_eq_ofNat, ← Int64.ofInt_neg, ← size, Int64.ofInt_toInt]
    rw [Json.signOf, if_pos negative]
    refine reads_negated .intLiteral (fun _ => takes_toDigits _) rfl
      (read_toDigits (by omega)) fun span place => ?_
    refine Expr.makes_flat (.int n) (fun enter lines frame s => ?_) rfl
    rw [Production.value, Expr.eval, Expr.eval, pure_bind, UnOp.apply, value]
    rfl
  · have size : n.toInt = (n.toInt.natAbs : Int) := by omega
    have value : Int64.ofNat n.toInt.natAbs = n := by
      rw [← Int64.ofInt_eq_ofNat, ← size, Int64.ofInt_toInt]
    rw [Json.signOf, if_neg negative]
    have visible := visible_digits Nat.toDigits_ne_nil (allDigits_toDigits n.toInt.natAbs) []
    rw [List.append_nil] at visible
    refine reads_token .intLiteral visible (fun _ => takes_toDigits _) rfl
      (read_toDigits (by omega)) fun place => ?_
    refine Expr.makes_flat (.int n) (fun enter lines frame s => ?_) rfl
    rw [Production.value, Expr.eval, value]
    rfl

theorem reads_float {x : Float} (fractional : Fractional x) :
    Reads (Layout.display.text x) (.float x) := by
  obtain ⟨ds, fs, some, digits, some', digits', shown⟩ := fractional.text
  have takes (after : List Char) (closes : Closes after) :
      float.Takes (ds ++ '.' :: fs) after := by
    refine takes_number (by simp [numbers]) (matches_float.mpr ?_) closes
    exact ⟨ds, fs, [], some, digits, some', digits', .inr rfl, by rw [List.append_nil]⟩
  rcases shown with ⟨text, same⟩ | ⟨text, same⟩
  · rw [text]
    refine reads_token .floatLiteral (visible_digits some digits _) takes rfl rfl fun place => ?_
    refine Expr.makes_flat (.float x) (fun enter lines frame s => ?_) rfl
    rw [Production.value, Expr.eval, same]
    rfl
  · rw [text]
    refine reads_negated .floatLiteral takes rfl rfl fun span place => ?_
    refine Expr.makes_flat (.float x) (fun enter lines frame s => ?_) rfl
    rw [Production.value, Expr.eval, Expr.eval, pure_bind, UnOp.apply, same]
    rfl

theorem reads_str {s : String} (shown : ∀ c ∈ s.toList, Text.Shown c) :
    Reads (Text.quoted s.toList) (.str s) := by
  have value : TokenKind.string.read? (Text.quoted s.toList) = some s := by
    rw [Text.quoted, List.cons_append, read?_string (Text.resolved_quoted shown),
      String.ofList_toList]
  refine reads_token .stringLiteral ⟨'"', _, rfl, by simp⟩ (fun after _ => takes_quoted shown after)
    rfl value fun place => ?_
  refine Expr.makes_flat (.str s) (fun enter lines frame s => ?_) rfl
  rw [Production.value, Expr.eval]
  rfl

theorem reads_bool (b : Bool) : Reads (toString b).toList (.bool b) := by
  cases b with
  | true =>
    refine reads_word .trueLiteral (.bool true) (by decide) (fun _ _ _ _ _ => ?_) rfl
    rw [Production.value, Expr.eval]
    rfl
  | false =>
    refine reads_word .falseLiteral (.bool false) (by decide) (fun _ _ _ _ _ => ?_) rfl
    rw [Production.value, Expr.eval]
    rfl

theorem reads_nil : Reads "nil".toList .nil := by
  refine reads_word .nilLiteral .nil (by decide) (fun _ _ _ _ _ => ?_) rfl
  rw [Production.value, Expr.eval]
  rfl

end Leaves

section Arrays

theorem closes_cons {c : Char} (closer : c ∈ [',', ']']) (rest : List Char) :
    Closes (c :: rest) := by
  rintro d others ⟨⟩
  exact closer

theorem Visible.commaSeparated {text : List Char} (visible : Visible text)
    (rest : List (List Char)) : Visible (commaSeparated (text :: rest)) := by
  obtain ⟨c, later, rfl, shown⟩ := visible
  cases rest with
  | nil => exact ⟨c, later, rfl, shown⟩
  | cons next rest => exact ⟨c, _, rfl, shown⟩

theorem exists_members {trees : List Unfolding}
    (each : ∀ tree ∈ trees, Reads tree.memberText tree) (offset : Nat) (rest : List Char) :
    ∃ parts : ListParts .expr,
      Cuts offset (commaSeparated (trees.map Unfolding.memberText)) (']' :: rest) parts.lexemes ∧
        MakesAll parts.value trees := by
  induction trees generalizing offset with
  | nil => exact ⟨⟨[], none⟩, cuts_nil, makesAll_nil⟩
  | cons tree trees ih =>
    rw [List.forall_mem_cons] at each
    obtain ⟨reads, later⟩ := each
    cases trees with
    | nil =>
      obtain ⟨e, cuts, makes⟩ := reads.cuts offset _ (closes_cons (c := ']') (by simp) rest)
      let element : Listed.Element .expr := .node .levelExpr (.cons e .nil)
      refine ⟨⟨[], some element⟩, ?_, ?_⟩
      · simpa [commaSeparated, ListParts.lexemes, element] using cuts
      · simpa [ListParts.value, element, Production.value, Listed.item] using
          makesAll_cons makes makesAll_nil
    | cons next trees =>
      let behind := commaSeparated ((next :: trees).map Unfolding.memberText)
      have comma : Fixed.comma ∈ marks := by decide
      have separates : Closes (',' :: ([' '] ++ behind ++ ']' :: rest)) := closes_cons (by simp) _
      obtain ⟨e, cuts, makes⟩ := reads.cuts offset _ separates
      let element : Listed.Element .expr := .node .levelExpr (.cons e .nil)
      obtain ⟨place, separator⟩ := exists_mark comma (offset + byteLength tree.memberText)
        ([' '] ++ behind ++ ']' :: rest)
      obtain ⟨c, others, text, shown⟩ :=
        (later next List.mem_cons_self).visible.commaSeparated (trees.map Unfolding.memberText)
      have space : blanks.Takes [' '] (behind ++ ']' :: rest) := by
        change blanks.Takes [' '] (commaSeparated (next.memberText :: _) ++ _)
        rw [text]
        exact takes_space shown _
      obtain ⟨parts, inside, values⟩ := ih later _
      let longer : ListParts .expr := ⟨(element, place) :: parts.closed, parts.last⟩
      have lexemes : longer.lexemes =
          e.lexemes ++ ([⟨.fixed .comma, place⟩] ++ ([] ++ parts.lexemes)) := by
        simp [longer, element, ListParts.lexemes, ListParts.closedLexemes]
      refine ⟨longer, ?_, ?_⟩
      · rw [lexemes]
        exact cuts.append (separator.append ((cuts_skipped space rfl).append inside))
      · simpa [longer, element, ListParts.value, Production.value, Listed.item] using
          makesAll_cons makes values

theorem reads_array {trees : List Unfolding}
    (each : ∀ tree ∈ trees, Reads tree.memberText tree) :
    Reads (Unfolding.array trees).text (.array trees) := by
  rw [Unfolding.text, Unfolding.memberTexts_eq]
  refine ⟨⟨'[', _, rfl, by simp⟩, fun offset after closes => ?_⟩
  have left : Fixed.leftBracket ∈ marks := by decide
  have right : Fixed.rightBracket ∈ marks := by decide
  let inner := commaSeparated (trees.map Unfolding.memberText)
  obtain ⟨first, opened⟩ := exists_mark left offset (inner ++ [']'] ++ after)
  obtain ⟨parts, inside, makes⟩ :=
    exists_members each (offset + byteLength Fixed.leftBracket.spelling.toList) after
  obtain ⟨members, lexemes, values⟩ := Tree.list_iff.mpr ⟨parts, rfl, rfl⟩
  obtain ⟨last, closed⟩ := exists_mark right
    (offset + byteLength Fixed.leftBracket.spelling.toList + byteLength inner) after
  rw [← lexemes] at inside
  refine ⟨(Tree.bracketed first last members).ofPrimary.ofUnary, ?_, ?_⟩
  · rw [Tree.lexemes_ofUnary, Tree.lexemes_ofPrimary, Tree.lexemes_bracketed]
    exact opened.append (inside.append closed)
  · obtain ⟨span, value⟩ := Tree.value_bracketed first last members
    rw [Tree.value_ofUnary, Tree.value_ofPrimary, value, values]
    exact makes_array makes span

end Arrays

theorem Unfolding.Literal.reads {tree : Unfolding} (literal : tree.Literal) :
    Reads tree.memberText tree := by
  induction literal with
  | int sized => exact reads_int sized
  | float fractional => exact reads_float fractional
  | str shown => exact reads_str shown
  | bool b => exact reads_bool b
  | nil => exact reads_nil
  | array _ each => exact reads_array each

end Reading

end MonkeyLang
