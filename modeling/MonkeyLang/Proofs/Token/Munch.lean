import MonkeyLang.Proofs.Token.Rule

namespace MonkeyLang

namespace LexicalRule

open Pattern

/-- The rule takes the slice in front of the rest: no rule matches a longer piece of the two, and no
    other one the slice, unless it is a keyword, which looks like an identifier. -/
structure Takes (rule : LexicalRule) (slice rest : List Char) : Prop where
  declared : rule ∈ all
  matched : rule.pattern.Matches slice
  longest : ∀ other ∈ all, ∀ piece, piece <+: slice ++ rest → other.pattern.Matches piece →
    piece.length ≤ slice.length
  first : ∀ other ∈ all, other.pattern.Matches slice →
    other = rule ∨ other = ident ∧ ∃ word ∈ Fixed.keywords, rule = ofFixed word

def NoneTakes (text : List Char) : Prop :=
  ∀ rule ∈ all, ∀ piece, piece <+: text → ¬ rule.pattern.Matches piece

section First

variable {rule other : LexicalRule} {a : List Char}

theorem first?_starts (a : List Char) : first? starts a = all.find? (·.pattern.accepts a) := by
  rw [first?, starts, List.find?_map, Option.map_map]
  exact congrFun Option.map_id _

theorem first?_eq_none : first? starts a = none ↔ ∀ rule ∈ all, ¬ rule.pattern.Matches a := by
  rw [first?_starts, List.find?_eq_none]
  simp only [accepts_iff]

theorem ofFixed_ne_ident (word : Fixed) : ofFixed word ≠ ident := by
  intro same
  have kinds := congrArg kind same
  cases kinds

theorem first_of_first? (found : first? starts a = some rule) :
    rule ∈ all ∧ rule.pattern.Matches a ∧ ∀ other ∈ all, other.pattern.Matches a →
      other = rule ∨ other = ident ∧ ∃ word ∈ Fixed.keywords, rule = ofFixed word := by
  rw [first?_starts] at found
  have declared := List.mem_of_find?_eq_some found
  have accepted : rule.pattern.accepts a = true := by simpa using List.find?_some found
  have matched := accepts_iff.mp accepted
  refine ⟨declared, matched, fun other member there => ?_⟩
  rcases eq_of_matches declared member matched there with
    same | ⟨word, keyword, fixed, same⟩ | ⟨word, keyword, rfl, same⟩
  · exact .inl same
  · exact .inr ⟨same, word, keyword, fixed⟩
  -- A keyword stands before the rule for identifiers, so that one would not be the first.
  · exfalso
    have among : ofFixed word ∈ Fixed.words.map ofFixed :=
      List.mem_map_of_mem (Fixed.mem_words word)
    have hit : ((Fixed.words.map ofFixed).find? (·.pattern.accepts a)).isSome = true :=
      List.find?_isSome.mpr ⟨ofFixed word, among, accepts_iff.mpr there⟩
    obtain ⟨early, earlier⟩ := Option.isSome_iff_exists.mp hit
    rw [all_eq, List.find?_append, earlier, Option.some_or] at found
    obtain ⟨word', -, fixed⟩ := List.mem_map.mp (List.mem_of_find?_eq_some earlier)
    rw [Option.some.inj found, same] at fixed
    exact ofFixed_ne_ident word' fixed

end First

section Taking

variable {rule other : LexicalRule} {slice slice' rest rest' : List Char}

theorem not_nullable : ∀ rule ∈ all, rule.pattern.nullable = false := by
  decide

theorem Takes.ne_nil (takes : rule.Takes slice rest) : slice ≠ [] := by
  rintro rfl
  have null := nullable_iff.mpr takes.matched
  rw [not_nullable rule takes.declared] at null
  cases null

theorem Takes.shorten (takes : rule.Takes slice (rest ++ rest')) : rule.Takes slice rest where
  declared := takes.declared
  matched := takes.matched
  longest other member piece head :=
    takes.longest other member piece (head.trans ⟨rest', List.append_assoc ..⟩)
  first := takes.first

theorem Takes.unique (takes : rule.Takes slice rest) (takes' : other.Takes slice' rest')
    (same : slice ++ rest = slice' ++ rest') : slice = slice' ∧ other = rule := by
  have head : slice <+: slice' ++ rest' := same ▸ List.prefix_append ..
  have head' : slice' <+: slice ++ rest := same ▸ List.prefix_append ..
  have short := takes'.longest rule takes.declared slice head takes.matched
  have long := takes.longest other takes'.declared slice' head' takes'.matched
  obtain ⟨rfl, -⟩ := List.append_inj same (Nat.le_antisymm short long)
  refine ⟨rfl, ?_⟩
  rcases takes.first other takes'.declared takes'.matched with equal | ⟨rfl, word, -, rfl⟩
  · exact equal
  · rcases takes'.first _ takes.declared takes.matched with equal | ⟨none, -⟩
    · exact equal.symm
    · exact absurd none (ofFixed_ne_ident word)

theorem longest_cut (text : List Char) :
    (∃ rule slice rest, text = slice ++ rest ∧ Takes rule slice rest ∧
      LexicalRule.longest text = some (rule, slice.length)) ∨
    NoneTakes text ∧ LexicalRule.longest text = none := by
  have spec := Pattern.longest_spec starts text
  rcases found : Pattern.longest starts text with _ | ⟨rule, n⟩
  · rw [found] at spec
    refine .inr ⟨fun rule member piece head whole => ?_, found⟩
    have none := spec piece.length head.length_le
    rw [← List.prefix_iff_eq_take.mp head] at none
    exact first?_eq_none.mp none rule member whole
  · rw [found] at spec
    obtain ⟨most, first, longer⟩ := spec
    obtain ⟨declared, matched, only⟩ := first_of_first? first
    have size : (text.take n).length = n := List.length_take_of_le most
    refine .inl ⟨rule, text.take n, text.drop n, (List.take_append_drop ..).symm, ?_, ?_⟩
    · refine ⟨declared, matched, fun other member piece head whole => ?_, only⟩
      rw [List.take_append_drop] at head
      by_contra more
      have none := longer piece.length head.length_le (by omega)
      rw [← List.prefix_iff_eq_take.mp head] at none
      exact first?_eq_none.mp none other member whole
    · rw [size]
      exact found

theorem Takes.longest_eq (takes : rule.Takes slice rest) :
    LexicalRule.longest (slice ++ rest) = some (rule, slice.length) := by
  rcases longest_cut (slice ++ rest) with ⟨other, slice', rest', same, takes', found⟩ | ⟨none, -⟩
  · obtain ⟨rfl, rfl⟩ := takes.unique takes' same
    exact found
  · exact absurd takes.matched (none rule takes.declared slice (List.prefix_append ..))

theorem NoneTakes.longest_eq {text : List Char} (none : NoneTakes text) :
    LexicalRule.longest text = Option.none := by
  rcases longest_cut text with ⟨rule, slice, rest, rfl, takes, -⟩ | ⟨-, found⟩
  · exact absurd takes.matched (none rule takes.declared slice (List.prefix_append ..))
  · exact found

end Taking

section Skipping

variable {rule : LexicalRule} {slice rest : List Char}

/-- Spaces, tabs and ends of lines, or two slashes and what stands behind them in the line. -/
def Skipped (slice : List Char) : Prop :=
  (∀ c ∈ slice, c ∈ [' ', '\t', '\n', '\r']) ∨
    ∃ line, slice = '/' :: '/' :: line ∧ '\n' ∉ line

theorem matches_blanks :
    blanks.pattern.Matches slice → ∀ c ∈ slice, c ∈ [' ', '\t', '\n', '\r'] := by
  intro whole
  obtain ⟨_, later, first, more, rfl⟩ := matches_seq_iff.mp whole
  obtain ⟨c, member, rfl⟩ := matches_char_iff.mp first
  have others := matches_star_char.mp more
  simp only [CharClass.contains_ofChars] at member others
  exact List.forall_mem_cons.mpr ⟨member, others⟩

theorem matches_comment :
    comment.pattern.Matches slice → ∃ line, slice = '/' :: '/' :: line ∧ '\n' ∉ line := by
  intro whole
  obtain ⟨_, line, slashes, more, rfl⟩ := matches_seq_iff.mp whole
  rw [matches_exactly.mp slashes]
  refine ⟨line, rfl, fun member => ?_⟩
  have inside := matches_star_char.mp more '\n' member
  rw [CharClass.contains_except] at inside
  exact inside (List.mem_singleton_self _)

theorem kinds_of_words : ∀ rule ∈ Fixed.words.map ofFixed ++ (numbers ++ [string, ident]),
    rule.kind.isSome = true := by
  decide

theorem Takes.skipped (takes : rule.Takes slice rest) (skips : rule.kind = none) :
    Skipped slice := by
  have declared := takes.declared
  have split : all = (Fixed.words.map ofFixed ++ (numbers ++ [string, ident])) ++
      [blanks, comment] := rfl
  rw [split] at declared
  rcases List.mem_append.mp declared with token | skipped
  · have some := kinds_of_words rule token
    rw [skips] at some
    cases some
  · rcases List.mem_pair.mp skipped with rfl | rfl
    · exact .inl (matches_blanks takes.matched)
    · exact .inr (matches_comment takes.matched)

end Skipping

end LexicalRule

open Text (byteLength)

namespace Lexeme

/-- `Munch offset text lexemes rest`: the text, which starts at the offset, is cut up to the rest,
    each time by the rule that takes what is cut off, and gives the lexemes. -/
inductive Munch : Nat → List Char → List Lexeme → List Char → Prop
  | done {offset : Nat} {rest : List Char} : Munch offset rest [] rest
  | skip {offset : Nat} {slice after rest : List Char} {rule : LexicalRule} {lexemes : List Lexeme}
      (takes : rule.Takes slice after) (skips : rule.kind = none)
      (later : Munch (offset + byteLength slice) after lexemes rest) :
      Munch offset (slice ++ after) lexemes rest
  | token {offset : Nat} {slice after rest : List Char} {rule : LexicalRule}
      {lexemes : List Lexeme} {kind : TokenKind} {payload : kind.Payload}
      (takes : rule.Takes slice after) (gives : rule.kind = some kind)
      (value : kind.read? slice = some payload)
      (later : Munch (offset + byteLength slice) after lexemes rest) :
      Munch offset (slice ++ after)
        (⟨⟨kind, payload⟩, offset, offset + byteLength slice⟩ :: lexemes) rest

/-- There is a text, but no rule takes a piece of it, or the one that does is for integers, and the
    integer does not fit. -/
inductive Blocked : List Char → Prop
  | unmatched {text : List Char} (some : text ≠ []) (none : LexicalRule.NoneTakes text) :
      Blocked text
  | int {slice after : List Char} (takes : LexicalRule.int.Takes slice after)
      (large : 2 ^ 63 ≤ Decimal.natOf slice) : Blocked (slice ++ after)
  | uint {slice after : List Char} (takes : LexicalRule.uint.Takes slice after)
      (large : 2 ^ 64 ≤ Decimal.natOf slice) : Blocked (slice ++ after)

section Scanning

variable {offset : Nat} {text slice after rest : List Char} {rule : LexicalRule}
  {lexemes : List Lexeme}

theorem scanFrom_takes (takes : rule.Takes slice after) :
    scanFrom offset (slice ++ after) =
      match rule.kind with
      | none => scanFrom (offset + byteLength slice) after
      | some kind =>
        match kind.read? slice with
        | none => .error ⟨slice, offset, offset + byteLength slice⟩
        | some payload => (scanFrom (offset + byteLength slice) after).map
            (⟨⟨kind, payload⟩, offset, offset + byteLength slice⟩ :: ·) := by
  have found := takes.longest_eq
  obtain ⟨c, others, rfl⟩ := List.exists_cons_of_ne_nil takes.ne_nil
  rw [List.cons_append] at found ⊢
  rw [scanFrom, found]
  simp only [List.length_cons, List.take_left, List.drop_left]
  rcases rule.kind with _ | kind
  · rfl
  · dsimp only
    rcases kind.read? (c :: others) with _ | payload
    · rfl
    · dsimp only
      cases scanFrom (offset + byteLength (c :: others)) after <;> rfl

theorem scanFrom_unmatched (some : text ≠ []) (none : LexicalRule.NoneTakes text) :
    scanFrom offset text = .error (.atHead offset text) := by
  obtain ⟨c, others, rfl⟩ := List.exists_cons_of_ne_nil some
  rw [scanFrom, none.longest_eq]

theorem Munch.scanFrom_eq (munch : Munch offset text lexemes rest) :
    ∃ read, text = read ++ rest ∧ Munch offset read lexemes [] ∧
      scanFrom offset text = (scanFrom (offset + byteLength read) rest).map (lexemes ++ ·) := by
  induction munch with
  | @done offset rest =>
    refine ⟨[], rfl, .done, ?_⟩
    rw [Text.byteLength_nil, Nat.add_zero]
    cases scanFrom offset rest <;> rfl
  | @skip offset slice after rest rule lexemes takes skips _ ih =>
    obtain ⟨read, rfl, munch, same⟩ := ih
    refine ⟨slice ++ read, (List.append_assoc ..).symm, .skip takes.shorten skips munch, ?_⟩
    rw [scanFrom_takes takes, skips, Text.byteLength_append, ← Nat.add_assoc]
    exact same
  | @token offset slice after rest rule lexemes kind payload takes gives value _ ih =>
    obtain ⟨read, rfl, munch, same⟩ := ih
    refine ⟨slice ++ read, (List.append_assoc ..).symm, .token takes.shorten gives value munch, ?_⟩
    rw [scanFrom_takes takes, gives, Text.byteLength_append, ← Nat.add_assoc]
    dsimp only
    rw [value]
    dsimp only
    rw [same]
    cases scanFrom (offset + byteLength slice + byteLength read) rest <;> rfl

theorem Munch.ofText_eq (munch : Munch 0 text lexemes []) : ofText text = .ok lexemes := by
  obtain ⟨read, rfl, -, same⟩ := munch.scanFrom_eq
  rw [ofText, same, scanFrom]
  exact congrArg Except.ok (List.append_nil lexemes)

theorem read?_int_eq_none : TokenKind.int.read? slice = none ↔ 2 ^ 63 ≤ Decimal.natOf slice := by
  simp [TokenKind.read?]

theorem read?_uint_eq_none : TokenKind.uint.read? slice = none ↔ 2 ^ 64 ≤ Decimal.natOf slice := by
  simp [TokenKind.read?]

theorem Blocked.scanFrom_eq (blocked : Blocked rest) (offset : Nat) :
    ∃ e, scanFrom offset rest = .error e ∧ e.span.start = offset := by
  cases blocked with
  | unmatched some none => exact ⟨_, scanFrom_unmatched some none, rfl⟩
  | int takes large =>
    rw [scanFrom_takes takes]
    dsimp only [LexicalRule.int]
    rw [read?_int_eq_none.mpr large]
    exact ⟨_, rfl, rfl⟩
  | uint takes large =>
    rw [scanFrom_takes takes]
    dsimp only [LexicalRule.uint]
    rw [read?_uint_eq_none.mpr large]
    exact ⟨_, rfl, rfl⟩

theorem Blocked.of_takes {kind : TokenKind} (takes : rule.Takes slice after)
    (gives : rule.kind = some kind) (none : kind.read? slice = none) :
    Blocked (slice ++ after) := by
  cases LexicalRule.giving takes.declared gives with
  | int => exact .int takes (read?_int_eq_none.mp none)
  | uint => exact .uint takes (read?_uint_eq_none.mp none)
  | fixed | float | string | ident => cases none

theorem exists_munch (offset : Nat) (text : List Char) :
    ∃ lexemes rest, Munch offset text lexemes rest ∧ (rest = [] ∨ Blocked rest) := by
  induction size : text.length using Nat.strong_induction_on generalizing offset text with
  | _ n ih =>
    by_cases some : text = []
    · exact ⟨[], [], some ▸ .done, .inl rfl⟩
    · rcases LexicalRule.longest_cut text with ⟨rule, slice, after, rfl, takes, -⟩ | ⟨none, -⟩
      · have shorter : after.length < n := by
          have full := List.length_pos_of_ne_nil takes.ne_nil
          rw [← size, List.length_append]
          omega
        obtain ⟨lexemes, rest, munch, ends⟩ :=
          ih after.length shorter (offset + byteLength slice) after rfl
        cases gives : rule.kind with
        | none => exact ⟨lexemes, rest, .skip takes gives munch, ends⟩
        | some kind =>
          cases value : kind.read? slice with
          | none => exact ⟨[], _, .done, .inr (.of_takes takes gives value)⟩
          | some payload => exact ⟨_, rest, .token takes gives value munch, ends⟩
      · exact ⟨[], text, .done, .inr (.unmatched some none)⟩

theorem Munch.ofText_blocked (munch : Munch 0 text lexemes rest) (blocked : Blocked rest) :
    ∃ before e, text = before ++ rest ∧ ofText before = .ok lexemes ∧
      ofText text = .error e ∧ e.span.start = byteLength before := by
  obtain ⟨before, rfl, early, same⟩ := munch.scanFrom_eq
  obtain ⟨e, failed, start⟩ := blocked.scanFrom_eq (0 + byteLength before)
  refine ⟨before, e, rfl, early.ofText_eq, ?_, start.trans (Nat.zero_add _)⟩
  rw [ofText, same, failed]
  rfl

theorem munch_of_ofText (found : ofText text = .ok lexemes) : Munch 0 text lexemes [] := by
  obtain ⟨lexemes', rest, munch, rfl | blocked⟩ := exists_munch 0 text
  · rw [munch.ofText_eq] at found
    exact Except.ok.inj found ▸ munch
  · obtain ⟨before, e, -, -, failed, -⟩ := munch.ofText_blocked blocked
    rw [found] at failed
    cases failed

theorem blocked_of_ofText {e : LexicalError} (failed : ofText text = .error e) :
    ∃ lexemes rest, Munch 0 text lexemes rest ∧ Blocked rest := by
  obtain ⟨lexemes, rest, munch, rfl | blocked⟩ := exists_munch 0 text
  · rw [munch.ofText_eq] at failed
    cases failed
  · exact ⟨lexemes, rest, munch, blocked⟩

end Scanning

section Places

variable {before text rest : List Char} {lexemes : List Lexeme}

theorem byteLength_pos {slice : List Char} (some : slice ≠ []) : 0 < byteLength slice := by
  obtain ⟨c, others, rfl⟩ := List.exists_cons_of_ne_nil some
  rw [Text.byteLength_cons]
  exact Nat.add_pos_left c.utf8Size_pos _

/-- The lexeme has a slice of the text for its place and the token that a rule makes of the slice,
    and it is the only lexeme of the slice. -/
def StandsIn (text : List Char) (lexeme : Lexeme) : Prop :=
  ∃ before slice after rule, text = before ++ slice ++ after ∧ slice ≠ [] ∧
    lexeme.span = ⟨byteLength before, byteLength before + byteLength slice⟩ ∧
    LexicalRule.Takes rule slice after ∧ rule.kind = some lexeme.token.kind ∧
    lexeme.token.kind.read? slice = some lexeme.token.payload ∧
    ofText slice = .ok [⟨lexeme.token, 0, byteLength slice⟩]

/-- The slice of the text between the two places is skipped, and no lexeme has a part of it. -/
def SkippedBetween (text : List Char) (lexemes : List Lexeme) (start stop : Nat) : Prop :=
  (∃ before slice after, text = before ++ slice ++ after ∧ LexicalRule.Skipped slice ∧
    start = byteLength before ∧ stop = byteLength before + byteLength slice) ∧
  ∀ lexeme ∈ lexemes, lexeme.span.stop ≤ start ∨ stop ≤ lexeme.span.start

theorem Munch.bounds {offset : Nat} (munch : Munch offset text lexemes rest) :
    lexemes.Pairwise (·.span.stop ≤ ·.span.start) ∧
      ∀ lexeme ∈ lexemes, offset ≤ lexeme.span.start ∧ lexeme.span.start < lexeme.span.stop := by
  induction munch with
  | done => simp
  | skip takes skips _ ih =>
    refine ⟨ih.1, fun lexeme member => ?_⟩
    obtain ⟨least, some⟩ := ih.2 lexeme member
    exact ⟨Nat.le_trans (Nat.le_add_right _ _) least, some⟩
  | token takes gives value _ ih =>
    have full := byteLength_pos takes.ne_nil
    refine ⟨List.pairwise_cons.mpr ⟨fun lexeme member => (ih.2 lexeme member).1, ih.1⟩, ?_⟩
    refine List.forall_mem_cons.mpr ⟨⟨Nat.le_refl _, ?_⟩, fun lexeme member => ?_⟩
    · exact Nat.lt_add_of_pos_right full
    · obtain ⟨least, some⟩ := ih.2 lexeme member
      exact ⟨Nat.le_trans (Nat.le_add_right _ _) least, some⟩

theorem ofText_slice {rule : LexicalRule} {slice after : List Char} {kind : TokenKind}
    {payload : kind.Payload} (takes : rule.Takes slice after) (gives : rule.kind = some kind)
    (value : kind.read? slice = some payload) :
    ofText slice = .ok [⟨⟨kind, payload⟩, 0, byteLength slice⟩] := by
  have alone : rule.Takes slice [] := takes.shorten
  have munch : Munch 0 (slice ++ []) _ [] := .token alone gives value .done
  rw [Nat.zero_add, List.append_nil] at munch
  exact munch.ofText_eq

theorem Munch.standsIn (before : List Char)
    (munch : Munch (byteLength before) text lexemes rest) :
    ∀ lexeme ∈ lexemes, lexeme.StandsIn (before ++ text) := by
  generalize start : byteLength before = offset at munch
  induction munch generalizing before with
  | done => simp
  | @skip offset slice after rest rule lexemes takes skips _ ih =>
    rw [← List.append_assoc]
    exact ih _ (by rw [Text.byteLength_append, start])
  | @token offset slice after rest rule lexemes kind payload takes gives value _ ih =>
    rw [← List.append_assoc]
    refine List.forall_mem_cons.mpr ⟨?_, ih _ (by rw [Text.byteLength_append, start])⟩
    refine ⟨before, slice, after, rule, rfl, takes.ne_nil, ?_, takes, gives, value, ?_⟩
    · rw [start]
    · exact ofText_slice takes gives value

theorem Munch.covers (before : List Char) (munch : Munch (byteLength before) text lexemes [])
    (place : Nat) (least : byteLength before ≤ place)
    (most : place < byteLength before + byteLength text) :
    (∃ lexeme ∈ lexemes, lexeme.span.start ≤ place ∧ place < lexeme.span.stop) ∨
      ∃ start stop, SkippedBetween (before ++ text) lexemes start stop ∧
        byteLength before ≤ start ∧ start ≤ place ∧ place < stop := by
  generalize first : byteLength before = offset at munch
  generalize nothing : [] = rest at munch
  induction munch generalizing before with
  | done =>
    subst nothing
    rw [Text.byteLength_nil] at most
    omega
  | @skip offset slice after rest rule lexemes takes skips munch ih =>
    have joined : byteLength (before ++ slice) = offset + byteLength slice := by
      rw [Text.byteLength_append, first]
    rw [Text.byteLength_append] at most
    rw [← List.append_assoc]
    by_cases inside : place < offset + byteLength slice
    · refine .inr ⟨offset, offset + byteLength slice, ⟨?_, fun lexeme member => ?_⟩, ?_⟩
      · exact ⟨before, slice, after, rfl, takes.skipped skips, first.symm, by rw [first]⟩
      · exact .inr (munch.bounds.2 lexeme member).1
      · exact ⟨first ▸ Nat.le_refl _, first ▸ least, inside⟩
    · rcases ih _ (by omega) (by omega) joined nothing with covered | ⟨start, stop, between, above⟩
      · exact .inl covered
      · exact .inr ⟨start, stop, between, by omega, above.2⟩
  | @token offset slice after rest rule lexemes kind payload takes gives value munch ih =>
    have joined : byteLength (before ++ slice) = offset + byteLength slice := by
      rw [Text.byteLength_append, first]
    rw [Text.byteLength_append] at most
    rw [← List.append_assoc]
    by_cases inside : place < offset + byteLength slice
    · exact .inl ⟨_, List.mem_cons_self, first ▸ least, inside⟩
    · rcases ih _ (by omega) (by omega) joined nothing with
        ⟨lexeme, member, within⟩ | ⟨start, stop, ⟨skipped, apart⟩, above⟩
      · exact .inl ⟨lexeme, List.mem_cons_of_mem _ member, within⟩
      · have clear : offset + byteLength slice ≤ start := joined ▸ above.1
        refine .inr ⟨start, stop, ⟨skipped, ?_⟩, by omega, above.2⟩
        exact List.forall_mem_cons.mpr ⟨.inl clear, apart⟩

end Places

/-- A text has lexemes exactly if it can be cut to its end. Then they stand in it one behind the
    other, and what is not theirs is skipped. It has an error at a place exactly if the cutting is
    blocked there, and the text before that place has the lexemes that were cut off. -/
theorem ofText_munches (text : List Char) :
    (∀ lexemes, ofText text = .ok lexemes ↔ Munch 0 text lexemes []) ∧
    (∀ lexemes, ofText text = .ok lexemes →
      lexemes.Pairwise (·.span.stop ≤ ·.span.start) ∧
      (∀ lexeme ∈ lexemes, lexeme.span.start < lexeme.span.stop ∧ lexeme.StandsIn text) ∧
      ∀ place < byteLength text,
        (∃ lexeme ∈ lexemes, lexeme.span.start ≤ place ∧ place < lexeme.span.stop) ∨
          ∃ start stop, SkippedBetween text lexemes start stop ∧ start ≤ place ∧ place < stop) ∧
    ∀ place, (∃ e, ofText text = .error e ∧ e.span.start = place) ↔
      ∃ before rest lexemes, text = before ++ rest ∧ place = byteLength before ∧
        Munch 0 text lexemes rest ∧ Blocked rest ∧ ofText before = .ok lexemes := by
  refine ⟨fun lexemes => ⟨munch_of_ofText, Munch.ofText_eq⟩, fun lexemes found => ?_,
    fun place => ?_⟩
  · have munch := munch_of_ofText found
    obtain ⟨ordered, bounds⟩ := munch.bounds
    refine ⟨ordered, fun lexeme member => ⟨(bounds lexeme member).2, ?_⟩, fun place most => ?_⟩
    · exact munch.standsIn [] lexeme member
    · rcases munch.covers [] place (Nat.zero_le _) (by simpa using most) with
        covered | ⟨start, stop, between, -, within⟩
      · exact .inl covered
      · exact .inr ⟨start, stop, between, within⟩
  · constructor
    · rintro ⟨e, failed, rfl⟩
      obtain ⟨lexemes, rest, munch, blocked⟩ := blocked_of_ofText failed
      obtain ⟨before, e', same, early, failed', start⟩ := munch.ofText_blocked blocked
      rw [failed] at failed'
      cases failed'
      exact ⟨before, rest, lexemes, same, start, munch, blocked, early⟩
    · rintro ⟨before, rest, lexemes, rfl, rfl, munch, blocked, -⟩
      obtain ⟨before', e, same, -, failed, start⟩ := munch.ofText_blocked blocked
      exact ⟨e, failed, by rw [start, List.append_cancel_right same]⟩

end Lexeme

end MonkeyLang
