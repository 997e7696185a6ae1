import MonkeyLang.Proofs.Eval.Sound
import MonkeyLang.Proofs.Grammar.Derivation
import MonkeyLang.Proofs.Value.Display
import MonkeyLang.Proofs.Value.Equality

namespace MonkeyLang

section Running

theorem Reads.run {text : List Char} {tree : Unfolding} (reads : Reads text tree) (s : Store) :
    ∃ w new handles, s.run text = (.ok w, s.grow new) ∧
      (s.grow new).Unfolds [w] [tree] handles := by
  obtain ⟨e, cuts, makes⟩ := reads.cuts 0 [] (fun c rest same => nomatch same)
  let program : Tree (.nonterminal .program) :=
    .node .program (.cons (.node .tailBody (.cons e .nil)) .nil)
  have derived : Tree.ofLexemes e.lexemes = .ok program :=
    Tree.ofLexemes_eq_ok_iff.mpr (by simp [program])
  have value : program.value = ⟨[tailStatement e.value]⟩ := by simp [program, Production.value]
  have parsed : Program.ofText text = .ok ⟨[tailStatement e.value]⟩ := by
    rw [Program.ofText, cuts.ofText_eq]
    dsimp only
    rw [Program.ofLexemes, derived, ← value]
    rfl
  obtain ⟨w, new, handles, ran, unfolds, -⟩ :=
    makes enterFirst (LineIndex.ofText text) Store.globals s
  refine ⟨w, new, handles, ?_, unfolds⟩
  have whole : (Program.eval (LineIndex.ofText text) ⟨[tailStatement e.value]⟩).runIn s =
      (.ok w, s.grow new) := by
    rw [Program.eval, evalBody, tailStatement, Stmt.eval, Eval.runIn_bind_ok ran, unfolds.unwrap]
    rfl
  rw [Store.run, parsed]
  dsimp only
  rw [whole]

end Running

section Equality

theorem Value.flat?_ne_array (a : Value) (trees : List Unfolding) :
    a.flat? ≠ some (.array trees) := by
  cases a <;> exact fun same => nomatch same

theorem Value.flat?_injective {a b : Value} {tree : Unfolding} (first : a.flat? = some tree)
    (second : b.flat? = some tree) : a = b := by
  cases a <;> cases first <;> cases b <;> cases second <;> rfl

namespace Store

/-- The values have the same tree, all of it with literals. -/
def Alike (s : Store) (a b : Value) : Prop :=
  ∃ tree handles handles', tree.Literal ∧ s.Unfolds [a] [tree] handles ∧
    s.Unfolds [b] [tree] handles'

variable {s : Store} {values values' : List Value} {trees : List Unfolding}
  {handles handles' : List ArrayId}

theorem agrees_flat {R : Value → Value → Prop} {a b : Value} {tree : Unfolding}
    (literal : tree.Literal) (first : a.flat? = some tree) (second : b.flat? = some tree) :
    s.Agrees R a b := by
  obtain rfl := Value.flat?_injective first second
  cases a with
  | int n => exact .int n
  | float x =>
    cases first
    cases literal with
    | float fractional => exact .float fractional.beq_self
  | str t => exact .str t
  | bool b => exact .bool b
  | nil => exact .nil
  | uint n =>
    cases first
    cases literal
  | array | closure | returned => cases first

theorem alike_members (first : s.Unfolds values trees handles)
    (second : s.Unfolds values' trees handles') (literal : ∀ tree ∈ trees, tree.Literal) :
    List.Forall₂ s.Alike values values' := by
  induction first generalizing values' handles' with
  | nil =>
    cases second
    exact .nil
  | flat alone _ ih =>
    obtain ⟨here, later⟩ := List.forall_mem_cons.mp literal
    cases second with
    | flat alone' rest' =>
      exact .cons ⟨_, [], [], here, .flat alone .nil, .flat alone' .nil⟩ (ih rest' later)
    | array => exact absurd alone (Value.flat?_ne_array _ _)
  | array members _ _ ih =>
    obtain ⟨here, later⟩ := List.forall_mem_cons.mp literal
    cases second with
    | flat alone' _ => exact absurd alone' (Value.flat?_ne_array _ _)
    | array members' rest' =>
      exact .cons ⟨_, _, _, here, members.single, members'.single⟩ (ih rest' later)

theorem isEquality_alike (s : Store) : s.IsEquality s.Alike := by
  rintro a b ⟨tree, handles, handles', literal, first, second⟩
  cases first with
  | flat alone _ =>
    cases second with
    | flat alone' _ => exact agrees_flat literal alone alone'
    | array => exact absurd alone (Value.flat?_ne_array _ _)
  | array members _ =>
    cases second with
    | flat alone' _ => exact absurd alone' (Value.flat?_ne_array _ _)
    | array members' _ =>
      cases literal with
      | array all => exact .arrays (alike_members members members' all)

end Store

theorem Unfolding.membersJson_of_each {trees : List Unfolding}
    (each : ∀ tree ∈ trees, ∃ item, tree.json = .ok item) :
    ∃ items, membersJson trees = .ok items := by
  induction trees with
  | nil => exact ⟨[], rfl⟩
  | cons tree rest ih =>
    obtain ⟨⟨item, here⟩, later⟩ := List.forall_mem_cons.mp each
    obtain ⟨items, there⟩ := ih later
    exact ⟨item :: items, by rw [membersJson, here, there]; rfl⟩

theorem Unfolding.Literal.json {tree : Unfolding} (literal : tree.Literal) :
    ∃ item, tree.json = .ok item := by
  induction literal with
  | float fractional =>
    rw [Unfolding.json, if_pos fractional.isFinite]
    exact ⟨_, rfl⟩
  | int | str | bool | nil => exact ⟨_, rfl⟩
  | array _ each =>
    obtain ⟨items, written⟩ := membersJson_of_each each
    rw [Unfolding.json, written]
    exact ⟨_, rfl⟩

theorem Store.exists_unfolds {s : Store} {id : ArrayId}
    (literal : (s.unfold (.array id)).Literal) :
    ∃ handles, s.Unfolds [.array id] [s.unfold (.array id)] handles := by
  obtain ⟨item, written⟩ := literal.json
  have whole : s.unfoldAll [] [.array id] = [s.unfold (.array id)] := by
    rw [unfoldAll, unfoldAll, unfold]
  rw [← whole]
  refine s.unfolds_of_membersJson [] [.array id] ⟨[item], ?_⟩
  rw [whole, Unfolding.membersJson, written]
  rfl

end Equality

section RoundTrip

/-- No session leaves a dangling handle in its store. In a store without any, the text of an array
    that does not contain itself and has a literal for all else in it runs without an error; the
    value is equal to the array, and nothing is done but that arrays are added. In any other store
    the value has the same tree. -/
theorem Store.run_text :
    (∀ texts, (session texts).Sound) ∧
    ∀ s : Store, s.Sound → ∀ id ∈ s.handles, (s.unfold (.array id)).Literal →
      (∃ w new, s.run (s.text (.array id)) = (.ok w, s.grow new) ∧
        (s.grow new).valuesEqual w (.array id) = true) ∧
      ∀ t : Store, ∃ w new handles, t.run (s.text (.array id)) = (.ok w, t.grow new) ∧
        (t.grow new).Unfolds [w] [s.unfold (.array id)] handles := by
  refine ⟨session_sound, fun s sound id inside literal => ?_⟩
  have reads : Reads (s.text (.array id)) (s.unfold (.array id)) := by
    have tree : s.unfold (.array id) = .array (s.unfoldAll [id] (s.members id).toList) := by
      rw [unfold, unfoldIn, if_neg List.not_mem_nil]
    rw [text, tree]
    rw [tree] at literal
    exact literal.reads
  refine ⟨?_, reads.run⟩
  obtain ⟨w, new, handles, ran, made⟩ := reads.run s
  obtain ⟨own, unfolds⟩ := exists_unfolds literal
  have live := unfolds.mem_handles sound (List.forall_mem_singleton.mpr inside)
  have kept := unfolds.mono fun other member =>
    s.members_grow new (mem_handles.mp (live other member))
  exact ⟨w, new, ran, (isEquality_alike _).valuesEqual ⟨_, _, _, literal, made, kept⟩⟩

def Store.nested : Store :=
  ((initial.alloc #[.int (-2), .str "a\n", .nil]).2.alloc #[.array ⟨0⟩, .bool true, .array ⟨0⟩]).2

theorem Store.nested_unfold : nested.unfold (.array ⟨1⟩) =
    .array [.array [.int (-2), .str "a\n", .nil], .bool true,
      .array [.int (-2), .str "a\n", .nil]] := by
  simp [nested, initial, alloc, members, unfold, unfoldAll, unfoldIn]

theorem Store.nested_text :
    nested.text (.array ⟨1⟩) = "[[-2, \"a\\n\", nil], true, [-2, \"a\\n\", nil]]".toList := by
  have number : (Int.repr (-2)).toList = ['-', '2'] := Json.toString_toList (-2)
  have word : (toString true).toList = ['t', 'r', 'u', 'e'] := rfl
  rw [text, nested_unfold]
  simp [Unfolding.text, Unfolding.memberTexts, commaSeparated, Text.quoted, Text.quotedChar,
    number, word]

/-- An array that stands twice in another one comes back as two arrays. -/
theorem Store.run_nested_text : ∃ w new,
    nested.run "[[-2, \"a\\n\", nil], true, [-2, \"a\\n\", nil]]".toList =
      (.ok w, nested.grow new) ∧ (nested.grow new).valuesEqual w (.array ⟨1⟩) = true := by
  have sound : nested.Sound := by
    obtain ⟨first, made⟩ :=
      sound_initial.alloc #[.int (-2), .str "a\n", .nil] (by simp [Value.Live])
    change (Value.array ⟨0⟩).Live _ at made
    exact (first.sound.alloc _ (by simpa [Value.Live] using made)).1.sound
  have literal : (nested.unfold (.array ⟨1⟩)).Literal := by
    have number : (-2 : Int64) ≠ Int64.minValue := by decide
    have shown : ∀ c ∈ "a\n".toList, Text.Shown c := by
      simp [Text.Shown, Text.quotedChar]
    have inner : (Unfolding.array [.int (-2), .str "a\n", .nil]).Literal :=
      .array (by simp [Unfolding.Literal.int number, Unfolding.Literal.str shown,
        Unfolding.Literal.nil])
    rw [nested_unfold]
    exact .array (by simp [inner, Unfolding.Literal.bool])
  rw [← nested_text]
  exact (run_text.2 nested sound ⟨1⟩ (by decide) literal).1

end RoundTrip

end MonkeyLang
