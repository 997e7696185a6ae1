import Mathlib.Data.List.Forall2
import MonkeyLang.Proofs.Store.Cycles
import MonkeyLang.Proofs.Store.Plain
import MonkeyLang.Value.Display

namespace MonkeyLang

inductive Value.Formless : Value → Prop
  | closure (c : Closure) : Formless (.closure c)
  | returned (v : Value) : Formless (.returned v)
  | nonFinite {x : Float} (infinite : x.isFinite = false) : Formless (.float x)

namespace Store

inductive Unwritable (s : Store) : Value → Prop
  | onCycle {id : ArrayId} (cycle : s.OnCycle id) : Unwritable s (.array id)
  | formless {v : Value} (formless : v.Formless) : Unwritable s v

/-- What is written for values one after the other. Arrays are written in full wherever they are, so
    nothing is written for one that contains itself. -/
inductive Writes (s : Store) : List Value → Except EncodeFault (List Json) → Prop
  | nil : Writes s [] (.ok [])
  | flat {v : Value} {values : List Value} {tree : Unfolding} {item : Json}
      {result : Except EncodeFault (List Json)} (alone : v.flat? = some tree)
      (here : tree.json = .ok item) (rest : Writes s values result) :
      Writes s (v :: values) (result.map (item :: ·))
  | array {id : ArrayId} {values : List Value} {items : List Json}
      {result : Except EncodeFault (List Json)} (inside : Writes s (s.members id).toList (.ok items))
      (rest : Writes s values result) :
      Writes s (.array id :: values) (result.map (Unfolding.listJson items :: ·))
  | nested {id : ArrayId} {values : List Value} {fault : EncodeFault}
      (inside : Writes s (s.members id).toList (.error fault)) :
      Writes s (.array id :: values) (.error fault)
  | nonFinite {x : Float} {values : List Value} (infinite : x.isFinite = false) :
      Writes s (.float x :: values) (.error (.nonFinite x))
  | closure (c : Closure) (values : List Value) :
      Writes s (.closure c :: values) (.error .functionValue)
  | returned (v : Value) (values : List Value) :
      Writes s (.returned v :: values) (.error .escapedReturn)

namespace Writes

variable {s : Store} {values : List Value} {result other : Except EncodeFault (List Json)}

theorem unique (writes : s.Writes values result) (again : s.Writes values other) :
    result = other := by
  induction writes generalizing other with
  | nil =>
    cases again
    rfl
  | flat alone here _ ih =>
    cases again with
    | flat alone' here' rest =>
      cases alone.symm.trans alone'
      cases here.symm.trans here'
      rw [ih rest]
    | nonFinite infinite =>
      cases alone
      rw [Unfolding.json, infinite] at here
      cases here
    | array | nested | closure | returned => cases alone
  | array _ _ inside later =>
    cases again with
    | flat alone => cases alone
    | array members rest =>
      cases inside members
      rw [later rest]
    | nested members => cases inside members
  | nested _ inside =>
    cases again with
    | flat alone => cases alone
    | array members => cases inside members
    | nested members => exact inside members
  | nonFinite infinite =>
    cases again with
    | flat alone here =>
      cases alone
      rw [Unfolding.json, infinite] at here
      cases here
    | nonFinite => rfl
  | closure =>
    cases again with
    | flat alone => cases alone
    | closure => rfl
  | returned =>
    cases again with
    | flat alone => cases alone
    | returned => rfl

theorem exists_formless_cons {v : Value}
    (none : ∀ w, w = v ∨ (∃ id, v = .array id ∧ s.Reaches (s.members id).toList w) → ¬w.Formless) :
    (∃ w, s.Reaches (v :: values) w ∧ w.Formless) ↔ ∃ w, s.Reaches values w ∧ w.Formless := by
  constructor
  · rintro ⟨w, reached, formless⟩
    rcases reaches_cons.mp reached with same | inner | later
    · exact absurd formless (none w (.inl same))
    · exact absurd formless (none w (.inr inner))
    · exact ⟨w, later, formless⟩
  · rintro ⟨w, reached, formless⟩
    exact ⟨w, reaches_cons.mpr (.inr (.inr reached)), formless⟩

theorem map_error_iff {α β : Type} {f : α → β} {result : Except EncodeFault α} :
    (∃ fault, result.map f = .error fault) ↔ ∃ fault, result = .error fault := by
  cases result <;> simp [Except.map]

theorem error_iff (writes : s.Writes values result) :
    (∃ fault, result = .error fault) ↔ ∃ v, s.Reaches values v ∧ v.Formless := by
  induction writes with
  | nil => simp [not_reaches_nil]
  | flat alone here rest ih =>
    refine map_error_iff.trans (ih.trans (exists_formless_cons ?_).symm)
    rintro w (rfl | ⟨id, rfl, _⟩) formless
    · cases formless with
      | closure | returned => cases alone
      | nonFinite infinite =>
        cases alone
        rw [Unfolding.json, infinite] at here
        cases here
    · cases alone
  | array inside rest within ih =>
    refine map_error_iff.trans (ih.trans (exists_formless_cons ?_).symm)
    rintro w (rfl | ⟨id, same, inner⟩) formless
    · cases formless
    · cases same
      obtain ⟨fault, failed⟩ := within.mpr ⟨w, inner, formless⟩
      cases failed
  | @nested id values fault inside within =>
    obtain ⟨w, reached, formless⟩ := within.mp ⟨fault, rfl⟩
    exact iff_of_true ⟨fault, rfl⟩ ⟨w, reaches_cons.mpr (.inr (.inl ⟨id, rfl, reached⟩)), formless⟩
  | nonFinite infinite =>
    exact iff_of_true ⟨_, rfl⟩ ⟨_, .here List.mem_cons_self, .nonFinite infinite⟩
  | closure c => exact iff_of_true ⟨_, rfl⟩ ⟨_, .here List.mem_cons_self, .closure c⟩
  | returned v => exact iff_of_true ⟨_, rfl⟩ ⟨_, .here List.mem_cons_self, .returned v⟩

theorem ne_containsItself (writes : s.Writes values result) : result ≠ .error .containsItself := by
  induction writes with
  | flat _ _ _ ih | array _ _ _ ih => exact map_ne_error ih
  | nested _ ih => exact ih
  | nil | nonFinite | closure | returned => simp

theorem places {items : List Json} (writes : s.Writes values (.ok items)) :
    List.Forall₂ (fun v item => ∀ id, v = .array id → ∃ inner,
      s.Writes (s.members id).toList (.ok inner) ∧ item = Unfolding.listJson inner)
      values items := by
  generalize same : Except.ok items = result at writes
  induction writes generalizing items with
  | nil =>
    cases same
    exact .nil
  | flat alone _ _ ih =>
    obtain ⟨rest, rfl, rfl⟩ := Unfolding.map_eq_ok same.symm
    refine .cons (fun id array => ?_) (ih rfl)
    subst array
    cases alone
  | array inside _ _ ih =>
    obtain ⟨rest, rfl, rfl⟩ := Unfolding.map_eq_ok same.symm
    refine .cons (fun id array => ?_) (ih rfl)
    cases array
    exact ⟨_, inside, rfl⟩
  | nested | nonFinite | closure | returned => cases same

end Writes

theorem writes_unfoldAll (s : Store) (path : List ArrayId) (values : List Value)
    (once : Unfolding.anyRepeats (s.unfoldAll path values) = false) :
    s.Writes values (Unfolding.membersJson (s.unfoldAll path values)) := by
  induction path, values using unfoldAll.induct s fun path value =>
    (s.unfoldIn path value).repeats = false → ∀ rest result, s.Writes rest result →
      s.Writes (value :: rest)
        ((s.unfoldIn path value).json.bind fun item => result.map (item :: ·)) with
  | case1 path _ once rest result later | case2 path _ once rest result later
  | case4 path _ once rest result later | case5 path _ once rest result later
  | case6 path once rest result later =>
    rw [unfoldIn]
    exact .flat rfl rfl later
  | case3 path x once rest result later =>
    rw [unfoldIn, Unfolding.json]
    cases finite : x.isFinite with
    | true => exact .flat rfl (by rw [Unfolding.json, finite]; rfl) later
    | false => exact .nonFinite finite
  | case7 path c once rest result later =>
    rw [unfoldIn]
    exact .closure c rest
  | case8 path v ih once rest result later =>
    rw [unfoldIn]
    exact .returned v rest
  | case9 path id met once =>
    rw [unfoldIn, if_pos met] at once
    cases once
  | case10 path id fresh ih once rest result later =>
    rw [unfoldIn, if_neg fresh] at once ⊢
    rw [Unfolding.json]
    have inside := ih once
    generalize Unfolding.membersJson (s.unfoldAll (id :: path) (s.members id).toList) = written
      at inside
    cases written with
    | ok items => exact .array inside later
    | error fault => exact .nested inside
  | case11 path =>
    rw [unfoldAll]
    exact .nil
  | case12 path value rest here later =>
    rw [unfoldAll, Unfolding.anyRepeats, Bool.or_eq_false_iff] at once
    have whole := here once.1 rest _ (later once.2)
    rw [unfoldAll, Unfolding.membersJson]
    cases first : (s.unfoldIn path value).json with
    | ok item => rwa [first] at whole
    | error fault => rwa [first] at whole

theorem encode_eq (s : Store) (values : List Value) :
    (∃ id, s.Reaches values (.array id) ∧ s.OnCycle id) ∧
        s.encode values = .error .containsItself ∨
      (∀ id, s.Reaches values (.array id) → ¬s.OnCycle id) ∧
        ∃ result, s.Writes values result ∧
          s.encode values = result.map fun items => (Unfolding.listJson items).text := by
  have leads : s.Leads [] values := by simp [Leads]
  rw [encode]
  cases repeats : Unfolding.anyRepeats (s.unfoldAll [] values) with
  | true => exact .inl ⟨(anyRepeats_iff leads).mp repeats, if_pos rfl⟩
  | false =>
    exact .inr ⟨not_onCycle [] values repeats, _, s.writes_unfoldAll [] values repeats,
      if_neg Bool.false_ne_true⟩

end Store

inductive Piece
  | mark
  | chars (text : List Char)

def Piece.text : Piece → List Char
  | mark => "[...]".toList
  | chars text => text

namespace Unfolding

def commaPieces : List (List Piece) → List Piece
  | [] => []
  | [pieces] => pieces
  | pieces :: rest => pieces ++ .chars [',', ' '] :: commaPieces rest

mutual

def pieces : Unfolding → List Piece
  | array members => .chars ['['] :: commaPieces (memberPieces members) ++ [.chars [']']]
  | again => [.mark]
  | returned value => value.pieces
  | tree => [.chars tree.text]

def memberPieces : List Unfolding → List (List Piece)
  | [] => []
  | str s :: rest => [.chars (Text.quoted s.toList)] :: memberPieces rest
  | member :: rest => member.pieces :: memberPieces rest

end

theorem text_commaPieces (parts : List (List Piece)) :
    (commaPieces parts).flatMap Piece.text =
      commaSeparated (parts.map fun pieces => pieces.flatMap Piece.text) := by
  fun_induction commaPieces parts with
  | case1 => rfl
  | case2 pieces => rfl
  | case3 pieces rest more ih =>
    obtain ⟨next, others, rfl⟩ := List.exists_cons_of_ne_nil more
    simp [commaSeparated, Piece.text, ih]

mutual

theorem text_pieces (tree : Unfolding) : tree.pieces.flatMap Piece.text = tree.text := by
  cases tree with
  | array members => simp [pieces, text, Piece.text, text_commaPieces, text_memberPieces members]
  | again => simp [pieces, text, Piece.text]
  | returned value => rw [pieces, text, text_pieces value]
  | int | uint | float | str | bool | nil | closure => simp [pieces, Piece.text]

theorem text_memberPieces (members : List Unfolding) :
    (memberPieces members).map (fun pieces => pieces.flatMap Piece.text) = memberTexts members := by
  cases members with
  | nil => rfl
  | cons member rest =>
    cases member with
    | str s => simp [memberPieces, memberTexts, Piece.text, text_memberPieces rest]
    | _ => simp [memberPieces, memberTexts, text_pieces, text_memberPieces rest]

end

theorem mark_mem_commaPieces {parts : List (List Piece)} :
    .mark ∈ commaPieces parts ↔ ∃ pieces ∈ parts, .mark ∈ pieces := by
  fun_induction commaPieces parts with
  | case1 => simp
  | case2 pieces => simp
  | case3 pieces rest _ ih => simp [ih]

theorem mark_mem_memberPieces {tree : Unfolding} {trees : List Unfolding} :
    (∃ pieces ∈ memberPieces (tree :: trees), .mark ∈ pieces) ↔
      .mark ∈ tree.pieces ∨ ∃ pieces ∈ memberPieces trees, .mark ∈ pieces := by
  cases tree with
  | str s => simp [memberPieces, pieces]
  | _ => simp [memberPieces]

end Unfolding

namespace Store

theorem mark_mem_iff {s : Store} (plain : ∀ id, ∀ v ∈ s.members id, v.Plain) (path : List ArrayId)
    (values : List Value) (start : ∀ v ∈ values, v.Plain) :
    (∃ pieces ∈ Unfolding.memberPieces (s.unfoldAll path values), .mark ∈ pieces) ↔
      Unfolding.anyRepeats (s.unfoldAll path values) = true := by
  induction path, values using unfoldAll.induct s fun path value =>
    value.Plain → (.mark ∈ (s.unfoldIn path value).pieces ↔
      (s.unfoldIn path value).repeats = true) with
  | case1 path _ start | case2 path _ start | case3 path _ start | case4 path _ start
  | case5 path _ start | case6 path start | case7 path _ start =>
    simp [unfoldIn, Unfolding.pieces, Unfolding.repeats]
  | case8 path v ih start => cases start
  | case9 path id met start => simp [unfoldIn, met, Unfolding.pieces, Unfolding.repeats]
  | case10 path id fresh ih start =>
    rw [unfoldIn, if_neg fresh]
    have inside := ih fun v member => plain id v (Array.mem_toList_iff.mp member)
    simpa [Unfolding.pieces, Unfolding.repeats, Unfolding.mark_mem_commaPieces] using inside
  | case11 path =>
    rw [unfoldAll]
    simp [Unfolding.memberPieces, Unfolding.anyRepeats]
  | case12 path value rest here later =>
    rw [List.forall_mem_cons] at start
    rw [unfoldAll, Unfolding.mark_mem_memberPieces, here start.1, later start.2,
      Unfolding.anyRepeats, Bool.or_eq_true]

end Store

def Json.listText : List (List Char) → List Char
  | [] => "null".toList
  | texts => '[' :: List.intercalate [','] texts ++ [']']

theorem Json.itemsThen_eq (items : List Json) (rest : List Char) :
    itemsThen items rest = List.intercalate [','] (items.map text) ++ rest := by
  induction items with
  | nil => simp [itemsThen]
  | cons item items ih =>
    cases items with
    | nil => simp [itemsThen, textThen_eq_text_append]
    | cons next items => simp [itemsThen, textThen_eq_text_append, ih]

theorem Unfolding.text_listJson (items : List Json) :
    (listJson items).text = Json.listText (items.map Json.text) := by
  cases items with
  | nil => rfl
  | cons item items =>
    rw [listJson, Json.text, Json.textThen]
    · simp [Json.itemsThen_eq, Json.listText]
    · simp

namespace Store

section Encode

variable {s : Store} {values : List Value}

theorem encode_of_writes {items : List Json}
    (once : ∀ id, s.Reaches values (.array id) → ¬s.OnCycle id)
    (writes : s.Writes values (.ok items)) :
    s.encode values = .ok (Unfolding.listJson items).text := by
  rcases s.encode_eq values with ⟨⟨id, reached, cycle⟩, _⟩ | ⟨_, result, writes', same⟩
  · exact absurd cycle (once id reached)
  · rw [same, writes'.unique writes]
    rfl

theorem encode_containsItself_iff :
    s.encode values = .error .containsItself ↔
      ∃ id, s.Reaches values (.array id) ∧ s.OnCycle id := by
  rcases s.encode_eq values with ⟨cycle, refused⟩ | ⟨once, result, writes, same⟩
  · exact iff_of_true refused cycle
  · refine iff_of_false (same ▸ map_ne_error writes.ne_containsItself) ?_
    rintro ⟨id, reached, cycle⟩
    exact once id reached cycle

theorem encode_error_iff :
    (∃ fault, s.encode values = .error fault) ↔ ∃ v, s.Reaches values v ∧ s.Unwritable v := by
  rcases s.encode_eq values with ⟨⟨id, reached, cycle⟩, refused⟩ | ⟨once, result, writes, same⟩
  · exact iff_of_true ⟨_, refused⟩ ⟨_, reached, .onCycle cycle⟩
  · rw [same, Writes.map_error_iff, writes.error_iff]
    constructor
    · rintro ⟨v, reached, formless⟩
      exact ⟨v, reached, .formless formless⟩
    · rintro ⟨v, reached, cycle | formless⟩
      · exact absurd cycle (once _ reached)
      · exact ⟨v, reached, formless⟩

theorem encode_places {text : List Char} (encoded : s.encode values = .ok text) :
    ∃ texts, text = Json.listText texts ∧
      List.Forall₂ (fun v t => ∀ id, v = .array id → s.encode (s.members id).toList = .ok t)
        values texts := by
  rcases s.encode_eq values with ⟨_, refused⟩ | ⟨once, result, writes, same⟩
  · cases encoded.symm.trans refused
  obtain ⟨items, rfl, rfl⟩ := Unfolding.map_eq_ok (same.symm.trans encoded)
  have inside (v : Value) (member : v ∈ values) (id : ArrayId) (array : v = .array id) :
      ∀ other, s.Reaches (s.members id).toList (.array other) → ¬s.OnCycle other :=
    fun other reached => once other (.trans (.here (array ▸ member)) reached)
  refine ⟨items.map Json.text, Unfolding.text_listJson items, List.forall₂_map_right_iff.mpr ?_⟩
  refine ((List.forall₂_and_left _ _).mpr ⟨inside, writes.places⟩).imp ?_
  rintro v item ⟨once, written⟩ id array
  obtain ⟨inner, writes, rfl⟩ := written id array
  exact encode_of_writes (once id array) writes

end Encode

/-- Values have a JSON text as an array exactly if they reach no array that contains itself, no
    function, no `return` and no infinite number; that an array contains itself is told exactly if
    they reach one. Otherwise writing all in full comes to an end with one result, and an array is
    written alike wherever it is. If no array of the store holds a `return`, the arrays that are
    told to contain themselves are those that the display writes with a mark. -/
theorem encode_refuses_cycles (s : Store) :
    (∀ values,
      ((∃ fault, s.encode values = .error fault) ↔ ∃ v, s.Reaches values v ∧ s.Unwritable v) ∧
      (s.encode values = .error .containsItself ↔
        ∃ id, s.Reaches values (.array id) ∧ s.OnCycle id) ∧
      (s.encode values ≠ .error .containsItself → ∃ result,
        (∀ other, s.Writes values other ↔ other = result) ∧
          s.encode values = result.map fun items => (Unfolding.listJson items).text) ∧
      ∀ text, s.encode values = .ok text → ∃ texts, text = Json.listText texts ∧
        List.Forall₂ (fun v t => ∀ id, v = .array id → s.encode (s.members id).toList = .ok t)
          values texts) ∧
    ((∀ id, ∀ v ∈ s.members id, v.Plain) → ∀ id,
      (s.unfold (.array id)).pieces.flatMap Piece.text = s.text (.array id) ∧
      (s.encode (s.members id).toList = .error .containsItself ↔
        .mark ∈ (s.unfold (.array id)).pieces)) := by
  refine ⟨fun values => ⟨encode_error_iff, encode_containsItself_iff, fun other => ?_,
    fun text => encode_places⟩, fun plain id => ⟨Unfolding.text_pieces _, ?_⟩⟩
  · rcases s.encode_eq values with ⟨_, refused⟩ | ⟨_, result, writes, same⟩
    · exact absurd refused other
    · exact ⟨result, fun _ => ⟨fun again => again.unique writes, fun eq => eq ▸ writes⟩, same⟩
  · have leads : s.Leads [id] (s.members id).toList := by
      intro outer member inner inside
      obtain rfl := List.mem_singleton.mp member
      exact .here inside
    have marked := mark_mem_iff plain [id] (s.members id).toList
      fun v member => plain id v (Array.mem_toList_iff.mp member)
    rw [encode_containsItself_iff, ← anyRepeats_iff leads, ← marked, unfold, unfoldIn,
      if_neg List.not_mem_nil]
    simp [Unfolding.pieces, Unfolding.mark_mem_commaPieces]

end Store

end MonkeyLang
