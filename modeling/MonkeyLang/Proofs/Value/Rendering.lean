import Mathlib
import MonkeyLang.Proofs.Store.Cycles
import MonkeyLang.Proofs.Store.Plain
import MonkeyLang.Proofs.Value.Display

namespace MonkeyLang

def Value.content : Value → Value
  | returned v => v.content
  | v => v

/-- The text of a value without members. A string stands in quotes inside arrays only. -/
def Value.shown? (inner : Bool) : Value → Option (List Char)
  | int n => some (toString n.toInt).toList
  | uint n => some (toString n.toNat).toList
  | float x => some (Layout.display.text x)
  | str t => some (if inner then Text.quoted t.toList else t.toList)
  | bool b => some (toString b).toList
  | nil => some "nil".toList
  | closure c => some ("fn(".toList ++ commaSeparated (c.params.map String.toList) ++ [')'])
  | array _ | returned _ => none

def Unfolding.textAt (inner : Bool) (tree : Unfolding) : List Char :=
  if inner then tree.memberText else tree.text

namespace Store

/-- What stands at a place in a value: the place is the number of a member, then of a member of that
    one, and so on. -/
def occurrence? (s : Store) : Value → List Nat → Option Value
  | v, [] => some v
  | .array id, k :: place => (s.members id)[k]?.bind fun member => s.occurrence? member place
  | _, _ :: _ => none

def Encloses (s : Store) (v : Value) (place : List Nat) (id : ArrayId) : Prop :=
  ∃ front k rest, place = front ++ k :: rest ∧ s.occurrence? v front = some (.array id)

/-- `s.Displays v depth place text`: what stands at the place in `v` is written as the text, with
    at most so many brackets open at a time. -/
inductive Displays (s : Store) (v : Value) : Nat → List Nat → List Char → Prop
  | flat {depth : Nat} {place : List Nat} {w : Value} {text : List Char}
      (here : s.occurrence? v place = some w) (shown : w.shown? (!place.isEmpty) = some text) :
      Displays s v depth place text
  | again {depth : Nat} {place : List Nat} {id : ArrayId}
      (here : s.occurrence? v place = some (.array id)) (inside : s.Encloses v place id) :
      Displays s v depth place "[...]".toList
  | array {depth : Nat} {place : List Nat} {id : ArrayId} {texts : List (List Char)}
      (here : s.occurrence? v place = some (.array id)) (outside : ¬s.Encloses v place id)
      (all : texts.length = (s.members id).size)
      (each : ∀ k text, texts[k]? = some text → Displays s v depth (place ++ [k]) text) :
      Displays s v (depth + 1) place ('[' :: commaSeparated texts ++ [']'])

/-- The text of a value with every array in full, wherever it stands. -/
inductive Renders (s : Store) : Bool → Value → List Char → Prop
  | flat {inner : Bool} {v : Value} {text : List Char} (shown : v.shown? inner = some text) :
      Renders s inner v text
  | array {inner : Bool} {id : ArrayId} {texts : List (List Char)}
      (all : texts.length = (s.members id).size)
      (each : ∀ (k : Nat) (member : Value) (text : List Char), (s.members id)[k]? = some member →
        texts[k]? = some text → Renders s true member text) :
      Renders s inner (.array id) ('[' :: commaSeparated texts ++ [']'])

variable {s : Store}

section Texts

theorem text_content (v : Value) : s.text v = s.text v.content := by
  induction v with
  | returned v ih =>
    rw [Value.content, ← ih, text, unfold, unfoldIn, Unfolding.text]
    rfl
  | _ => rfl

theorem content_plain (v : Value) : v.content.Plain := by
  induction v with
  | returned v ih => exact ih
  | _ => rfl

theorem shown?_eq {v : Value} (plain : v.Plain) (single : ∀ id, v ≠ .array id) (inner : Bool)
    (path : List ArrayId) : v.shown? inner = some ((s.unfoldIn path v).textAt inner) := by
  cases v with
  | array id => exact absurd rfl (single id)
  | returned v => cases plain
  | _ =>
    rw [unfoldIn]
    cases inner <;> simp [Value.shown?, Unfolding.textAt, Unfolding.memberText, Unfolding.text]

theorem textAt_array (inner : Bool) (trees : List Unfolding) : (Unfolding.array trees).textAt inner =
    '[' :: commaSeparated (trees.map (·.textAt true)) ++ [']'] := by
  have texts : trees.map (·.textAt true) = trees.map Unfolding.memberText := rfl
  rw [texts, ← Unfolding.memberTexts_eq]
  cases inner <;> simp [Unfolding.textAt, Unfolding.memberText, Unfolding.text]

theorem unfoldAll_eq_map (path : List ArrayId) (values : List Value) :
    s.unfoldAll path values = values.map (s.unfoldIn path) := by
  induction values with
  | nil => rw [unfoldAll, List.map_nil]
  | cons v rest ih => rw [unfoldAll, ih, List.map_cons]

end Texts

section Places

variable {v w : Value} {place : List Nat} {id : ArrayId} {k : Nat}

theorem occurrence?_concat (here : s.occurrence? v place = some (.array id)) (k : Nat) :
    s.occurrence? v (place ++ [k]) = (s.members id)[k]? := by
  induction place generalizing v with
  | nil =>
    cases here
    rw [List.nil_append, occurrence?]
    cases (s.members id)[k]? <;> simp [occurrence?]
  | cons j place ih =>
    cases v with
    | array outer =>
      rw [occurrence?] at here
      obtain ⟨member, held, here⟩ := Option.bind_eq_some_iff.mp here
      rw [List.cons_append, occurrence?, held, Option.bind_some, ih here]
    | _ => cases here

theorem encloses_concat {outer : ArrayId} (here : s.occurrence? v place = some (.array outer)) :
    s.Encloses v (place ++ [k]) id ↔ id = outer ∨ s.Encloses v place id := by
  constructor
  · rintro ⟨front, j, rest, same, found⟩
    rcases List.eq_nil_or_concat rest with rfl | ⟨rest, last, rfl⟩
    · obtain ⟨rfl, -⟩ := List.append_inj' same rfl
      rw [here] at found
      cases found
      exact .inl rfl
    · rw [List.concat_eq_append, ← List.cons_append, ← List.append_assoc] at same
      obtain ⟨rfl, -⟩ := List.append_inj' same rfl
      exact .inr ⟨front, j, rest, rfl, found⟩
  · rintro (rfl | ⟨front, j, rest, rfl, found⟩)
    · exact ⟨place, k, [], rfl, here⟩
    · exact ⟨front, j, rest ++ [k], by simp, found⟩

theorem not_encloses_nil : ¬s.Encloses v [] id := by
  rintro ⟨front, k, rest, same, -⟩
  simp at same

end Places

section Displaying

variable {v : Value}

theorem Displays.unique {depth depth' : Nat} {place : List Nat} {text other : List Char}
    (displays : s.Displays v depth place text) (again : s.Displays v depth' place other) :
    text = other := by
  induction displays generalizing depth' other with
  | flat here shown =>
    cases again with
    | flat here' shown' =>
      cases here.symm.trans here'
      exact Option.some.inj (shown.symm.trans shown')
    | again here' | array here' =>
      cases here.symm.trans here'
      cases shown
  | again here inside =>
    cases again with
    | flat here' shown =>
      cases here.symm.trans here'
      cases shown
    | again => rfl
    | array here' outside =>
      cases here.symm.trans here'
      exact absurd inside outside
  | @array depth place id texts here outside all each ih =>
    cases again with
    | flat here' shown =>
      cases here.symm.trans here'
      cases shown
    | again here' inside =>
      cases here.symm.trans here'
      exact absurd inside outside
    | @array _ _ _ texts' here' _ all' each' =>
      cases here.symm.trans here'
      have same : texts = texts' := by
        refine List.ext_getElem (all.trans all'.symm) fun k inside inside' => ?_
        exact ih k _ (List.getElem?_eq_getElem inside) (each' k _ (List.getElem?_eq_getElem inside'))
      rw [same]

structure StandsAt (s : Store) (v : Value) (place : List Nat) (path : List ArrayId) (w : Value) :
    Prop where
  here : s.occurrence? v place = some w
  path : ∀ id, id ∈ path ↔ s.Encloses v place id

theorem StandsAt.member {place : List Nat} {path : List ArrayId} {id : ArrayId} {w : Value} {k : Nat}
    (stands : s.StandsAt v place path (.array id)) (held : (s.members id)[k]? = some w) :
    s.StandsAt v (place ++ [k]) (id :: path) w where
  here := (occurrence?_concat stands.here k).trans held
  path other := by rw [List.mem_cons, encloses_concat stands.here, stands.path]

/-- A path has no array twice and only arrays that are reached, so that there is room for one more
    pair of brackets as long as an array is met that is not on the path. -/
theorem displays_unfoldIn (plain : ∀ id, ∀ v ∈ s.members id, v.Plain) (v : Value)
    {ids : List ArrayId} (path : List ArrayId) (values : List Value) :
    ∀ w ∈ values, ∀ place, s.StandsAt v place path w → w.Plain → path.Nodup → path ⊆ ids →
      (∀ id, s.Reaches [w] (.array id) → id ∈ ids) →
      s.Displays v (ids.length - path.length) place
        ((s.unfoldIn path w).textAt (!place.isEmpty)) := by
  have single {path : List ArrayId} {w : Value} (none : ∀ id, w ≠ .array id) {place : List Nat}
      (stands : s.StandsAt v place path w) (flat : w.Plain) :
      s.Displays v (ids.length - path.length) place
        ((s.unfoldIn path w).textAt (!place.isEmpty)) :=
    .flat stands.here (shown?_eq flat none _ path)
  induction path, values using unfoldAll.induct s fun path w =>
    ∀ place, s.StandsAt v place path w → w.Plain → path.Nodup → path ⊆ ids →
      (∀ id, s.Reaches [w] (.array id) → id ∈ ids) →
      s.Displays v (ids.length - path.length) place
        ((s.unfoldIn path w).textAt (!place.isEmpty)) with
  | case1 path _ place stands flat | case2 path _ place stands flat
  | case3 path _ place stands flat | case4 path _ place stands flat
  | case5 path _ place stands flat | case6 path place stands flat
  | case7 path _ place stands flat => exact single (by simp) stands flat
  | case8 path _ _ place _ flat => cases flat
  | case9 path id met place stands =>
    rw [unfoldIn, if_pos met]
    have mark : Unfolding.again.textAt (!place.isEmpty) = "[...]".toList := by
      cases place <;> rfl
    rw [mark]
    exact .again stands.here ((stands.path id).mp met)
  | case10 path id fresh ih place stands _ distinct known reached =>
    have more : id :: path ⊆ ids :=
      List.cons_subset.mpr ⟨reached id (.here List.mem_cons_self), known⟩
    have distinct : (id :: path).Nodup := List.nodup_cons.mpr ⟨fresh, distinct⟩
    have room : ids.length - path.length = ids.length - (id :: path).length + 1 := by
      have fits := (List.subperm_of_subset distinct more).length_le
      rw [List.length_cons] at fits ⊢
      omega
    rw [unfoldIn, if_neg fresh, textAt_array, unfoldAll_eq_map, List.map_map, room]
    refine .array stands.here (fun inside => fresh ((stands.path id).mpr inside)) (by simp) ?_
    intro k text found
    rw [List.getElem?_map] at found
    obtain ⟨member, held, rfl⟩ := Option.map_eq_some_iff.mp found
    have among := List.mem_of_getElem? held
    have below (other : ArrayId) (inner : s.Reaches [member] (.array other)) : other ∈ ids := by
      refine reached other (.trans (.here List.mem_cons_self) (inner.mono ?_))
      simpa using among
    have shown := ih member among (place ++ [k]) (stands.member (by simpa using held))
      (plain id member (by simpa using among)) distinct more below
    have inside : (!(place ++ [k]).isEmpty) = true := by cases place <;> rfl
    rwa [inside] at shown
  | case11 path => simp
  | case12 path w rest here later =>
    exact List.forall_mem_cons.mpr ⟨here, later⟩

end Displaying

section Rendering

theorem repeats_of_mem {trees : List Unfolding} (once : Unfolding.anyRepeats trees = false)
    {tree : Unfolding} (member : tree ∈ trees) : tree.repeats = false := by
  induction trees with
  | nil => cases member
  | cons first rest ih =>
    rw [Unfolding.anyRepeats, Bool.or_eq_false_iff] at once
    rcases List.mem_cons.mp member with rfl | member
    · exact once.1
    · exact ih once.2 member

variable {v : Value} {inner : Bool} {text other : List Char}

theorem Renders.unique (renders : s.Renders inner v text) (again : s.Renders inner v other) :
    text = other := by
  induction renders generalizing other with
  | flat shown =>
    cases again with
    | flat shown' => exact Option.some.inj (shown.symm.trans shown')
    | array => cases shown
  | @array inner id texts all each ih =>
    cases again with
    | flat shown => cases shown
    | @array _ _ texts' all' each' =>
      have same : texts = texts' := by
        refine List.ext_getElem (all.trans all'.symm) fun k inside inside' => ?_
        have room : k < (s.members id).size := all ▸ inside
        have member := Array.getElem?_eq_getElem room
        exact ih k _ _ member (List.getElem?_eq_getElem inside)
          (each' k _ _ member (List.getElem?_eq_getElem inside'))
      rw [same]

theorem Renders.not_onCycle (renders : s.Renders inner v text) :
    ∀ id, s.Reaches [v] (.array id) → ¬s.OnCycle id := by
  induction renders with
  | flat shown =>
    intro id reached
    rcases reaches_single.mp reached with rfl | ⟨outer, rfl, -⟩ <;> cases shown
  | @array inner id texts all each ih =>
    have within {other : ArrayId} (inside : s.Reaches (s.members id).toList (.array other)) :
        ¬s.OnCycle other := by
      obtain ⟨member, among, reached⟩ := inside.exists_first
      obtain ⟨k, held⟩ := List.mem_iff_getElem?.mp among
      rw [Array.getElem?_toList] at held
      obtain ⟨room, -⟩ := Array.getElem?_eq_some_iff.mp held
      exact ih k member _ held (List.getElem?_eq_getElem (all ▸ room)) other reached
    intro other reached
    rcases reaches_single.mp reached with same | ⟨_, same, inside⟩
    -- On a cycle the array would be among what its members reach.
    · cases same
      exact fun cycle => within cycle cycle
    · cases same
      exact within inside

theorem renders_unfoldIn (plain : ∀ id, ∀ v ∈ s.members id, v.Plain) (path : List ArrayId)
    (values : List Value) : ∀ w ∈ values, w.Plain → (s.unfoldIn path w).repeats = false →
      ∀ inner, s.Renders inner w ((s.unfoldIn path w).textAt inner) := by
  induction path, values using unfoldAll.induct s fun path w =>
    w.Plain → (s.unfoldIn path w).repeats = false →
      ∀ inner, s.Renders inner w ((s.unfoldIn path w).textAt inner) with
  | case1 path _ flat _ inner | case2 path _ flat _ inner | case3 path _ flat _ inner
  | case4 path _ flat _ inner | case5 path _ flat _ inner | case6 path flat _ inner
  | case7 path _ flat _ inner => exact .flat (shown?_eq flat (by simp) inner path)
  | case8 path _ _ flat => cases flat
  | case9 path id met _ once =>
    rw [unfoldIn, if_pos met] at once
    cases once
  | case10 path id fresh ih _ once inner =>
    rw [unfoldIn, if_neg fresh, unfoldAll_eq_map] at once ⊢
    rw [textAt_array, List.map_map]
    refine .array (by simp) fun k member text held found => ?_
    rw [← Array.getElem?_toList] at held
    rw [List.getElem?_map, held] at found
    cases found
    have among := List.mem_of_getElem? held
    refine ih member among (plain id member (by simpa using among)) ?_ true
    exact repeats_of_mem once (List.mem_map_of_mem among)
  | case11 path => simp
  | case12 path w rest here later => exact List.forall_mem_cons.mpr ⟨here, later⟩

end Rendering

theorem exists_reached (s : Store) (values : List Value) :
    ∃ ids : List ArrayId, ids.Nodup ∧ ∀ id, id ∈ ids ↔ s.Reaches values (.array id) := by
  have held {v : Value} (reached : s.Reaches values v) :
      v ∈ values ++ s.arrays.toList.flatMap Array.toList := by
    cases reached with
    | here member => exact List.mem_append_left _ member
    | @inside id _ _ member =>
      refine List.mem_append_right _ (List.mem_flatMap.mpr ⟨s.members id, ?_, member⟩)
      by_cases room : id.index < s.arrays.size
      · simp [members, Array.getD, room]
      · simp [members, Array.getD, room] at member
  have finite : {id | s.Reaches values (.array id)}.Finite :=
    ((List.finite_toSet (values ++ s.arrays.toList.flatMap Array.toList)).preimage
      (Function.Injective.injOn fun _ _ => Value.array.inj)).subset fun _ => held
  exact ⟨finite.toFinset.toList, Finset.nodup_toList _, by simp⟩

/-- The text of a value is the only one that displays it, and opens at most as many brackets at a
    time as there are arrays that the value reaches. Where no array that is reached contains itself,
    and only there, the value can be written in full, and its text is what is written then. -/
theorem text_displays (s : Store) (plain : ∀ id, ∀ v ∈ s.members id, v.Plain) (v : Value) :
    (∀ depth text, s.Displays v.content depth [] text → text = s.text v) ∧
    (∃ ids : List ArrayId, ids.Nodup ∧ (∀ id, id ∈ ids ↔ s.Reaches [v.content] (.array id)) ∧
      s.Displays v.content ids.length [] (s.text v)) ∧
    (∀ text, s.Renders false v.content text → text = s.text v) ∧
    ((∃ text, s.Renders false v.content text) ↔
      ∀ id, s.Reaches [v.content] (.array id) → ¬s.OnCycle id) := by
  obtain ⟨ids, distinct, reached⟩ := s.exists_reached [v.content]
  have displayed : s.Displays v.content ids.length [] (s.text v) := by
    have stands : s.StandsAt v.content [] [] v.content :=
      ⟨rfl, fun id => iff_of_false (by simp) not_encloses_nil⟩
    have shown := displays_unfoldIn plain v.content [] [v.content] _ List.mem_cons_self [] stands
      (content_plain v) .nil (List.nil_subset ids) fun id => (reached id).mpr
    rw [text_content]
    exact shown
  have rendered (acyclic : ∀ id, s.Reaches [v.content] (.array id) → ¬s.OnCycle id) :
      s.Renders false v.content (s.text v) := by
    have once : Unfolding.anyRepeats (s.unfoldAll [] [v.content]) = false :=
      eq_false_of_ne_true fun repeats =>
        let ⟨id, reached, cycle⟩ := exists_onCycle [] _ (by simp [Leads]) repeats
        acyclic id reached cycle
    rw [unfoldAll_eq_map] at once
    rw [text_content]
    exact renders_unfoldIn plain [] [v.content] _ List.mem_cons_self (content_plain v)
      (repeats_of_mem once List.mem_cons_self) false
  refine ⟨fun depth text displays => displays.unique displayed, ⟨ids, distinct, reached, displayed⟩,
    fun text renders => renders.unique (rendered renders.not_onCycle), ?_⟩
  exact ⟨fun ⟨text, renders⟩ => renders.not_onCycle, fun acyclic => ⟨_, rendered acyclic⟩⟩

def knotted : Store := ⟨#[], #[#[.int 1, .array ⟨0⟩]], 0, ""⟩

theorem text_displays_knotted :
    (∀ depth text, knotted.Displays (.array ⟨0⟩) depth [] text → text = "[1, [...]]".toList) ∧
      (∃ depth, knotted.Displays (.array ⟨0⟩) depth [] "[1, [...]]".toList) ∧
      ¬∃ text, knotted.Renders false (.array ⟨0⟩) text := by
  have plain : ∀ id, ∀ v ∈ knotted.members id, v.Plain := by
    intro id v member
    by_cases first : id.index < 1
    · have held : v ∈ #[Value.int 1, .array ⟨0⟩] := by
        simpa [members, knotted, Array.getD, first] using member
      simp only [List.mem_toArray, List.mem_cons, List.not_mem_nil, or_false] at held
      rcases held with rfl | rfl <;> rfl
    · simp [members, knotted, Array.getD, first] at member
  have text : knotted.text (.array ⟨0⟩) = "[1, [...]]".toList := by cbv
  obtain ⟨unique, ⟨ids, -, -, displays⟩, -, rendered⟩ := knotted.text_displays plain (.array ⟨0⟩)
  rw [text] at unique displays
  refine ⟨unique, ⟨_, displays⟩, fun renders => ?_⟩
  have cycle : knotted.OnCycle ⟨0⟩ := .here (by simp [members, knotted])
  exact rendered.mp renders ⟨0⟩ (.here List.mem_cons_self) cycle

end Store

end MonkeyLang
