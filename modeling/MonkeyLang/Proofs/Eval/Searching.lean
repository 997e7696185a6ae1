import Mathlib.Algebra.BigOperators.Intervals
import Mathlib.Order.Interval.Finset.Nat
import MonkeyLang.Proofs.Eval.ArrayCalls

namespace MonkeyLang

theorem countP_eq_card {α : Type} (p : α → Bool) (d : α) (xs : List α) :
    xs.countP p = ((Finset.range xs.length).filter fun i => p (xs.getD i d) = true).card := by
  induction xs with
  | nil => rfl
  | cons x rest ih =>
    rw [List.countP_cons, ih, Finset.card_filter, Finset.card_filter, List.length_cons,
      Finset.sum_range_succ']
    rfl

namespace Store

variable {s t u : Store} {R : Value → Value → Prop} {a b : Value}

section Kept

variable (before : ∀ id ∈ s.handles, t.members id = s.members id)
  (after : ∀ id ∈ s.handles, u.members id = s.members id) (sound : s.Sound)

include before after sound

theorem Agrees.among (here : a.Live s) (there : b.Live s) (agrees : t.Agrees R a b) :
    u.Agrees (fun x y => R x y ∧ x.Live s ∧ y.Live s) a b := by
  refine agrees.imp ?_ ?_
  · rintro x y rfl rfl related
    exact ⟨related, here, there⟩
  · rintro x y rfl rfl members
    rw [before x here, before y there] at members
    obtain ⟨sizes, related⟩ := List.forall₂_iff_zip.mp members
    rw [after x here, after y there]
    refine List.forall₂_iff_zip.mpr ⟨sizes, fun pair => ⟨related pair, ?_, ?_⟩⟩
    · exact sound.mem_toList (List.of_mem_zip pair).1
    · exact sound.mem_toList (List.of_mem_zip pair).2

theorem IsEquality.among (equality : t.IsEquality R) :
    u.IsEquality fun x y => R x y ∧ x.Live s ∧ y.Live s :=
  fun x y ⟨related, here, there⟩ => (equality x y related).among before after sound here there

end Kept

theorem valuesEqual_of_kept (kept : ∀ id ∈ s.handles, t.members id = s.members id)
    (sound : s.Sound) (here : a.Live s) (there : b.Live s) :
    t.valuesEqual a b = s.valuesEqual a b := by
  have same : ∀ id ∈ s.handles, s.members id = s.members id := fun _ _ => rfl
  have onward := (isEquality_valuesEqual s).among same kept sound
  have backward := (isEquality_valuesEqual t).among kept same sound
  exact Bool.eq_iff_iff.mpr ⟨fun equal => backward.valuesEqual ⟨equal, here, there⟩,
    fun equal => onward.valuesEqual ⟨equal, here, there⟩⟩

end Store

/-- What is found of a value in an array: how often it is there, whether it is there at all, and
    where it is first. -/
@[ext]
structure Findings where
  count : Nat
  included : Bool
  place : Option Nat

namespace Store

variable (s : Store) (id : ArrayId) (needle : Value)

def placesOf : Finset Nat :=
  (Finset.range (s.members id).size).filter fun place =>
    s.valuesEqual ((s.members id).getD place .nil) needle = true

def findings : Findings :=
  ⟨ArrayMethod.occurrences s id needle, ArrayMethod.isMember s id needle,
    ArrayMethod.position? s id needle⟩

end Store

namespace Findings

structure Answered (f : Findings) (enter : Enter) (line : Nat) (scope : FrameId) (s : Store)
    (id : ArrayId) (needle : Value) : Prop where
  count : (ArrayMethod.dispatch enter line scope "count" id [needle]).runIn s =
    (.ok (.int (.ofNat f.count)), s)
  includes : (ArrayMethod.dispatch enter line scope "includes" id [needle]).runIn s =
    (.ok (.bool f.included), s)
  index : (ArrayMethod.dispatch enter line scope "index" id [needle]).runIn s =
    (.ok (f.place.elim .nil fun place => .int (.ofNat place)), s)

structure Tell (f : Findings) (places : Finset Nat) : Prop where
  count : f.count = places.card
  included_iff_place : f.included = true ↔ f.place ≠ none
  included_iff_count : f.included = true ↔ 0 < f.count
  first : ∀ place, f.place = some place ↔ place ∈ places ∧ ∀ other ∈ places, place ≤ other
  nowhere : f.place = none ↔ places = ∅

theorem Tell.unique {f g : Findings} {places : Finset Nat} (told : f.Tell places)
    (told' : g.Tell places) : f = g := by
  have place : f.place = g.place :=
    Option.ext fun place => (told.first place).trans (told'.first place).symm
  have included : f.included = g.included := by
    rw [Bool.eq_iff_iff, told.included_iff_place, told'.included_iff_place, place]
  exact Findings.ext (told.count.trans told'.count.symm) included place

def Words (f : Findings) : Prop :=
  (Int64.ofNat f.count).toInt = f.count ∧
    ∀ place, f.place = some place → (Int64.ofNat place).toInt = place

/-- What is found in two arrays one behind the other, from what is found in each, the first of them
    being of some size. -/
def joined (f : Findings) (size : Nat) (g : Findings) : Findings where
  count := f.count + g.count
  included := f.included || g.included
  place := f.place.or (g.place.map (size + ·))

end Findings

namespace Store

section Found

variable (s : Store) (id : ArrayId) (needle : Value)

theorem mem_placesOf {place : Nat} : place ∈ s.placesOf id needle ↔
    ∃ inside : place < (s.members id).size,
      s.valuesEqual (s.members id)[place] needle = true := by
  rw [placesOf, Finset.mem_filter, Finset.mem_range]
  constructor
  · rintro ⟨inside, equal⟩
    rw [Array.getD_eq_getD_getElem?, Array.getElem?_eq_getElem inside, Option.getD_some] at equal
    exact ⟨inside, equal⟩
  · rintro ⟨inside, equal⟩
    refine ⟨inside, ?_⟩
    rwa [Array.getD_eq_getD_getElem?, Array.getElem?_eq_getElem inside, Option.getD_some]

theorem occurrences_eq_card :
    ArrayMethod.occurrences s id needle = (s.placesOf id needle).card := by
  rw [ArrayMethod.occurrences, ← Array.countP_toList,
    countP_eq_card (s.valuesEqual · needle) .nil, Array.length_toList, placesOf]
  simp only [List.getD_eq_getElem?_getD, Array.getElem?_toList, Array.getD_eq_getD_getElem?]

theorem isMember_iff :
    ArrayMethod.isMember s id needle = true ↔ (s.placesOf id needle).Nonempty := by
  rw [ArrayMethod.isMember, Array.any_eq_true]
  exact exists_congr fun place => (mem_placesOf s id needle).symm

theorem position?_eq_some_iff {place : Nat} : ArrayMethod.position? s id needle = some place ↔
    place ∈ s.placesOf id needle ∧ ∀ other ∈ s.placesOf id needle, place ≤ other := by
  rw [ArrayMethod.position?, Array.findIdx?_eq_some_iff_getElem, mem_placesOf]
  constructor
  · rintro ⟨inside, equal, before⟩
    refine ⟨⟨inside, equal⟩, fun other member => ?_⟩
    obtain ⟨_, equal'⟩ := (mem_placesOf s id needle).mp member
    exact Nat.le_of_not_lt fun less => before other less equal'
  · rintro ⟨⟨inside, equal⟩, least⟩
    refine ⟨inside, equal, fun other less equal' => ?_⟩
    exact Nat.not_le_of_lt less (least other ((mem_placesOf s id needle).mpr ⟨_, equal'⟩))

theorem position?_eq_none_iff :
    ArrayMethod.position? s id needle = none ↔ s.placesOf id needle = ∅ := by
  constructor
  · intro none
    refine Finset.not_nonempty_iff_eq_empty.mp fun some => ?_
    have found := (position?_eq_some_iff s id needle).mpr
      ⟨Finset.min'_mem _ some, fun other member => Finset.min'_le _ other member⟩
    cases none.symm.trans found
  · intro empty
    refine Option.eq_none_iff_forall_ne_some.mpr fun place found => ?_
    have member := ((position?_eq_some_iff s id needle).mp found).1
    rw [empty] at member
    exact Finset.notMem_empty place member

theorem findings_tell : (s.findings id needle).Tell (s.placesOf id needle) where
  count := occurrences_eq_card s id needle
  included_iff_place := by
    rw [Ne, findings, position?_eq_none_iff, isMember_iff, Finset.nonempty_iff_ne_empty]
  included_iff_count := by
    rw [findings, occurrences_eq_card, isMember_iff, Finset.card_pos]
  first _ := position?_eq_some_iff s id needle
  nowhere := position?_eq_none_iff s id needle

theorem findings_answered (enter : Enter) (line : Nat) (scope : FrameId) :
    (s.findings id needle).Answered enter line scope s id needle where
  count := rfl
  includes := rfl
  index := by
    change (ArrayMethod.index.run enter line scope id [needle]).runIn s = _
    simp only [ArrayMethod.run, Eval.runIn_bind, Eval.runIn_read, List.headD_cons, findings]
    cases ArrayMethod.position? s id needle <;> rfl

theorem findings_words (fits : (s.members id).size < 2 ^ 63) : (s.findings id needle).Words := by
  have few : ArrayMethod.occurrences s id needle ≤ (s.members id).size := Array.countP_le_size
  refine ⟨Int64.toInt_ofNat_of_lt (Nat.lt_of_le_of_lt few fits), fun place found => ?_⟩
  have member := ((position?_eq_some_iff s id needle).mp found).1
  obtain ⟨inside, -⟩ := (mem_placesOf s id needle).mp member
  exact Int64.toInt_ofNat_of_lt (Nat.lt_trans inside fits)

theorem findings_joined {first second whole : ArrayId}
    (split : s.members whole = s.members first ++ s.members second) :
    s.findings whole needle = (s.findings first needle).joined (s.members first).size
      (s.findings second needle) := by
  simp only [findings, Findings.joined, ArrayMethod.occurrences, ArrayMethod.isMember,
    ArrayMethod.position?, split, Array.countP_append, Array.any_append, Array.findIdx?_append,
    Nat.add_comm (s.members first).size]

end Found

section Merged

variable {s : Store} {needle : Value}

theorem placesOf_of_kept {t : Store} (kept : ∀ id ∈ s.handles, t.members id = s.members id)
    (sound : s.Sound) (live : needle.Live s) {id : ArrayId} (there : id ∈ s.handles) :
    t.placesOf id needle = s.placesOf id needle := by
  rw [placesOf, placesOf, kept id there]
  refine Finset.filter_congr fun place _ => ?_
  have member : ((s.members id).getD place .nil).Live s := sound.getD trivial id place
  rw [valuesEqual_of_kept kept sound member live]

theorem findings_of_kept {t : Store} (kept : ∀ id ∈ s.handles, t.members id = s.members id)
    (sound : s.Sound) (live : needle.Live s) {id : ArrayId} (there : id ∈ s.handles) :
    t.findings id needle = s.findings id needle := by
  have found : (t.findings id needle).Tell (t.placesOf id needle) := t.findings_tell id needle
  rw [placesOf_of_kept kept sound live there] at found
  exact found.unique (s.findings_tell id needle)

end Merged

end Store

namespace ArrayMethod

/-- In every array, the three methods tell of the places where a value is: of their number, of
    whether there is any, and of the first. In the array that `merge` makes they tell of the places
    in both arrays, and in the two they tell what they did before. -/
theorem searches_agree (enter : Enter) (line : Nat) (scope : FrameId) (s : Store) (needle : Value) :
    (∀ id, (s.findings id needle).Answered enter line scope s id needle ∧
      (s.findings id needle).Tell (s.placesOf id needle) ∧
      ((s.members id).size < 2 ^ 63 → (s.findings id needle).Words)) ∧
    ∀ a ∈ s.handles, ∀ b ∈ s.handles, ∃ m t,
      (dispatch enter line scope "merge" a [.array b]).runIn s = (.ok (.array m), t) ∧
      (t.findings m needle).Answered enter line scope t m needle ∧
      t.findings m needle =
        (t.findings a needle).joined (s.members a).size (t.findings b needle) ∧
      (s.Sound → needle.Live s → ∀ id ∈ s.handles, t.findings id needle = s.findings id needle) := by
  refine ⟨fun id => ⟨s.findings_answered id needle enter line scope, s.findings_tell id needle,
    s.findings_words id needle⟩, fun a hereA b hereB => ?_⟩
  let t := (s.alloc (s.members a ++ s.members b)).2
  have kept : ∀ id ∈ s.handles, t.members id = s.members id := by
    intro id there
    rw [Store.members_alloc, if_neg (Nat.ne_of_lt (Store.mem_handles.mp there))]
  have whole : t.members ⟨s.arrays.size⟩ = t.members a ++ t.members b := by
    rw [Store.members_alloc, if_pos rfl, kept a hereA, kept b hereB]
  refine ⟨⟨s.arrays.size⟩, t, rfl, t.findings_answered _ needle enter line scope, ?_,
    fun sound live id there => Store.findings_of_kept kept sound live there⟩
  rw [← kept a hereA]
  exact t.findings_joined needle whole

section Tangled

open Store (tangled tangled_sound mem_handles)

theorem tangled_findings : tangled.findings ⟨0⟩ (.int 1) = ⟨1, true, some 0⟩ ∧
    tangled.findings ⟨1⟩ (.int 1) = ⟨0, false, none⟩ := by
  have found (s : Store) : s.valuesEqual (.int 1) (.int 1) = true := by
    simp [Store.valuesEqual, Store.allEqual, Value.comparison, Value.scalarsEqual?]
  have other (s : Store) (id : ArrayId) : s.valuesEqual (.array id) (.int 1) = false := by
    simp [Store.valuesEqual, Store.allEqual, Value.comparison, Value.scalarsEqual?,
      Value.structuralComparison]
  constructor <;>
    simp [Store.findings, occurrences, isMember, position?, Store.members, tangled, found, other]

/-- The number that is only in the second array is behind the two members of the first one. -/
theorem searches_agree_tangled :
    ⟨1⟩ ∈ tangled.handles ∧ ⟨0⟩ ∈ tangled.handles ∧ tangled.Sound ∧
      (Value.int 1).Live tangled ∧ ∃ m t,
        (dispatch enterFirst 1 Store.globals "merge" ⟨1⟩ [.array ⟨0⟩]).runIn tangled =
          (.ok (.array m), t) ∧
        t.findings m (.int 1) = ⟨1, true, some 2⟩ := by
  have first : ⟨1⟩ ∈ tangled.handles := mem_handles.mpr (by decide)
  have second : ⟨0⟩ ∈ tangled.handles := mem_handles.mpr (by decide)
  obtain ⟨-, merged⟩ := searches_agree enterFirst 1 Store.globals tangled (.int 1)
  obtain ⟨m, t, made, -, joined, before⟩ := merged ⟨1⟩ first ⟨0⟩ second
  refine ⟨first, second, tangled_sound, trivial, m, t, made, ?_⟩
  rw [joined, before tangled_sound trivial ⟨1⟩ first, before tangled_sound trivial ⟨0⟩ second,
    tangled_findings.1, tangled_findings.2]
  rfl

end Tangled

end ArrayMethod

end MonkeyLang
