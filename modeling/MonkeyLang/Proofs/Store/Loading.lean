import MonkeyLang.Proofs.Store.Handles
import MonkeyLang.Proofs.Store.Unfolding

namespace MonkeyLang

/-- The property of values holds of handles and of all values that hold no other one. -/
structure Value.OfData (P : Value → Prop) : Prop where
  flat : ∀ (v : Value) (tree : Unfolding), v.flat? = some tree → P v
  array : ∀ id, P (.array id)

namespace Store

theorem flat?_wholeValue (n : Int) : ∃ tree, (Json.wholeValue n).flat? = some tree := by
  unfold Json.wholeValue
  split <;> exact ⟨_, rfl⟩

mutual

theorem Holds.load {P : Value → Prop} (data : Value.OfData P) {s t : Store} {v : Value}
    (holds : s.Holds P) (json : Json) (loaded : Json.load s json = .ok (v, t)) :
    P v ∧ t.Holds P := by
  cases json with
  | null | bool _ | float _ | str _ =>
    cases loaded
    exact ⟨data.flat _ _ rfl, holds⟩
  | int n =>
    cases loaded
    obtain ⟨tree, alone⟩ := flat?_wholeValue n
    exact ⟨data.flat _ tree alone, holds⟩
  | list items =>
    rw [Json.load] at loaded
    split at loaded
    · cases loaded
    · rename_i members u found
      cases loaded
      obtain ⟨inside, kept⟩ := Holds.loadAll data holds items found
      exact ⟨data.array _, kept.alloc (by simpa using inside)⟩
  | object _ => cases loaded

theorem Holds.loadAll {P : Value → Prop} (data : Value.OfData P) {s t : Store}
    {values : List Value} (holds : s.Holds P) (items : List Json)
    (loaded : Json.loadAll s items = .ok (values, t)) : (∀ v ∈ values, P v) ∧ t.Holds P := by
  cases items with
  | nil =>
    cases loaded
    exact ⟨by simp, holds⟩
  | cons item rest =>
    rw [Json.loadAll] at loaded
    split at loaded
    · cases loaded
    · rename_i value u first
      obtain ⟨here, between⟩ := Holds.load data holds item first
      split at loaded
      · cases loaded
      · rename_i others w later
        cases loaded
        obtain ⟨inside, kept⟩ := Holds.loadAll data between rest later
        exact ⟨List.forall_mem_cons.mpr ⟨here, inside⟩, kept⟩

end

theorem Holds.decode {P : Value → Prop} (data : Value.OfData P) {s t : Store} {id : ArrayId}
    {text : List Char} (holds : s.Holds P) (decoded : s.decode text = .ok (id, t)) :
    t.Holds P := by
  unfold Store.decode at decoded
  split at decoded
  · cases decoded
  · cases decoded
    exact holds.alloc (by simp)
  · rename_i items found
    split at decoded
    · cases decoded
    · rename_i members u loaded
      cases decoded
      obtain ⟨inside, kept⟩ := Holds.loadAll data holds items loaded
      exact kept.alloc (by simpa using inside)
  · cases decoded

end Store

end MonkeyLang
