import MonkeyLang.Proofs.Store.Handles
import MonkeyLang.Proofs.Store.Unfolding

namespace MonkeyLang

def Value.Live (s : Store) : Value → Prop
  | array id => id ∈ s.handles
  | returned value => value.Live s
  | _ => True

namespace Value

variable {s t : Store}

theorem Live.mono (more : s.arrays.size ≤ t.arrays.size) {v : Value} (live : v.Live s) :
    v.Live t := by
  induction v with
  | array id => exact Store.mem_handles.mpr (Nat.lt_of_lt_of_le (Store.mem_handles.mp live) more)
  | returned value ih => exact ih live
  | _ => trivial

theorem Live.unwrap {v : Value} (live : v.Live s) : v.unwrap.Live s := by
  cases v with
  | returned value => exact live
  | _ => exact live

theorem live_wholeValue (n : Int) : (Json.wholeValue n).Live s := by
  unfold Json.wholeValue
  split <;> trivial

end Value

namespace Store

def Sound (s : Store) : Prop := s.Holds (Value.Live s)

/-- The second store has no dangling handles, and all arrays that the first one has. -/
structure Follows (s t : Store) : Prop where
  sound : t.Sound
  more : s.arrays.size ≤ t.arrays.size

theorem Follows.trans {s t u : Store} (first : s.Follows t) (later : t.Follows u) : s.Follows u :=
  ⟨later.sound, Nat.le_trans first.more later.more⟩

theorem sound_initial : initial.Sound := holds_initial _

namespace Sound

variable {s t : Store} (sound : s.Sound)

theorem of_holds (holds : t.Holds (Value.Live s)) (more : s.arrays.size ≤ t.arrays.size) :
    t.Sound :=
  holds.imp fun _ live => live.mono more

include sound

theorem refl : s.Follows s := ⟨sound, (Nat.le_refl _)⟩

theorem mem_toList {id : ArrayId} {v : Value} (member : v ∈ (s.members id).toList) : v.Live s :=
  sound.members id v (Array.mem_toList_iff.mp member)

theorem child (parent : FrameId) : s.Follows (s.child parent).2 :=
  ⟨of_holds (Holds.child sound parent) (Nat.le_refl _), (Nat.le_refl _)⟩

theorem define {v : Value} (value : v.Live s) (id : FrameId) (name : String) :
    s.Follows (s.define id name v) :=
  ⟨of_holds (Holds.define sound value id name) (Nat.le_refl _), (Nat.le_refl _)⟩

theorem close (params : List String) (body : Expr) (scope : FrameId) (lines : LineIndex) :
    s.Follows (s.close params body scope lines).2 :=
  ⟨of_holds (Holds.close sound params body scope lines) (Nat.le_refl _), (Nat.le_refl _)⟩

theorem alloc (values : Array Value) (members : ∀ v ∈ values, v.Live s) :
    s.Follows (s.alloc values).2 ∧ (Value.array (s.alloc values).1).Live (s.alloc values).2 := by
  have size : (s.alloc values).2.arrays.size = s.arrays.size + 1 := Array.size_push _
  have more : s.arrays.size ≤ (s.alloc values).2.arrays.size := by omega
  refine ⟨⟨of_holds (Holds.alloc sound members) more, more⟩, mem_handles.mpr ?_⟩
  rw [size]
  exact Nat.lt_succ_self _

theorem modify {id : ArrayId} {f : Array Value → Array Value}
    (members : ∀ v ∈ f (s.members id), v.Live s) : s.Follows (s.modify id f) := by
  have more : s.arrays.size ≤ (s.modify id f).arrays.size := Nat.le_of_eq Array.size_modify.symm
  exact ⟨of_holds (Holds.modify sound members) more, more⟩

end Sound

section Loading

mutual

theorem load_follows {s t : Store} {v : Value} (sound : s.Sound) (json : Json)
    (loaded : Json.load s json = .ok (v, t)) : s.Follows t ∧ v.Live t := by
  cases json with
  | null | bool _ | float _ | str _ =>
    cases loaded
    exact ⟨sound.refl, trivial⟩
  | int n =>
    cases loaded
    exact ⟨sound.refl, Value.live_wholeValue n⟩
  | list items =>
    rw [Json.load] at loaded
    split at loaded
    · cases loaded
    · rename_i members u found
      cases loaded
      obtain ⟨follows, live⟩ := loadAll_follows sound items found
      obtain ⟨grown, made⟩ := follows.sound.alloc members.toArray (by simpa using live)
      exact ⟨follows.trans grown, made⟩
  | object _ => cases loaded

theorem loadAll_follows {s t : Store} {values : List Value} (sound : s.Sound) (items : List Json)
    (loaded : Json.loadAll s items = .ok (values, t)) :
    s.Follows t ∧ ∀ v ∈ values, v.Live t := by
  cases items with
  | nil =>
    cases loaded
    exact ⟨sound.refl, by simp⟩
  | cons item rest =>
    rw [Json.loadAll] at loaded
    split at loaded
    · cases loaded
    · rename_i value u first
      obtain ⟨follows, here⟩ := load_follows sound item first
      split at loaded
      · cases loaded
      · rename_i others w later
        cases loaded
        obtain ⟨grown, live⟩ := loadAll_follows follows.sound rest later
        exact ⟨follows.trans grown, List.forall_mem_cons.mpr ⟨here.mono grown.more, live⟩⟩

end

theorem Sound.decode {s t : Store} {id : ArrayId} {text : List Char} (sound : s.Sound)
    (decoded : s.decode text = .ok (id, t)) : s.Follows t ∧ (Value.array id).Live t := by
  unfold Store.decode at decoded
  split at decoded
  · cases decoded
  · cases decoded
    exact sound.alloc #[] (by simp)
  · rename_i items found
    split at decoded
    · cases decoded
    · rename_i members u loaded
      cases decoded
      obtain ⟨follows, live⟩ := loadAll_follows sound items loaded
      obtain ⟨grown, made⟩ := follows.sound.alloc members.toArray (by simpa using live)
      exact ⟨follows.trans grown, made⟩
  · cases decoded

end Loading

theorem Unfolds.mem_handles {s : Store} {values : List Value} {trees : List Unfolding}
    {handles : List ArrayId} (unfolds : s.Unfolds values trees handles) (sound : s.Sound)
    (live : ∀ v ∈ values, v.Live s) : ∀ id ∈ handles, id ∈ s.handles := by
  induction unfolds with
  | nil => simp
  | flat _ _ ih => exact ih (List.forall_mem_cons.mp live).2
  | @array id _ _ _ within handles _ _ inside later =>
    obtain ⟨here, others⟩ := List.forall_mem_cons.mp live
    intro other member
    simp only [List.cons_append, List.mem_cons, List.mem_append] at member
    rcases member with rfl | within | after
    · exact here
    · exact inside (fun v => sound.mem_toList) other within
    · exact later others other after

end Store

end MonkeyLang
