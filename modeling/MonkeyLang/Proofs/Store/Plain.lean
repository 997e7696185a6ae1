import MonkeyLang.Proofs.Store.Loading

namespace MonkeyLang

/-- Not a `return` on its way out. -/
def Value.Plain (v : Value) : Prop := v.isReturned = false

/-- A result of evaluation: plain, or one `return` around a plain value. -/
def Value.Result (v : Value) : Prop := v.unwrap.Plain

namespace Value

theorem Plain.unwrap {v : Value} (plain : v.Plain) : v.unwrap = v := by
  cases v with
  | returned inner => cases plain
  | _ => rfl

theorem Plain.result {v : Value} (plain : v.Plain) : v.Result := by
  rw [Result, plain.unwrap]
  exact plain

end Value

namespace Store

structure Plain (s : Store) : Prop where
  members : ∀ id, ∀ v ∈ s.members id, v.Plain
  bindings : ∀ id, ∀ binding ∈ (s.frame id).bindings, binding.2.Plain

theorem Holds.plain {s : Store} (holds : s.Holds Value.Plain) : s.Plain :=
  ⟨holds.members, holds.bindings⟩

theorem plain_initial : initial.Plain := (holds_initial Value.Plain).plain

namespace Plain

variable {s : Store} (plain : s.Plain)

include plain

theorem holds : s.Holds Value.Plain := ⟨plain.members, plain.bindings⟩

theorem mem_toList {id : ArrayId} {v : Value} (member : v ∈ (s.members id).toList) : v.Plain :=
  plain.holds.mem_toList member

theorem getD (id : ArrayId) (i : Nat) : ((s.members id).getD i .nil).Plain :=
  plain.holds.getD rfl id i

theorem get? {id : FrameId} {name : String} {v : Value} (found : s.get? id name = some v) :
    v.Plain :=
  plain.holds.get? found

theorem child (parent : FrameId) : (s.child parent).2.Plain := (plain.holds.child parent).plain

theorem define {v : Value} (value : v.Plain) (id : FrameId) (name : String) :
    (s.define id name v).Plain :=
  (plain.holds.define value id name).plain

theorem close (params : List String) (body : Expr) (scope : FrameId) (lines : LineIndex) :
    (s.close params body scope lines).2.Plain :=
  (plain.holds.close params body scope lines).plain

theorem alloc {values : Array Value} (members : ∀ v ∈ values, v.Plain) :
    (s.alloc values).2.Plain :=
  (plain.holds.alloc members).plain

theorem modify {id : ArrayId} {f : Array Value → Array Value}
    (members : ∀ v ∈ f (s.members id), v.Plain) : (s.modify id f).Plain :=
  (plain.holds.modify members).plain

end Plain

theorem map_ne_error {ε α β : Type} {f : α → β} {result : Except ε α} {e : ε}
    (ne : result ≠ .error e) : result.map f ≠ .error e := by
  cases result with
  | ok a => simp [Except.map]
  | error other => exact fun same => ne (congrArg Except.error (Except.error.inj same))

theorem Plain.membersJson_ne_escapedReturn {s : Store} (plain : s.Plain) (path : List ArrayId)
    (values : List Value) (start : ∀ v ∈ values, v.Plain) :
    Unfolding.membersJson (s.unfoldAll path values) ≠ .error .escapedReturn := by
  induction path, values using unfoldAll.induct s fun path value =>
    value.Plain → (s.unfoldIn path value).json ≠ .error .escapedReturn with
  | case1 path n start | case2 path n start | case4 path t start | case5 path b start
  | case6 path start | case7 path c start =>
    rw [unfoldIn, Unfolding.json]
    simp
  | case3 path x start =>
    rw [unfoldIn, Unfolding.json]
    split <;> simp
  | case8 path inner ih start => cases start
  | case9 path id met start =>
    rw [unfoldIn, if_pos met, Unfolding.json]
    simp
  | case10 path id fresh ih start =>
    rw [unfoldIn, if_neg fresh, Unfolding.json]
    exact map_ne_error (ih fun v member => plain.mem_toList member)
  | case11 path =>
    rw [unfoldAll, Unfolding.membersJson]
    simp
  | case12 path value rest here later =>
    rw [List.forall_mem_cons] at start
    rw [unfoldAll, Unfolding.membersJson]
    have first := here start.1
    split
    · rename_i fault found
      intro same
      exact first (found.trans (congrArg Except.error (Except.error.inj same)))
    · exact map_ne_error (later start.2)

theorem Plain.encode_ne_escapedReturn {s : Store} (plain : s.Plain) {values : List Value}
    (start : ∀ v ∈ values, v.Plain) : s.encode values ≠ .error .escapedReturn := by
  simp only [encode]
  split
  · simp
  · exact map_ne_error (plain.membersJson_ne_escapedReturn [] values start)

end Store

theorem Value.plain_of_flat {v : Value} {tree : Unfolding} (alone : v.flat? = some tree) :
    v.Plain := by
  cases v with
  | returned => cases alone
  | _ => rfl

theorem Value.ofData_plain : OfData Plain := ⟨fun _ _ alone => plain_of_flat alone, fun _ => rfl⟩

theorem Store.Plain.decode {s t : Store} {id : ArrayId} {text : List Char} (plain : s.Plain)
    (decoded : s.decode text = .ok (id, t)) : t.Plain :=
  (plain.holds.decode Value.ofData_plain decoded).plain

end MonkeyLang
