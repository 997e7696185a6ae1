import MonkeyLang.Value.Codec

namespace MonkeyLang

/-- The tree of a value that holds no other one; function values have none. -/
def Value.flat? : Value → Option Unfolding
  | int n => some (.int n)
  | uint n => some (.uint n)
  | float x => some (.float x)
  | str t => some (.str t)
  | bool b => some (.bool b)
  | nil => some .nil
  | _ => none

namespace Unfolding

theorem map_eq_ok {ε α β : Type} {f : α → β} {result : Except ε α} {b : β}
    (mapped : result.map f = .ok b) : ∃ a, result = .ok a ∧ b = f a := by
  cases result with
  | ok a => exact ⟨a, rfl, (Except.ok.inj mapped).symm⟩
  | error => cases mapped

theorem membersJson_cons {tree : Unfolding} {trees : List Unfolding} {items : List Json}
    (written : membersJson (tree :: trees) = .ok items) :
    ∃ item rest, tree.json = .ok item ∧ membersJson trees = .ok rest ∧ items = item :: rest := by
  rw [membersJson] at written
  split at written
  · cases written
  · rename_i item here
    obtain ⟨rest, later, same⟩ := map_eq_ok written
    exact ⟨item, rest, here, later, same⟩

end Unfolding

namespace Store

/-- `s.Unfolds values trees handles`: the values unfold to the trees through the arrays with the
    handles, each one named as often as the unfolding meets it. -/
inductive Unfolds (s : Store) : List Value → List Unfolding → List ArrayId → Prop
  | nil : Unfolds s [] [] []
  | flat {value : Value} {tree : Unfolding} {values : List Value} {trees : List Unfolding}
      {handles : List ArrayId} (alone : value.flat? = some tree)
      (rest : Unfolds s values trees handles) : Unfolds s (value :: values) (tree :: trees) handles
  | array {id : ArrayId} {inner trees : List Unfolding} {values : List Value}
      {within handles : List ArrayId} (members : Unfolds s (s.members id).toList inner within)
      (rest : Unfolds s values trees handles) :
      Unfolds s (.array id :: values) (.array inner :: trees) (id :: within ++ handles)

namespace Unfolds

variable {s t : Store} {values values' : List Value} {trees trees' : List Unfolding}
  {handles handles' : List ArrayId}

theorem unique (here : s.Unfolds values trees handles) (there : s.Unfolds values trees' handles') :
    trees = trees' ∧ handles = handles' := by
  induction here generalizing trees' handles' with
  | nil =>
    cases there
    exact ⟨rfl, rfl⟩
  | flat alone _ ih =>
    cases there with
    | flat alone' rest =>
      obtain ⟨rfl, rfl⟩ := ih rest
      cases alone.symm.trans alone'
      exact ⟨rfl, rfl⟩
    | array => cases alone
  | array _ _ inside later =>
    cases there with
    | flat alone => cases alone
    | array members rest =>
      obtain ⟨rfl, rfl⟩ := inside members
      obtain ⟨rfl, rfl⟩ := later rest
      exact ⟨rfl, rfl⟩

theorem append (first : s.Unfolds values trees handles)
    (second : s.Unfolds values' trees' handles') :
    s.Unfolds (values ++ values') (trees ++ trees') (handles ++ handles') := by
  induction first with
  | nil => exact second
  | flat alone _ ih => exact .flat alone ih
  | array members _ _ ih =>
    rw [List.append_assoc]
    exact .array members ih

theorem mono (unfolds : s.Unfolds values trees handles)
    (same : ∀ id ∈ handles, t.members id = s.members id) : t.Unfolds values trees handles := by
  induction unfolds with
  | nil => exact .nil
  | flat alone _ ih => exact .flat alone (ih same)
  | @array id _ _ _ within handles members _ inside later =>
    have held := same id (by simp)
    refine .array ?_ (later fun other member => same other (by simp [member]))
    rw [held]
    exact inside fun other member => same other (by simp [member])

theorem single {id : ArrayId} (members : s.Unfolds (s.members id).toList trees handles) :
    s.Unfolds [.array id] [.array trees] (id :: handles) := by
  have whole := Unfolds.array members (.nil (s := s))
  rwa [List.append_nil] at whole

theorem unfoldIn_flat {value : Value} {tree : Unfolding} (alone : value.flat? = some tree)
    (path : List ArrayId) : s.unfoldIn path value = tree := by
  cases value with
  | int | uint | float | str | bool | nil =>
    cases alone
    rw [unfoldIn]
  | array | closure | returned => cases alone

theorem unfoldAll_eq (unfolds : s.Unfolds values trees handles) (path : List ArrayId)
    (outside : ∀ id ∈ path, ∀ inner within, s.Unfolds (s.members id).toList inner within →
      sizeOf trees < sizeOf (Unfolding.array inner)) : s.unfoldAll path values = trees := by
  induction unfolds generalizing path with
  | nil => rw [unfoldAll]
  | flat alone _ ih =>
    rw [unfoldAll, unfoldIn_flat alone, ih path]
    intro id member inner within held
    have less := outside id member inner within held
    rw [List.cons.sizeOf_spec] at less
    omega
  | @array id inner trees values within handles members rest inside later =>
    -- On the path the array would have a tree larger than its own.
    have fresh : id ∉ path := fun member => by
      have less := outside id member inner within members
      rw [List.cons.sizeOf_spec] at less
      omega
    have here : s.unfoldAll (id :: path) (s.members id).toList = inner := by
      refine inside (id :: path) fun other member inner' within' held => ?_
      rcases List.mem_cons.mp member with rfl | member
      -- The trees of the array that was opened last are known by `unique` alone.
      · obtain ⟨rfl, -⟩ := members.unique held
        rw [Unfolding.array.sizeOf_spec]
        omega
      · have less := outside other member inner' within' held
        rw [List.cons.sizeOf_spec, Unfolding.array.sizeOf_spec] at less
        omega
    rw [unfoldAll, unfoldIn, if_neg fresh, here, later path]
    intro other member inner' within' held
    have less := outside other member inner' within' held
    rw [List.cons.sizeOf_spec] at less
    omega

theorem unfold_array {id : ArrayId} (members : s.Unfolds (s.members id).toList trees handles) :
    s.unfold (.array id) = .array trees := by
  have whole := members.single.unfoldAll_eq [] (by simp)
  rw [unfoldAll, unfoldAll] at whole
  exact List.head_eq_of_cons_eq whole

end Unfolds

theorem unfolds_of_membersJson (s : Store) (path : List ArrayId) (values : List Value)
    (written : ∃ items, Unfolding.membersJson (s.unfoldAll path values) = .ok items) :
    ∃ handles, s.Unfolds values (s.unfoldAll path values) handles := by
  induction path, values using unfoldAll.induct s fun path value =>
    (∃ item, (s.unfoldIn path value).json = .ok item) →
      ∃ handles, s.Unfolds [value] [s.unfoldIn path value] handles with
  | case1 path n written | case2 path n written | case3 path x written | case4 path t written
  | case5 path b written | case6 path written =>
    rw [unfoldIn]
    exact ⟨[], .flat rfl .nil⟩
  | case7 path c written =>
    rw [unfoldIn] at written
    exact nomatch written
  | case8 path inner ih written =>
    rw [unfoldIn] at written
    exact nomatch written
  | case9 path id met written =>
    rw [unfoldIn, if_pos met] at written
    exact nomatch written
  | case10 path id fresh ih written =>
    rw [unfoldIn, if_neg fresh] at written ⊢
    obtain ⟨_, written⟩ := written
    rw [Unfolding.json] at written
    obtain ⟨items, within, -⟩ := Unfolding.map_eq_ok written
    obtain ⟨handles, members⟩ := ih ⟨items, within⟩
    exact ⟨_, members.single⟩
  | case11 path =>
    rw [unfoldAll]
    exact ⟨[], .nil⟩
  | case12 path value rest here later =>
    rw [unfoldAll] at written ⊢
    obtain ⟨_, written⟩ := written
    obtain ⟨item, items, first, others, -⟩ := Unfolding.membersJson_cons written
    obtain ⟨handles, head⟩ := here ⟨item, first⟩
    obtain ⟨handles', tail⟩ := later ⟨items, others⟩
    exact ⟨_, head.append tail⟩

theorem unfold_array_of_written {s : Store} {id : ArrayId} {path : List ArrayId}
    {items : List Json}
    (written : Unfolding.membersJson (s.unfoldAll path (s.members id).toList) = .ok items) :
    s.unfold (.array id) = .array (s.unfoldAll path (s.members id).toList) := by
  obtain ⟨handles, members⟩ := s.unfolds_of_membersJson path _ ⟨items, written⟩
  exact members.unfold_array

end Store

end MonkeyLang
