import Mathlib.Data.List.Nodup
import MonkeyLang.Proofs.Store.Handles

namespace MonkeyLang

namespace Frame

variable {name other : String} {value : Value}

theorem lookup_cons (binding : String × Value) (bindings : List (String × Value)) :
    (binding :: bindings).lookup name =
      if name = binding.1 then some binding.2 else bindings.lookup name := by
  rw [List.lookup_cons]
  by_cases same : name = binding.1
  · rw [if_pos same, beq_iff_eq.mpr same]
  · rw [if_neg same, beq_eq_false_iff_ne.mpr same]

theorem lookup_insert (bindings : List (String × Value)) :
    (insert name value bindings).lookup other =
      if other = name then some value else bindings.lookup other := by
  fun_induction insert name value bindings with
  | case1 => rw [lookup_cons]
  | case2 old rest =>
    rw [lookup_cons, lookup_cons]
    split <;> rfl
  | case3 bound old rest _ _ => rw [lookup_cons]
  | case4 bound old rest different _ ih =>
    rw [lookup_cons, lookup_cons, ih]
    by_cases same : other = name
    · rw [if_pos same, if_pos same, if_neg (same ▸ different)]
    · rw [if_neg same, if_neg same]

theorem find?_define (frame : Frame) :
    (frame.define name value).find? other = if other = name then some value else frame.find? other :=
  lookup_insert frame.bindings

theorem binds_eq (frame : Frame) (name : String) : frame.binds name = (frame.find? name).isSome := by
  rw [binds, find?]
  induction frame.bindings with
  | nil => rfl
  | cons binding rest ih =>
    rw [List.any_cons, lookup_cons, ih]
    by_cases same : name = binding.1
    · simp [same]
    · simp [same, Ne.symm same]

end Frame

namespace Store

section Chains

/-- The frames around a frame, which are its parent, the parent of that, and so on, with the frame
    itself in front of them. -/
inductive Chain (s : Store) : FrameId → List FrameId → Prop
  | outermost {id : FrameId} (none : (s.frame id).parent = none) : Chain s id [id]
  | inside {id parent : FrameId} {around : List FrameId} (up : (s.frame id).parent = some parent)
      (outer : Chain s parent around) : Chain s id (id :: around)

def Rooted (s : Store) : Prop :=
  ∀ id parent : FrameId, (s.frame id).parent = some parent → parent.index < id.index

def Sees (s : Store) (chain : List FrameId) (frame : FrameId) (name : String) : Prop :=
  ∃ nearer farther, chain = nearer ++ frame :: farther ∧
    ∀ other ∈ nearer, (s.frame other).binds name = false

variable {s t : Store} {id parent : FrameId} {chain : List FrameId} {name : String}

theorem Chain.unique (here : s.Chain id chain) {other : List FrameId} (there : s.Chain id other) :
    other = chain := by
  induction here generalizing other with
  | outermost none =>
    cases there with
    | outermost => rfl
    | inside up => rw [none] at up; cases up
  | inside up _ ih =>
    cases there with
    | outermost none => rw [none] at up; cases up
    | inside up' outer =>
      cases up.symm.trans up'
      rw [ih outer]

theorem Rooted.exists_chain (rooted : s.Rooted) (id : FrameId) : ∃ chain, s.Chain id chain := by
  induction age : id.index using Nat.strongRecOn generalizing id with
  | ind n ih =>
    cases up : (s.frame id).parent with
    | none => exact ⟨_, .outermost up⟩
    | some parent =>
      have older := rooted id parent up
      obtain ⟨around, outer⟩ := ih parent.index (age ▸ older) parent rfl
      exact ⟨_, .inside up outer⟩

theorem Chain.index_le (whole : s.Chain id chain) (rooted : s.Rooted) :
    ∀ other ∈ chain, other.index ≤ id.index := by
  induction whole with
  | outermost => exact List.forall_mem_singleton.mpr (Nat.le_refl _)
  | @inside id parent around up _ ih =>
    have older := rooted id parent up
    refine List.forall_mem_cons.mpr ⟨Nat.le_refl _, fun other member => ?_⟩
    exact Nat.le_trans (ih other member) (Nat.le_of_lt older)

theorem Chain.nodup (whole : s.Chain id chain) (rooted : s.Rooted) : chain.Nodup := by
  induction whole with
  | outermost => exact List.nodup_singleton _
  | @inside id parent around up outer ih =>
    refine List.nodup_cons.mpr ⟨fun member => ?_, ih⟩
    have older := rooted id parent up
    have least := outer.index_le rooted id member
    omega

theorem Chain.congr (whole : s.Chain id chain)
    (same : ∀ other ∈ chain, (t.frame other).parent = (s.frame other).parent) :
    t.Chain id chain := by
  induction whole with
  | outermost none => exact .outermost ((same _ (List.mem_singleton_self _)).trans none)
  | inside up _ ih =>
    obtain ⟨here, others⟩ := List.forall_mem_cons.mp same
    exact .inside (here.trans up) (ih others)

theorem get?_outermost (none : (s.frame id).parent = none) (name : String) :
    s.get? id name = (s.frame id).find? name := by
  rw [get?, none]
  cases (s.frame id).find? name <;> rfl

theorem Rooted.get?_inside (rooted : s.Rooted) (up : (s.frame id).parent = some parent)
    (name : String) : s.get? id name = ((s.frame id).find? name).or (s.get? parent name) := by
  rw [get?, up]
  dsimp only
  rw [if_pos (rooted id parent up)]
  cases (s.frame id).find? name <;> rfl

theorem Chain.get?_eq (whole : s.Chain id chain) (rooted : s.Rooted) (name : String) :
    s.get? id name = chain.findSome? fun other => (s.frame other).find? name := by
  induction whole with
  | outermost none => rw [get?_outermost none, List.findSome?_singleton]
  | inside up _ ih =>
    rw [rooted.get?_inside up, List.findSome?_cons, ih]
    cases (s.frame _).find? name <;> rfl

theorem Chain.get?_congr (whole : s.Chain id chain) (rooted : s.Rooted) (rooted' : t.Rooted)
    (same : ∀ other ∈ chain, t.frame other = s.frame other) (name : String) :
    t.get? id name = s.get? id name := by
  induction whole with
  | outermost none =>
    have here := same _ (List.mem_singleton_self _)
    rw [get?_outermost none, get?_outermost (by rw [here, none]), here]
  | inside up _ ih =>
    obtain ⟨here, others⟩ := List.forall_mem_cons.mp same
    rw [rooted.get?_inside up, rooted'.get?_inside (by rw [here, up]), here, ih others]

theorem Chain.get?_eq_some_iff (whole : s.Chain id chain) (rooted : s.Rooted) {value : Value} :
    s.get? id name = some value ↔
      ∃ frame, s.Sees chain frame name ∧ (s.frame frame).find? name = some value := by
  rw [whole.get?_eq rooted, List.findSome?_eq_some_iff]
  simp only [Sees, Frame.binds_eq, Option.isSome_eq_false_iff, Option.isNone_iff_eq_none]
  constructor
  · rintro ⟨nearer, frame, farther, split, found, clear⟩
    exact ⟨frame, ⟨nearer, farther, split, clear⟩, found⟩
  · rintro ⟨frame, ⟨nearer, farther, split, clear⟩, found⟩
    exact ⟨nearer, frame, farther, split, found, clear⟩

theorem contains_eq (id : FrameId) (name : String) :
    s.contains id name = (s.get? id name).isSome := by
  fun_induction Store.get? s id name with
  | case1 id value here => rw [contains, Frame.binds_eq, here, Option.isSome_some, Bool.true_or]
  | case2 id none parent up older ih =>
    rw [contains, Frame.binds_eq, none, up, ← ih]
    dsimp only
    rw [if_pos older]
    rfl
  | case3 id none parent up younger =>
    rw [contains, Frame.binds_eq, none, up]
    dsimp only
    rw [if_neg younger]
    rfl
  | case4 id none up =>
    rw [contains, Frame.binds_eq, none, up]
    rfl

end Chains

section Making

/-- Frames made one after the other, inside others or inside none, and names bound in them, in any
    order. -/
inductive Forest : Store → Prop
  | bare {s : Store} (none : s.frames = #[]) : Forest s
  | root {s : Store} (forest : Forest s) : Forest s.root.2
  | child {s : Store} {parent : FrameId} (forest : Forest s)
      (made : parent.index < s.frames.size) : Forest (s.child parent).2
  | define {s : Store} {frame : FrameId} (forest : Forest s) (made : frame.index < s.frames.size)
      (name : String) (value : Value) : Forest (s.define frame name value)

variable {s : Store} {id frame : FrameId} {chain : List FrameId} {name other : String}
  {value : Value}

theorem frame_root (id : FrameId) : s.root.2.frame id = s.frame id := by
  simp only [root, Store.frame, Array.getD_eq_getD_getElem?, Array.getElem?_push]
  split
  · rename_i new
    rw [new, Array.getElem?_eq_none (Nat.le_refl _)]
    rfl
  · rfl

theorem parent_define (frame : FrameId) (name : String) (value : Value) (id : FrameId) :
    ((s.define frame name value).frame id).parent = (s.frame id).parent := by
  rw [frame_define]
  split
  · rename_i here
    rw [here.1]
    rfl
  · rfl

theorem find?_frame_define (made : frame.index < s.frames.size) (id : FrameId) :
    ((s.define frame name value).frame id).find? other =
      if id = frame ∧ other = name then some value else (s.frame id).find? other := by
  rw [frame_define]
  by_cases here : id = frame
  · subst here
    rw [if_pos ⟨rfl, made⟩, Frame.find?_define]
    simp
  · rw [if_neg fun both => here both.1, if_neg fun both => here both.1]

theorem Rooted.root (rooted : s.Rooted) : s.root.2.Rooted := fun id parent up =>
  rooted id parent (frame_root id ▸ up)

theorem Rooted.child {parent : FrameId} (rooted : s.Rooted) (made : parent.index < s.frames.size) :
    (s.child parent).2.Rooted := by
  intro id outer up
  rw [frame_child] at up
  split at up
  · rename_i new
    cases up
    rwa [new]
  · exact rooted id outer up

theorem Rooted.define (rooted : s.Rooted) (frame : FrameId) (name : String) (value : Value) :
    (s.define frame name value).Rooted := fun id parent up =>
  rooted id parent (parent_define frame name value id ▸ up)

theorem Forest.rooted (forest : s.Forest) : s.Rooted := by
  induction forest with
  | bare none =>
    intro id parent up
    rw [Store.frame, none] at up
    cases up
  | root _ ih => exact ih.root
  | child _ made ih => exact ih.child made
  | define _ made name value ih => exact ih.define _ name value

theorem Chain.define (whole : s.Chain id chain) (frame : FrameId) (name : String) (value : Value) :
    (s.define frame name value).Chain id chain :=
  whole.congr fun other _ => parent_define frame name value other

theorem Sees.define (sees : s.Sees chain frame name) (whole : s.Chain id chain)
    (rooted : s.Rooted) (made : frame.index < s.frames.size) (value : Value) :
    (s.define frame name value).get? id name = some value := by
  have distinct := whole.nodup rooted
  obtain ⟨nearer, farther, rfl, clear⟩ := sees
  refine ((whole.define frame name value).get?_eq_some_iff (rooted.define frame name value)).mpr
    ⟨frame, ⟨nearer, farther, rfl, fun other member => ?_⟩, ?_⟩
  · have different := (List.nodup_append.mp distinct).2.2 other member frame List.mem_cons_self
    rw [Frame.binds_eq, find?_frame_define made, if_neg fun both => different both.1,
      ← Frame.binds_eq, clear other member]
  · rw [find?_frame_define made, if_pos ⟨rfl, rfl⟩]

theorem Chain.get?_define (whole : s.Chain id chain) (rooted : s.Rooted)
    (made : frame.index < s.frames.size)
    (hidden : ¬(other = name ∧ s.Sees chain frame name)) :
    (s.define frame name value).get? id other = s.get? id other := by
  have rooted' := rooted.define frame name value
  have here {id : FrameId} {around : List FrameId}
      (hidden : ¬(other = name ∧ s.Sees (id :: around) frame name)) :
      ((s.define frame name value).frame id).find? other = (s.frame id).find? other := by
    rw [find?_frame_define made, if_neg]
    rintro ⟨rfl, rfl⟩
    exact hidden ⟨rfl, [], around, rfl, by simp⟩
  induction whole with
  | @outermost id none =>
    rw [get?_outermost none, get?_outermost (by rw [parent_define, none]), here hidden]
  | @inside id parent around up _ ih =>
    rw [rooted.get?_inside up, rooted'.get?_inside (by rw [parent_define, up]), here hidden]
    cases found : (s.frame id).find? other with
    | some value => rfl
    | none =>
      rw [Option.none_or, Option.none_or]
      refine ih ?_
      rintro ⟨rfl, nearer, farther, split, clear⟩
      refine hidden ⟨rfl, id :: nearer, farther, by rw [split, List.cons_append], ?_⟩
      exact List.forall_mem_cons.mpr ⟨by rw [Frame.binds_eq, found]; rfl, clear⟩

theorem Chain.get?_made (whole : s.Chain id chain) (rooted : s.Rooted)
    (made : id.index < s.frames.size) (name : String) :
    (∀ parent : FrameId, parent.index < s.frames.size →
      (s.child parent).2.get? id name = s.get? id name) ∧
    s.root.2.get? id name = s.get? id name ∧ s.root.2.get? s.root.1 name = none ∧
    (s.child id).2.get? (s.child id).1 name = s.get? id name := by
  have kept (parent other : FrameId) (old : other ∈ chain) :
      (s.child parent).2.frame other = s.frame other := by
    have least := whole.index_le rooted other old
    rw [frame_child, if_neg (by omega)]
  have fresh : s.root.2.frame s.root.1 = .empty none := by
    rw [frame_root, root, Store.frame, Array.getD_eq_getD_getElem?,
      Array.getElem?_eq_none (Nat.le_refl _)]
    rfl
  have inside : (s.child id).2.frame (s.child id).1 = .empty (some id) :=
    (s.frame_child id _).trans (if_pos rfl)
  have rooted' := rooted.child made
  refine ⟨fun parent older => ?_, ?_, ?_, ?_⟩
  · exact whole.get?_congr rooted (rooted.child older) (kept parent) name
  · exact whole.get?_congr rooted rooted.root (fun other _ => frame_root other) name
  · rw [get?_outermost (by rw [fresh]; rfl), fresh]
    rfl
  · rw [rooted'.get?_inside (by rw [inside]; rfl), inside,
      whole.get?_congr rooted rooted' (kept id) name]
    rfl

/-- In frames that were made and had names bound in any order, each frame lies in one chain, which is
    finite. A name is what the nearest frame of the chain binds it to, and it is contained exactly if
    it is something. Binding a name in a frame gives it the new value from where that frame is in the
    chain and no nearer one binds the name, and leaves all else as it was. Making a frame changes no
    name either; a new frame has the names of the one that it lies inside. -/
theorem names_in_chains (forest : s.Forest) (made : id.index < s.frames.size) :
    ∃ chain, s.Chain id chain ∧ (∀ other, s.Chain id other → other = chain) ∧
      (∀ name value, s.get? id name = some value ↔
        ∃ frame, s.Sees chain frame name ∧ (s.frame frame).find? name = some value) ∧
      (∀ name, s.contains id name = (s.get? id name).isSome) ∧
      (∀ frame name value, frame.index < s.frames.size →
        (s.define frame name value).Chain id chain ∧
        (s.Sees chain frame name → (s.define frame name value).get? id name = some value) ∧
        ∀ other, ¬(other = name ∧ s.Sees chain frame name) →
          (s.define frame name value).get? id other = s.get? id other) ∧
      ∀ name, (∀ parent : FrameId, parent.index < s.frames.size →
          (s.child parent).2.get? id name = s.get? id name) ∧
        s.root.2.get? id name = s.get? id name ∧ s.root.2.get? s.root.1 name = none ∧
        (s.child id).2.get? (s.child id).1 name = s.get? id name := by
  have rooted := forest.rooted
  obtain ⟨chain, whole⟩ := rooted.exists_chain id
  refine ⟨chain, whole, fun other => whole.unique, fun name value => ?_, fun name => ?_,
    fun frame name value here => ⟨?_, fun sees => ?_, fun other hidden => ?_⟩, fun name => ?_⟩
  · exact whole.get?_eq_some_iff rooted
  · exact contains_eq id name
  · exact whole.define frame name value
  · exact sees.define whole rooted here value
  · exact whole.get?_define rooted here hidden
  · exact whole.get?_made rooted made name

/-- Three frames, each inside the one before it. The first two bind the same name. -/
def nestedFrames : Store :=
  ((((Store.mk #[] #[] 0 "").root.2.child ⟨0⟩).2.child ⟨1⟩).2.define ⟨0⟩ "a" .nil).define ⟨1⟩ "a"
    (.bool true)

theorem nestedFrames_forest : nestedFrames.Forest := by
  have made : Forest (((Store.mk #[] #[] 0 "").root.2.child ⟨0⟩).2.child ⟨1⟩).2 :=
    .child (.child (.root (.bare rfl)) (by decide)) (by decide)
  exact .define (.define made (by decide) "a" .nil) (by decide) "a" (.bool true)

/-- The innermost frame sees the name of the second one, and that of the first one not. -/
theorem names_in_nested_chain :
    nestedFrames.Forest ∧ nestedFrames.get? ⟨2⟩ "a" = some (.bool true) ∧
      (nestedFrames.define ⟨1⟩ "a" (.int 1)).get? ⟨2⟩ "a" = some (.int 1) ∧
      (nestedFrames.define ⟨0⟩ "a" (.int 1)).get? ⟨2⟩ "a" = nestedFrames.get? ⟨2⟩ "a" := by
  have whole : nestedFrames.Chain ⟨2⟩ [⟨2⟩, ⟨1⟩, ⟨0⟩] :=
    .inside rfl (.inside rfl (.outermost rfl))
  obtain ⟨chain, -, unique, looked, -, defines, -⟩ :=
    names_in_chains nestedFrames_forest (show (FrameId.mk 2).index < _ by decide)
  obtain rfl := unique _ whole
  have sees : nestedFrames.Sees [⟨2⟩, ⟨1⟩, ⟨0⟩] ⟨1⟩ "a" := ⟨[⟨2⟩], [⟨0⟩], rfl, by simp; rfl⟩
  have found : nestedFrames.get? ⟨2⟩ "a" = some (.bool true) :=
    (looked _ _).mpr ⟨⟨1⟩, sees, rfl⟩
  refine ⟨nestedFrames_forest, found, (defines ⟨1⟩ "a" (.int 1) (by decide)).2.1 sees, ?_⟩
  refine (defines ⟨0⟩ "a" (.int 1) (by decide)).2.2 "a" ?_
  rintro ⟨-, sees'⟩
  have outer := (looked "a" .nil).mpr ⟨⟨0⟩, sees', rfl⟩
  cases found.symm.trans outer

end Making

end Store

end MonkeyLang
