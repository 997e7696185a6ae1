import MonkeyLang.Proofs.Json.RoundTrip
import MonkeyLang.Proofs.Store.Unfolding

namespace MonkeyLang

namespace Unfolding

mutual

/-- How deep lists are nested in the text of a tree. An empty array is not written as a list. -/
def depth : Unfolding → Nat
  | array members => if members.isEmpty then 0 else depthAll members + 1
  | _ => 0

def depthAll : List Unfolding → Nat
  | [] => 0
  | member :: rest => max member.depth (depthAll rest)

end

mutual

/-- The tree that the text of a tree is read as. -/
def reread : Unfolding → Unfolding
  | uint n => if n.toNat < 0x8000000000000000 then .int (Int64.ofInt n.toNat) else .uint n
  | array members => if members.isEmpty then .nil else .array (rereadAll members)
  | tree => tree

def rereadAll : List Unfolding → List Unfolding
  | [] => []
  | member :: rest => member.reread :: rereadAll rest

end

end Unfolding

namespace Json

mutual

/-- The tree of the value that is loaded. For an object there is none. -/
def tree : Json → Unfolding
  | null | object _ => .nil
  | bool b => .bool b
  | int n =>
    if n < 0x8000000000000000 then .int (Int64.ofInt n) else .uint (UInt64.ofNat n.toNat)
  | float x => .float x
  | str s => .str s
  | list items => .array (treeAll items)

def treeAll : List Json → List Unfolding
  | [] => []
  | item :: rest => item.tree :: treeAll rest

end

def items? : Json → Option (List Json)
  | null => some []
  | list items => some items
  | _ => none

end Json

namespace Unfolding

section Written

theorem json_array {members : List Unfolding} {item : Json}
    (written : (array members).json = .ok item) :
    ∃ items, membersJson members = .ok items ∧ item = listJson items := by
  rw [json] at written
  exact map_eq_ok written

theorem membersJson_nil {items : List Json} (written : membersJson [] = .ok items) : items = [] := by
  rw [membersJson] at written
  exact (Except.ok.inj written).symm

theorem listJson_eq {members : List Unfolding} {items : List Json}
    (written : membersJson members = .ok items) :
    members = [] ∧ listJson items = .null ∨
      members.isEmpty = false ∧ listJson items = .list items := by
  rcases members with _ | ⟨member, rest⟩
  · obtain rfl := membersJson_nil written
    exact .inl ⟨rfl, rfl⟩
  · obtain ⟨item, others, -, -, rfl⟩ := membersJson_cons written
    exact .inr ⟨rfl, rfl⟩

mutual

theorem json_exact (tree : Unfolding) {item : Json} (written : tree.json = .ok item) :
    item.Exact ∧ item.depth = tree.depth := by
  cases tree with
  | int n =>
    cases written
    have low := n.le_toInt
    have high := n.toInt_lt
    exact ⟨⟨by omega, by omega⟩, rfl⟩
  | uint n =>
    cases written
    have high := n.toNat_lt
    exact ⟨⟨by omega, by omega⟩, rfl⟩
  | float x =>
    rw [json] at written
    split at written
    · rename_i finite
      cases written
      exact ⟨finite, rfl⟩
    · cases written
  | str _ | bool _ | nil =>
    cases written
    exact ⟨trivial, rfl⟩
  | array members =>
    obtain ⟨items, within, rfl⟩ := json_array written
    have inside := membersJson_exact members within
    rcases listJson_eq within with ⟨rfl, same⟩ | ⟨some, same⟩
    · rw [same]
      exact ⟨trivial, rfl⟩
    · rw [same, depth, some, Json.depth, inside.2]
      exact ⟨inside.1, rfl⟩
  | again | closure _ | returned _ => cases written

theorem membersJson_exact (members : List Unfolding) {items : List Json}
    (written : membersJson members = .ok items) :
    Json.AllExact items ∧ Json.depthAll items = depthAll members := by
  cases members with
  | nil =>
    obtain rfl := membersJson_nil written
    exact ⟨trivial, rfl⟩
  | cons member rest =>
    obtain ⟨item, others, first, later, rfl⟩ := membersJson_cons written
    have here := json_exact member first
    have inside := membersJson_exact rest later
    rw [Json.depthAll, depthAll, here.2, inside.2]
    exact ⟨⟨here.1, inside.1⟩, rfl⟩

end

theorem items?_listJson (items : List Json) : (listJson items).items? = some items := by
  cases items <;> rfl

mutual

theorem tree_of_json (tree : Unfolding) {item : Json} (written : tree.json = .ok item) :
    item.tree = tree.reread := by
  cases tree with
  | int n =>
    cases written
    have high := n.toInt_lt
    rw [Json.tree, if_pos (by omega), Int64.ofInt_toInt]
    rfl
  | uint n =>
    cases written
    rw [Json.tree, reread]
    by_cases fits : n.toNat < 0x8000000000000000
    · rw [if_pos fits, if_pos (by omega)]
    · rw [if_neg fits, if_neg (by omega), Int.toNat_natCast, UInt64.ofNat_toNat]
  | float x =>
    rw [json] at written
    split at written
    · cases written
      rfl
    · cases written
  | str _ | bool _ | nil =>
    cases written
    rfl
  | array members =>
    obtain ⟨items, within, rfl⟩ := json_array written
    rcases listJson_eq within with ⟨rfl, same⟩ | ⟨some, same⟩
    · rw [same]
      rfl
    · rw [same, reread, some, Json.tree, treeAll_of_membersJson members within]
      rfl
  | again | closure _ | returned _ => cases written

theorem treeAll_of_membersJson (members : List Unfolding) {items : List Json}
    (written : membersJson members = .ok items) : Json.treeAll items = rereadAll members := by
  cases members with
  | nil =>
    obtain rfl := membersJson_nil written
    rfl
  | cons member rest =>
    obtain ⟨item, others, first, later, rfl⟩ := membersJson_cons written
    rw [Json.treeAll, rereadAll, tree_of_json member first, treeAll_of_membersJson rest later]

end

end Written

end Unfolding

namespace Store

def grow (s : Store) (new : Array (Array Value)) : Store := { s with arrays := s.arrays ++ new }

section Grow

variable (s : Store) (new : Array (Array Value))

theorem grow_empty : s.grow #[] = s := by
  rw [grow, Array.append_empty]

theorem grow_grow (newer : Array (Array Value)) : (s.grow new).grow newer = s.grow (new ++ newer) := by
  rw [grow, grow, grow, Array.append_assoc]

theorem alloc_eq (members : Array Value) :
    s.alloc members = (⟨s.arrays.size⟩, s.grow #[members]) := by
  rw [alloc, grow, Array.push_eq_append]

theorem alloc_grow (members : Array Value) :
    ((s.grow new).alloc members).2 = s.grow (new ++ #[members]) := by
  rw [alloc_eq, grow_grow]

@[simp] theorem size_grow : (s.grow new).arrays.size = s.arrays.size + new.size :=
  Array.size_append

theorem members_grow {id : ArrayId} (old : id.index < s.arrays.size) :
    (s.grow new).members id = s.members id := by
  rw [members, members, grow, Array.getD_eq_getD_getElem?, Array.getD_eq_getD_getElem?,
    Array.getElem?_append_left old]

end Grow

section Reading

mutual

theorem load_grows {s t : Store} {value : Value} (json : Json)
    (loaded : Json.load s json = .ok (value, t)) : ∃ new, t = s.grow new := by
  cases json with
  | null | bool _ | int _ | float _ | str _ =>
    cases loaded
    exact ⟨#[], s.grow_empty.symm⟩
  | list items =>
    rw [Json.load] at loaded
    split at loaded
    · cases loaded
    · rename_i members u inside
      cases loaded
      obtain ⟨new, rfl⟩ := loadAll_grows items inside
      exact ⟨new ++ #[members.toArray], s.alloc_grow new members.toArray⟩
  | object _ => cases loaded

theorem loadAll_grows {s t : Store} {values : List Value} (items : List Json)
    (loaded : Json.loadAll s items = .ok (values, t)) : ∃ new, t = s.grow new := by
  cases items with
  | nil =>
    cases loaded
    exact ⟨#[], s.grow_empty.symm⟩
  | cons item rest =>
    rw [Json.loadAll] at loaded
    split at loaded
    · cases loaded
    · rename_i value u first
      obtain ⟨new, rfl⟩ := load_grows item first
      split at loaded
      · cases loaded
      · rename_i others w later
        cases loaded
        obtain ⟨newer, rfl⟩ := loadAll_grows rest later
        exact ⟨new ++ newer, s.grow_grow new newer⟩

end

theorem decode_grows {s t : Store} {id : ArrayId} {text : List Char}
    (decoded : s.decode text = .ok (id, t)) : ∃ new, t = s.grow new := by
  unfold decode at decoded
  split at decoded
  · cases decoded
  · cases decoded
    exact ⟨#[#[]], congrArg Prod.snd (s.alloc_eq #[])⟩
  · split at decoded
    · cases decoded
    · rename_i members u loaded
      cases decoded
      obtain ⟨new, rfl⟩ := loadAll_grows _ loaded
      exact ⟨new ++ #[members.toArray], s.alloc_grow new members.toArray⟩
  · cases decoded

end Reading

/-- The handles are all different, none below the first number, and all below the second. -/
structure Between (low high : Nat) (handles : List ArrayId) : Prop where
  nodup : handles.Nodup
  low : ∀ id ∈ handles, low ≤ id.index
  high : ∀ id ∈ handles, id.index < high

section Between

variable {low mid high : Nat} {handles later : List ArrayId}

theorem between_nil : Between low high [] := ⟨.nil, by simp, by simp⟩

theorem Between.append (first : Between low mid handles) (second : Between mid high later)
    (up : low ≤ mid) (on : mid ≤ high) : Between low high (handles ++ later) := by
  refine ⟨?_, ?_, ?_⟩
  · refine List.nodup_append.mpr ⟨first.nodup, second.nodup, fun id here other there same => ?_⟩
    have below := first.high id here
    have above := second.low other there
    rw [same] at below
    omega
  · intro id member
    rcases List.mem_append.mp member with member | member
    · exact first.low id member
    · exact up.trans (second.low id member)
  · intro id member
    rcases List.mem_append.mp member with member | member
    · exact (first.high id member).trans_le on
    · exact second.high id member

theorem Between.cons (inside : Between low high handles) (up : low ≤ high) :
    Between low (high + 1) (⟨high⟩ :: handles) := by
  refine ⟨?_, ?_, ?_⟩
  · refine List.nodup_cons.mpr ⟨fun member => ?_, inside.nodup⟩
    exact lt_irrefl _ (inside.high _ member)
  · rintro id (_ | ⟨_, member⟩)
    · exact up
    · exact inside.low id member
  · rintro id (_ | ⟨_, member⟩)
    · exact Nat.lt_succ_self high
    · exact (inside.high id member).trans (Nat.lt_succ_self high)

end Between

section Load

variable {s : Store} {new : Array (Array Value)} {values : List Value} {trees : List Unfolding}
  {handles : List ArrayId}

theorem unfolds_alloc (inside : (s.grow new).Unfolds values trees handles)
    (fresh : Between s.arrays.size (s.arrays.size + new.size) handles) :
    ∃ id newer within, (s.grow new).alloc values.toArray = (id, s.grow newer) ∧
      (s.grow newer).Unfolds ((s.grow newer).members id).toList trees within ∧
      Between s.arrays.size (s.arrays.size + newer.size) (id :: within) := by
  refine ⟨⟨s.arrays.size + new.size⟩, new ++ #[values.toArray], handles, ?_, ?_, ?_⟩
  · rw [alloc_eq, grow_grow, size_grow]
  · have held : (s.grow (new ++ #[values.toArray])).members ⟨s.arrays.size + new.size⟩ =
        values.toArray := by
      simp [members, grow]
    -- The members were made before the array, so they unfold as they did.
    rw [held, ← grow_grow]
    refine inside.mono fun id member => members_grow _ _ ?_
    rw [size_grow]
    exact fresh.high id member
  · rw [Array.size_append, ← Nat.add_assoc]
    exact fresh.cons (Nat.le_add_right _ _)

theorem flat?_wholeValue_eq (n : Int) : (Json.wholeValue n).flat? = some (Json.int n).tree := by
  rw [Json.wholeValue, Json.tree]
  split <;> rfl

theorem unfolds_flat {value : Value} {tree : Unfolding} {item : Json} (s : Store)
    (loaded : Json.load s item = .ok (value, s)) (alone : value.flat? = some tree) :
    ∃ value new handles, Json.load s item = .ok (value, s.grow new) ∧
      (s.grow new).Unfolds [value] [tree] handles ∧
      Between s.arrays.size (s.arrays.size + new.size) handles := by
  refine ⟨value, #[], [], ?_, .flat alone .nil, between_nil⟩
  rw [grow_empty]
  exact loaded

mutual

theorem load_unfolds (json : Json) (told : json.Exact) (s : Store) :
    ∃ value new handles, Json.load s json = .ok (value, s.grow new) ∧
      (s.grow new).Unfolds [value] [json.tree] handles ∧
      Between s.arrays.size (s.arrays.size + new.size) handles := by
  cases json with
  | int n => exact unfolds_flat s rfl (flat?_wholeValue_eq n)
  | null | bool _ | float _ | str _ => exact unfolds_flat s rfl rfl
  | object _ => exact told.elim
  | list items =>
    obtain ⟨values, new, handles, loaded, inside, fresh⟩ := loadAll_unfolds items told s
    obtain ⟨id, newer, within, made, held, fresh⟩ := unfolds_alloc inside fresh
    refine ⟨.array id, newer, id :: within, ?_, held.single, fresh⟩
    rw [Json.load, loaded]
    dsimp only
    rw [made]

theorem loadAll_unfolds (items : List Json) (told : Json.AllExact items) (s : Store) :
    ∃ values new handles, Json.loadAll s items = .ok (values, s.grow new) ∧
      (s.grow new).Unfolds values (Json.treeAll items) handles ∧
      Between s.arrays.size (s.arrays.size + new.size) handles := by
  cases items with
  | nil =>
    refine ⟨[], #[], [], ?_, .nil, between_nil⟩
    rw [grow_empty]
    rfl
  | cons item rest =>
    obtain ⟨value, new, handles, here, tree, fresh⟩ := load_unfolds item told.1 s
    obtain ⟨values, newer, handles', there, trees, fresh'⟩ :=
      loadAll_unfolds rest told.2 (s.grow new)
    rw [grow_grow] at there trees
    rw [size_grow] at fresh'
    refine ⟨value :: values, new ++ newer, handles ++ handles', ?_, ?_, ?_⟩
    · rw [Json.loadAll, here]
      dsimp only
      rw [there]
    -- The later items only add arrays, so the tree of the first one stays.
    · refine Unfolds.append (tree.mono fun id member => ?_) trees
      rw [← grow_grow]
      exact members_grow _ _ (by rw [size_grow]; exact fresh.high id member)
    · rw [Array.size_append, ← Nat.add_assoc]
      exact fresh.append fresh' (Nat.le_add_right _ _) (Nat.le_add_right _ _)

end

theorem decode_unfolds {text : List Char} {json : Json} {items : List Json}
    (read : Json.ofText text = .ok json) (array : json.items? = some items)
    (told : Json.AllExact items) (t : Store) :
    ∃ copy new handles, t.decode text = .ok (copy, t.grow new) ∧
      (t.grow new).Unfolds ((t.grow new).members copy).toList (Json.treeAll items) handles ∧
      Between t.arrays.size (t.arrays.size + new.size) (copy :: handles) := by
  obtain ⟨values, new, handles, loaded, inside, fresh⟩ := loadAll_unfolds items told t
  obtain ⟨copy, newer, within, made, held, fresh⟩ := unfolds_alloc inside fresh
  refine ⟨copy, newer, within, ?_, held, fresh⟩
  cases json with
  | null =>
    cases array
    obtain ⟨rfl, same⟩ := Prod.mk.inj (Except.ok.inj loaded)
    rw [← same] at made
    rw [decode, read]
    exact congrArg Except.ok made
  | list items' =>
    cases array
    rw [decode, read]
    dsimp only
    rw [loaded]
    dsimp only
    rw [made]
  | _ => cases array

end Load

section RoundTrip

variable {trees : List Unfolding} {items : List Json}

theorem encode_eq_ok {s : Store} {values : List Value} {text : List Char}
    (encoded : s.encode values = .ok text) :
    ∃ items, Unfolding.anyRepeats (s.unfoldAll [] values) = false ∧
      Unfolding.membersJson (s.unfoldAll [] values) = .ok items ∧
      text = (Unfolding.listJson items).text := by
  rw [encode] at encoded
  split at encoded
  · cases encoded
  · rename_i once
    obtain ⟨items, written, same⟩ := Unfolding.map_eq_ok encoded
    exact ⟨items, Bool.eq_false_iff.mpr once, written, same⟩

theorem unfoldAll_of_unfold {s : Store} {id : ArrayId} (tree : s.unfold (.array id) = .array trees)
    (written : Unfolding.membersJson trees = .ok items) :
    s.unfoldAll [] (s.members id).toList = trees := by
  rw [unfold, unfoldIn, if_neg List.not_mem_nil] at tree
  have inside := Unfolding.array.inj tree
  obtain ⟨handles, members⟩ := s.unfolds_of_membersJson [id] (s.members id).toList
    ⟨items, by rw [inside]; exact written⟩
  rw [inside] at members
  exact members.unfoldAll_eq [] (by simp)

theorem decode_shallow (written : Unfolding.membersJson trees = .ok items) (t : Store)
    (read : Json.ofText (Unfolding.listJson items).text = .ok (Unfolding.listJson items)) :
    ∃ copy new handles, t.decode (Unfolding.listJson items).text = .ok (copy, t.grow new) ∧
      (t.grow new).Unfolds ((t.grow new).members copy).toList (Unfolding.rereadAll trees) handles ∧
      Between t.arrays.size (t.arrays.size + new.size) (copy :: handles) := by
  rw [← Unfolding.treeAll_of_membersJson trees written]
  exact decode_unfolds read (Unfolding.items?_listJson items)
    (Unfolding.membersJson_exact trees written).1 t

def shared : Store :=
  ⟨#[.empty none], #[#[.uint 7, .array ⟨1⟩, .array ⟨1⟩], #[.str "a"]], 0, ""⟩

def sharedTrees : List Unfolding := [.uint 7, .array [.str "a"], .array [.str "a"]]

theorem shared_unfoldAll : shared.unfoldAll [] (shared.members ⟨0⟩).toList = sharedTrees := by
  simp [shared, sharedTrees, members, unfoldAll, unfoldIn]

theorem shared_membersJson : Unfolding.membersJson (shared.unfoldAll [] (shared.members ⟨0⟩).toList) =
    .ok [.int 7, .list [.str "a"], .list [.str "a"]] := by
  rw [shared_unfoldAll]
  rfl

theorem shared_encode :
    shared.encode (shared.members ⟨0⟩).toList = .ok "[7,[\"a\"],[\"a\"]]".toList := by
  have once : Unfolding.anyRepeats sharedTrees = false := rfl
  have seven : (Int.repr 7).toList = ['7'] := Json.toString_toList 7
  rw [encode, shared_membersJson, shared_unfoldAll, once]
  simp [Except.map, Unfolding.listJson, Json.text, Json.textThen, Json.itemsThen, Json.scalarText,
    Json.quoted, seven, Json.quotedChar]

/-- What an array that has a text comes back as depends on its tree alone. It comes back as new
    arrays, of which no two are one, unless lists are nested more than 127 deep in the text. -/
theorem decode_encode {s : Store} {id : ArrayId} {text : List Char}
    (encoded : s.encode (s.members id).toList = .ok text) :
    ∃ trees, s.unfold (.array id) = .array trees ∧
      (∀ (u : Store) (other : ArrayId), u.unfold (.array other) = .array trees →
        u.encode (u.members other).toList = .ok text) ∧
      ∀ t : Store,
        ((Unfolding.array trees).depth ≤ 127 →
          ∃ copy new handles, t.decode text = .ok (copy, t.grow new) ∧
            (t.grow new).unfold (.array copy) = .array (Unfolding.rereadAll trees) ∧
            (t.grow new).Unfolds [.array copy] [.array (Unfolding.rereadAll trees)] handles ∧
            handles.Nodup ∧ ∀ made ∈ handles, t.arrays.size ≤ made.index) ∧
        (127 < (Unfolding.array trees).depth →
          ∃ line column, t.decode text = .error (.malformed .tooDeep line column)) := by
  obtain ⟨items, once, written, rfl⟩ := encode_eq_ok encoded
  have whole : (Unfolding.array (s.unfoldAll [] (s.members id).toList)).json =
      .ok (Unfolding.listJson items) := by
    rw [Unfolding.json, written]
    rfl
  obtain ⟨told, depth⟩ := Unfolding.json_exact _ whole
  obtain ⟨shallow, deep⟩ := Json.ofText_text _ told
  rw [depth] at shallow deep
  refine ⟨_, unfold_array_of_written written, ?_, fun t => ⟨?_, ?_⟩⟩
  · intro u other tree
    rw [encode, unfoldAll_of_unfold tree written, once, written]
    rfl
  · intro below
    obtain ⟨copy, new, handles, decoded, held, fresh⟩ :=
      decode_shallow written t (shallow (Nat.lt_succ_of_le below))
    exact ⟨copy, new, copy :: handles, decoded, held.unfold_array, held.single, fresh.nodup,
      fresh.low⟩
  · intro above
    obtain ⟨offset, refused⟩ := deep above
    rw [decode, refused]
    exact ⟨_, _, rfl⟩

/-- The two become arrays of their own. -/
theorem decode_encode_shared :
    shared.encode (shared.members ⟨0⟩).toList = .ok "[7,[\"a\"],[\"a\"]]".toList ∧
      ∃ copy new handles,
        initial.decode "[7,[\"a\"],[\"a\"]]".toList = .ok (copy, initial.grow new) ∧
        (initial.grow new).Unfolds [.array copy]
          [.array [.int 7, .array [.str "a"], .array [.str "a"]]] handles ∧
        handles.Nodup := by
  refine ⟨shared_encode, ?_⟩
  obtain ⟨trees, tree, -, decoded⟩ := decode_encode shared_encode
  rw [unfold_array_of_written shared_membersJson, shared_unfoldAll] at tree
  obtain rfl := Unfolding.array.inj tree
  obtain ⟨copy, new, handles, same, -, unfolds, nodup, -⟩ := (decoded initial).1 (by decide)
  exact ⟨copy, new, handles, same, unfolds, nodup⟩

end RoundTrip

end Store

end MonkeyLang
