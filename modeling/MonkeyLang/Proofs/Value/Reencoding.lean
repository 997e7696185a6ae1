import MonkeyLang.Proofs.Json.Accepted
import MonkeyLang.Proofs.Value.Codec

namespace MonkeyLang

namespace Json

section Fits

mutual

theorem Fits.exact {level : Nat} {json : Json} (fits : json.Fits level)
    (room : level < depthLimit) {s t : Store} {value : Value}
    (loaded : load s json = .ok (value, t)) : json.Exact ∧ level + json.depth < depthLimit := by
  cases json with
  | null | bool _ | str _ => exact ⟨trivial, room⟩
  | int n =>
    cases fits with
    | int low high => exact ⟨⟨low, high⟩, room⟩
  | float x =>
    cases fits with
    | float finite => exact ⟨finite, room⟩
  | object _ => cases loaded
  | list items =>
    cases fits with
    | list inner inside =>
      rw [load] at loaded
      split at loaded
      · cases loaded
      · rename_i found
        have all := allExact_of_fits inside inner found
        refine ⟨all.1, ?_⟩
        rw [depth]
        omega

theorem allExact_of_fits {level : Nat} {items : List Json}
    (fits : ∀ item ∈ items, item.Fits level) (room : level < depthLimit) {s t : Store}
    {values : List Value} (loaded : loadAll s items = .ok (values, t)) :
    AllExact items ∧ level + depthAll items < depthLimit := by
  cases items with
  | nil => exact ⟨trivial, room⟩
  | cons item rest =>
    obtain ⟨first, others⟩ := List.forall_mem_cons.mp fits
    rw [loadAll] at loaded
    split at loaded
    · cases loaded
    · rename_i here
      split at loaded
      · cases loaded
      · rename_i later
        have told := first.exact room here
        have all := allExact_of_fits others room later
        refine ⟨⟨told.1, all.1⟩, ?_⟩
        rw [depthAll]
        omega

end

theorem exact_of_items? {json : Json} {items : List Json} (fits : json.Fits 0)
    (array : json.items? = some items) {s t : Store} {values : List Value}
    (loaded : loadAll s items = .ok (values, t)) :
    AllExact items ∧ depthAll items + 1 < depthLimit := by
  cases json with
  | null =>
    cases array
    exact ⟨trivial, by decide⟩
  | list inner =>
    cases array
    cases fits with
    | list room inside =>
      obtain ⟨told, shallow⟩ := allExact_of_fits inside room loaded
      exact ⟨told, by omega⟩
  | _ => cases array

end Fits

end Json

namespace Unfolding

mutual

def emptiesNil : Unfolding → Unfolding
  | array members => if members.isEmpty then .nil else .array (emptiesNilAll members)
  | tree => tree

def emptiesNilAll : List Unfolding → List Unfolding
  | [] => []
  | member :: rest => member.emptiesNil :: emptiesNilAll rest

end

mutual

theorem json_emptiesNil (tree : Unfolding) : tree.emptiesNil.json = tree.json := by
  cases tree with
  | array members =>
    rw [emptiesNil]
    rcases members with _ | ⟨member, rest⟩
    · rfl
    · rw [List.isEmpty_cons, if_neg Bool.false_ne_true, json, json, membersJson_emptiesNilAll]
  | _ => rfl

theorem membersJson_emptiesNilAll (members : List Unfolding) :
    membersJson (emptiesNilAll members) = membersJson members := by
  cases members with
  | nil => rfl
  | cons member rest =>
    rw [emptiesNilAll, membersJson, membersJson, json_emptiesNil, membersJson_emptiesNilAll]

end

mutual

theorem repeats_eq_false (tree : Unfolding) {item : Json} (written : tree.json = .ok item) :
    tree.repeats = false := by
  cases tree with
  | array members =>
    obtain ⟨items, within, -⟩ := json_array written
    exact anyRepeats_eq_false members within
  | again => cases written
  | _ => rfl

theorem anyRepeats_eq_false (members : List Unfolding) {items : List Json}
    (written : membersJson members = .ok items) : anyRepeats members = false := by
  cases members with
  | nil => rfl
  | cons member rest =>
    obtain ⟨item, others, first, later, -⟩ := membersJson_cons written
    rw [anyRepeats, repeats_eq_false member first, anyRepeats_eq_false rest later]
    rfl

end

end Unfolding

namespace Json

open Unfolding

mutual

theorem json_tree (json : Json) (told : json.Exact) : ∃ item, json.tree.json = .ok item := by
  cases json with
  | null | bool _ | str _ => exact ⟨_, rfl⟩
  | int n =>
    rw [tree]
    split <;> exact ⟨_, rfl⟩
  | float x =>
    have finite : x.isFinite = true := told
    rw [tree, Unfolding.json, if_pos finite]
    exact ⟨_, rfl⟩
  | object _ => exact told.elim
  | list items =>
    obtain ⟨written, within⟩ := membersJson_treeAll items told
    rw [tree, Unfolding.json, within]
    exact ⟨_, rfl⟩

theorem membersJson_treeAll (items : List Json) (told : AllExact items) :
    ∃ written, membersJson (treeAll items) = .ok written := by
  cases items with
  | nil => exact ⟨_, rfl⟩
  | cons item rest =>
    obtain ⟨first, here⟩ := json_tree item told.1
    obtain ⟨others, later⟩ := membersJson_treeAll rest told.2
    rw [treeAll, membersJson, here, later]
    exact ⟨_, rfl⟩

end

mutual

theorem depth_tree_le (json : Json) : json.tree.depth ≤ json.depth := by
  cases json with
  | int n =>
    rw [tree]
    split <;> exact Nat.zero_le _
  | list items =>
    have inside := depthAll_treeAll_le items
    rw [tree, Unfolding.depth, depth]
    split <;> omega
  | _ => exact Nat.zero_le _

theorem depthAll_treeAll_le (items : List Json) :
    Unfolding.depthAll (treeAll items) ≤ depthAll items := by
  cases items with
  | nil => exact Nat.le_refl _
  | cons item rest =>
    have first := depth_tree_le item
    have later := depthAll_treeAll_le rest
    rw [treeAll, Unfolding.depthAll, depthAll]
    omega

end

mutual

/-- Unsigned numbers that fit a signed one are read as such at once, so only empty arrays change. -/
theorem reread_tree (json : Json) (told : json.Exact) :
    json.tree.reread = json.tree.emptiesNil := by
  cases json with
  | int n =>
    obtain ⟨low, high⟩ := told
    rw [tree]
    split
    · rfl
    · rename_i large
      have whole : (UInt64.ofNat n.toNat).toNat = n.toNat := by
        rw [UInt64.toNat_ofNat']
        omega
      rw [reread, whole, if_neg (by omega)]
      rfl
  | null | bool _ | float _ | str _ => rfl
  | object _ => exact told.elim
  | list items => rw [tree, reread, emptiesNil, rereadAll_treeAll items told]

theorem rereadAll_treeAll (items : List Json) (told : AllExact items) :
    rereadAll (treeAll items) = emptiesNilAll (treeAll items) := by
  cases items with
  | nil => rfl
  | cons item rest =>
    rw [treeAll, rereadAll, emptiesNilAll, reread_tree item told.1, rereadAll_treeAll rest told.2]

end

end Json

namespace Store

theorem decode_eq_ok {s t : Store} {id : ArrayId} {text : List Char}
    (decoded : s.decode text = .ok (id, t)) :
    ∃ json items values u, Json.ofText text = .ok json ∧ json.items? = some items ∧
      Json.loadAll s items = .ok (values, u) := by
  unfold decode at decoded
  split at decoded
  · cases decoded
  · rename_i read
    exact ⟨_, _, _, _, read, rfl, rfl⟩
  · rename_i items read
    split at decoded
    · cases decoded
    · rename_i members u loaded
      exact ⟨_, _, _, _, read, rfl, loaded⟩
  · cases decoded

theorem encode_of_unfolds {s : Store} {id : ArrayId} {trees : List Unfolding}
    {handles : List ArrayId} {items : List Json}
    (held : s.Unfolds (s.members id).toList trees handles)
    (written : Unfolding.membersJson trees = .ok items) :
    s.encode (s.members id).toList = .ok (Unfolding.listJson items).text := by
  rw [encode, held.unfoldAll_eq [] (by simp), Unfolding.anyRepeats_eq_false trees written, written]
  rfl

theorem read_text_of_shallow {items written : List Json}
    (shallow : Json.depthAll items + 1 < Json.depthLimit)
    (again : Unfolding.membersJson (Json.treeAll items) = .ok written) :
    Json.ofText (Unfolding.listJson written).text = .ok (Unfolding.listJson written) := by
  have whole : (Json.list items).tree.json = .ok (Unfolding.listJson written) := by
    rw [Json.tree, Unfolding.json, again]
    rfl
  obtain ⟨exact, depth⟩ := Unfolding.json_exact _ whole
  have less := Json.depth_tree_le (.list items)
  rw [Json.depth] at less
  exact (Json.ofText_text _ exact).1 (by omega)

/-- An array that was decoded has a text, and that text stays: it is decoded as the same array, but
    for nil in place of the empty arrays inside, and that is written as the same text. -/
theorem encode_decode {s t : Store} {id : ArrayId} {text : List Char}
    (decoded : s.decode text = .ok (id, t)) :
    ∃ trees written, t.unfold (.array id) = .array trees ∧
      t.encode (t.members id).toList = .ok written ∧
      ∀ u : Store, ∃ copy new, u.decode written = .ok (copy, u.grow new) ∧
        (u.grow new).unfold (.array copy) = .array (Unfolding.emptiesNilAll trees) ∧
        (u.grow new).encode ((u.grow new).members copy).toList = .ok written := by
  obtain ⟨json, items, values, w, read, array, loaded⟩ := decode_eq_ok decoded
  obtain ⟨told, shallow⟩ := Json.exact_of_items? (Json.fits_ofText read) array loaded
  obtain ⟨id', new, handles, same, held, -⟩ := decode_unfolds read array told s
  cases decoded.symm.trans same
  obtain ⟨written, again⟩ := Json.membersJson_treeAll items told
  refine ⟨_, _, held.unfold_array, encode_of_unfolds held again, fun u => ?_⟩
  obtain ⟨copy, newer, handles', back, held', -⟩ :=
    decode_shallow again u (read_text_of_shallow shallow again)
  rw [Json.rereadAll_treeAll items told] at held'
  rw [← Unfolding.membersJson_emptiesNilAll] at again
  exact ⟨copy, newer, back, held'.unfold_array, encode_of_unfolds held' again⟩

/-- The text `[ [], 7 ]` becomes `[null,7]`. -/
theorem encode_decode_empty :
    ∃ id t written, initial.decode ['[', ' ', '[', ']', ',', ' ', '7', ' ', ']'] = .ok (id, t) ∧
      t.encode (t.members id).toList = .ok written ∧
      ∃ copy new, initial.decode written = .ok (copy, initial.grow new) ∧
        (initial.grow new).unfold (.array copy) = .array [.nil, .int 7] := by
  have read : Json.ofText ['[', ' ', '[', ']', ',', ' ', '7', ' ', ']'] =
      .ok (.list [.list [], .int 7]) := rfl
  have decoded : initial.decode ['[', ' ', '[', ']', ',', ' ', '7', ' ', ']'] =
      .ok (⟨1⟩, initial.grow #[#[], #[.array ⟨0⟩, .int 7]]) := by
    rw [decode, read]
    rfl
  obtain ⟨trees, written, tree, encoded, again⟩ := encode_decode decoded
  obtain ⟨copy, new, back, same, -⟩ := again initial
  refine ⟨_, _, written, decoded, encoded, copy, new, back, same.trans ?_⟩
  have known : (initial.grow #[#[], #[.array ⟨0⟩, .int 7]]).unfold (.array ⟨1⟩) =
      .array [.array [], .int 7] := by
    simp [unfold, unfoldIn, unfoldAll, members, grow, initial]
  rw [known] at tree
  obtain rfl := Unfolding.array.inj tree
  rfl

end Store

end MonkeyLang
