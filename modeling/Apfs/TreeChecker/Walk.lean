import Apfs.Ctree

/-!
# The leaf and node walks

`check_leaf` and `apfs_check_node` each begin with an unconditional
`return 0`; the checks written below that statement are modelled here as
{lit}`leafWalk` and {lit}`checkNodeWalk`.  The leaf walk is stated for any
per-item checker, the role `check_leaf_item` plays when `check_item_data` is
set, so that what the walk enforces is proved once, independently of the item
validators.  A message argument that loads a member again is a logged read, as
in the code.

Main results:

- Theorems {lit}`leafSlot_val` and {lit}`nodeSlot_val`: what one iteration of
  each loop decides, as a chain of conditions on the values it reads.
- Theorem {lit}`leafSlots_val_eq_zero_iff`: the leaf loop accepts exactly when
  every slot in its range passes.
- Theorem {lit}`nodeSlots_val_eq_zero_iff`: the node loop accepts exactly when
  every slot below the last passes.
-/

namespace Apfs

variable {F : Format} (fs : FsInfo F)

/-! ## The leaf walk -/

section Leaf

variable (leaf : ExtentBuffer) (checkItemData : Bool)
  (checkItem : Key → Nat → Key → CheckM Int)

/-- The end `check_leaf` expects of item `slot`: the end of the data area for
slot 0, the start of the previous item's data otherwise. -/
def itemEndExpectedAt (slot : Nat) : CheckM Nat :=
  if slot = 0 then pure fs.leafDataSize else itemOffsetNr F leaf (slot - 1)

/-- One iteration of the slot loop of `check_leaf`: `.ok key` continues with
`key` as the previous key, `.error ret` returns `ret`. -/
def leafSlot (slot : Nat) (prevKey : Key) : CheckM (Except Int Key) := do
  let key ← itemKeyToCpu F leaf slot
  if compCpuKeys prevKey key ≥ 0 then
    genericErr F leaf slot "bad key order, prev (%llu %u %llu) current (%llu %u %llu)"
    return .error (-EUCLEAN)
  let itemEndExpected ← itemEndExpectedAt fs leaf slot
  let itemEnd ← itemEndNr F leaf slot
  if itemEnd ≠ itemEndExpected then
    let _ ← itemEndNr F leaf slot
    genericErr F leaf slot "unexpected item end, have %u expect %u"
    return .error (-EUCLEAN)
  let itemEnd ← itemEndNr F leaf slot
  if itemEnd > fs.leafDataSize then
    let _ ← itemEndNr F leaf slot
    genericErr F leaf slot "slot end outside of leaf, have %u expect range [0, %u]"
    return .error (-EUCLEAN)
  if checkItemData then
    let ret ← checkItem key slot prevKey
    if ret < 0 then
      return .error ret
  return .ok key

/-- The slot loop of `check_leaf` from `slot` on, with `remaining` slots left. -/
def leafSlots : (slot : Nat) → (prevKey : Key) → (remaining : Nat) → CheckM Int
  | _, _, 0 => pure 0
  | slot, prevKey, remaining + 1 => do
    match ← leafSlot fs leaf checkItemData checkItem slot prevKey with
    | .error ret => pure ret
    | .ok key => leafSlots (slot + 1) key remaining

/-- `check_leaf` after its `return 0`: the level check, the empty-leaf rules,
then the slot loop from the all-zero key. -/
def leafWalk : CheckM Int := do
  let nritems ← headerNritems F leaf
  let level ← headerLevel F leaf
  if level ≠ 0 then
    let _ ← headerLevel F leaf
    genericErr F leaf 0 "invalid level for leaf, have %d expect 0"
    return -EUCLEAN
  if nritems = 0 then
    let reloc ← headerFlag F leaf F.headerFlagReloc
    if !reloc then
      let owner ← headerOwner F leaf
      if owner = F.rootTreeObjectid ∨ owner = F.chunkTreeObjectid ∨
          owner = F.extentTreeObjectid ∨ owner = F.devTreeObjectid ∨
          owner = F.fsTreeObjectid ∨ owner = F.dataRelocTreeObjectid then
        genericErr F leaf 0 "invalid root, root %llu must never be empty"
        return -EUCLEAN
      if owner = 0 then
        genericErr F leaf 0 "invalid owner, root 0 is not defined"
        return -EUCLEAN
      return 0
  if nritems = 0 then
    return 0
  leafSlots fs leaf checkItemData checkItem 0 Key.zero nritems

/-- The key of item `slot`, as the walk reads it. -/
def keyAt (F : Format) (leaf : ExtentBuffer) (slot : Nat) : Key :=
  (itemKeyToCpu F leaf slot).val

/-- The data offset of item `slot`, as `apfs_item_offset_nr` reads it. -/
def offsetAt (F : Format) (leaf : ExtentBuffer) (slot : Nat) : Nat :=
  (itemOffsetNr F leaf slot).val

/-- The data size of item `slot`, as `apfs_item_size_nr` reads it. -/
def sizeAt (F : Format) (leaf : ExtentBuffer) (slot : Nat) : Nat :=
  (itemSizeNr F leaf slot).val

/-- The end of item `slot`'s data as `apfs_item_end_nr` computes it, in `u32`
arithmetic. -/
def endAt (F : Format) (leaf : ExtentBuffer) (slot : Nat) : Nat :=
  (offsetAt F leaf slot + sizeAt F leaf slot) % 2 ^ 32

/-- The key the walk compares item `slot` with: the zero key for slot 0, the
key of the slot before otherwise. -/
def prevKeyAt (F : Format) (leaf : ExtentBuffer) (slot : Nat) : Key :=
  if slot = 0 then Key.zero else keyAt F leaf (slot - 1)

@[simp]
theorem prevKeyAt_zero (F : Format) (leaf : ExtentBuffer) : prevKeyAt F leaf 0 = Key.zero :=
  rfl

@[simp]
theorem prevKeyAt_succ (F : Format) (leaf : ExtentBuffer) (slot : Nat) :
    prevKeyAt F leaf (slot + 1) = keyAt F leaf slot :=
  rfl

/-- The end the walk expects of item `slot`, as a value. -/
def expectedEnd (slot : Nat) : Nat :=
  if slot = 0 then fs.leafDataSize else offsetAt F leaf (slot - 1)

@[simp]
theorem expectedEnd_zero : expectedEnd fs leaf 0 = fs.leafDataSize :=
  rfl

@[simp]
theorem expectedEnd_succ (slot : Nat) : expectedEnd fs leaf (slot + 1) = offsetAt F leaf slot :=
  rfl

@[simp]
theorem itemEndNr_val (slot : Nat) : (itemEndNr F leaf slot).val = endAt F leaf slot :=
  rfl

@[simp]
theorem itemEndExpectedAt_val (slot : Nat) :
    (itemEndExpectedAt fs leaf slot).val = expectedEnd fs leaf slot := by
  unfold itemEndExpectedAt expectedEnd
  split <;> rfl

/-- What one iteration decides, read off the values it loads. -/
theorem leafSlot_val (slot : Nat) (prevKey : Key) :
    (leafSlot fs leaf checkItemData checkItem slot prevKey).val =
      if ¬prevKey.Lt (keyAt F leaf slot) then .error (-EUCLEAN)
      else if endAt F leaf slot ≠ expectedEnd fs leaf slot then .error (-EUCLEAN)
      else if endAt F leaf slot > fs.leafDataSize then .error (-EUCLEAN)
      else if checkItemData then
        if (checkItem (keyAt F leaf slot) slot prevKey).val < 0 then
          .error (checkItem (keyAt F leaf slot) slot prevKey).val
        else .ok (keyAt F leaf slot)
      else .ok (keyAt F leaf slot) := by
  simp only [leafSlot, CheckM.bind_val, CheckM.pure_val, compCpuKeys_ge_zero_iff,
    apply_ite CheckM.val, itemEndNr_val, itemEndExpectedAt_val]
  rfl

theorem leafSlot_val_ok {slot : Nat} {prevKey key : Key}
    (h : (leafSlot fs leaf checkItemData checkItem slot prevKey).val = .ok key) :
    key = keyAt F leaf slot ∧ prevKey.Lt key ∧ endAt F leaf slot = expectedEnd fs leaf slot ∧
      endAt F leaf slot ≤ fs.leafDataSize ∧
      (checkItemData = true → 0 ≤ (checkItem key slot prevKey).val) := by
  rw [leafSlot_val] at h
  split_ifs at h with h1 h2 h3 h4 h5 <;> obtain rfl := (Except.ok.inj h).symm
  · exact ⟨rfl, h1, not_not.1 h2, Nat.le_of_not_lt h3, fun _ => Int.not_lt.1 h5⟩
  · exact ⟨rfl, h1, not_not.1 h2, Nat.le_of_not_lt h3, fun h => absurd h h4⟩

/-- An iteration that stops returns a negative value. -/
theorem leafSlot_val_error {slot : Nat} {prevKey : Key} {ret : Int}
    (h : (leafSlot fs leaf checkItemData checkItem slot prevKey).val = .error ret) : ret < 0 := by
  rw [leafSlot_val] at h
  split_ifs at h <;> cases h <;> first | decide | omega

/-- Slot `slot` passes every check of one iteration, from `prevKey`. -/
def LeafSlotPasses (slot : Nat) (prevKey : Key) : Prop :=
  (leafSlot fs leaf checkItemData checkItem slot prevKey).val = .ok (keyAt F leaf slot)

theorem leafSlots_succ_val (slot : Nat) (prevKey : Key) (remaining : Nat) :
    (leafSlots fs leaf checkItemData checkItem slot prevKey (remaining + 1)).val =
      match (leafSlot fs leaf checkItemData checkItem slot prevKey).val with
      | .error ret => ret
      | .ok key => (leafSlots fs leaf checkItemData checkItem (slot + 1) key remaining).val := by
  simp only [leafSlots, CheckM.bind_val]
  split <;> rfl

/-- The loop accepts exactly when every slot in its range passes, each from
the key of the slot before it. -/
theorem leafSlots_val_eq_zero_iff (remaining slot : Nat) (prevKey : Key) :
    (leafSlots fs leaf checkItemData checkItem slot prevKey remaining).val = 0 ↔
      ∀ i < remaining, LeafSlotPasses fs leaf checkItemData checkItem (slot + i)
        (if i = 0 then prevKey else keyAt F leaf (slot + i - 1)) := by
  induction remaining generalizing slot prevKey with
  | zero => simp [leafSlots]
  | succ remaining ih =>
    rw [leafSlots_succ_val]
    split
    · rename_i ret hret
      have hneg := leafSlot_val_error fs leaf checkItemData checkItem hret
      refine ⟨fun h => absurd h (by omega), fun h => ?_⟩
      have h0 := h 0 (Nat.succ_pos _)
      rw [if_pos rfl, Nat.add_zero, LeafSlotPasses, hret] at h0
      cases h0
    · rename_i key hkey
      obtain ⟨rfl, -⟩ := leafSlot_val_ok fs leaf checkItemData checkItem hkey
      have hshift : ∀ i, LeafSlotPasses fs leaf checkItemData checkItem (slot + 1 + i)
          (if i = 0 then keyAt F leaf slot else keyAt F leaf (slot + 1 + i - 1)) ↔
          LeafSlotPasses fs leaf checkItemData checkItem (slot + (i + 1))
            (if i + 1 = 0 then prevKey else keyAt F leaf (slot + (i + 1) - 1)) := by
        intro i
        rw [if_neg (Nat.succ_ne_zero i), show slot + (i + 1) = slot + 1 + i by omega,
          show slot + 1 + i - 1 = slot + i by omega]
        split_ifs with hi
        · subst hi; rfl
        · rfl
      rw [ih, Nat.forall_lt_succ_left']
      simp only [hshift, if_pos rfl, Nat.add_zero]
      exact ⟨fun h => ⟨hkey, h⟩, fun h => h.2⟩

/-- The number of items the header declares. -/
def nritemsAt (F : Format) (eb : ExtentBuffer) : Nat :=
  (headerNritems F eb).val

/-- The level the header declares. -/
def levelAt (F : Format) (eb : ExtentBuffer) : Nat :=
  (headerLevel F eb).val

/-- A leaf whose header level is not 0 is rejected before anything else. -/
theorem leafWalk_val_of_level_ne_zero (h : levelAt F leaf ≠ 0) :
    (leafWalk fs leaf checkItemData checkItem).val = -EUCLEAN := by
  simp only [levelAt] at h
  simp [leafWalk, h]

/-- A leaf of level 0 with items is decided by the slot loop. -/
theorem leafWalk_val_of_items (hlevel : levelAt F leaf = 0) (hn : nritemsAt F leaf ≠ 0) :
    (leafWalk fs leaf checkItemData checkItem).val =
      (leafSlots fs leaf checkItemData checkItem 0 Key.zero (nritemsAt F leaf)).val := by
  simp only [levelAt, nritemsAt] at hlevel hn ⊢
  simp [leafWalk, hlevel, hn]

end Leaf

/-! ## The node walk -/

section Node

variable (node : ExtentBuffer)

/-- One iteration of the pointer loop of `apfs_check_node`: `.error ret`
returns `ret`. -/
def nodeSlot (slot : Nat) : CheckM (Except Int Unit) := do
  let bytenr ← nodeBlockptr F node slot
  let key ← nodeKeyToCpu F node slot
  let nextKey ← nodeKeyToCpu F node (slot + 1)
  if bytenr = 0 then
    genericErr F node slot "invalid NULL node pointer"
    return .error (-EUCLEAN)
  if !isAligned bytenr fs.sectorsize then
    genericErr F node slot "unaligned pointer, have %llu should be aligned to %u"
    return .error (-EUCLEAN)
  if compCpuKeys key nextKey ≥ 0 then
    genericErr F node slot "bad key order, current (%llu %u %llu) next (%llu %u %llu)"
    return .error (-EUCLEAN)
  return .ok ()

/-- The pointer loop of `apfs_check_node` from `slot` on, with `remaining`
iterations left. -/
def nodeSlots : (slot : Nat) → (remaining : Nat) → CheckM Int
  | _, 0 => pure 0
  | slot, remaining + 1 => do
    match ← nodeSlot fs node slot with
    | .error ret => pure ret
    | .ok () => nodeSlots (slot + 1) remaining

/-- `apfs_check_node` after its `return 0`: the level and item-count checks,
then the loop over `slot < nr - 1`. -/
def checkNodeWalk : CheckM Int := do
  let nr ← headerNritems F node
  let level ← headerLevel F node
  if level ≤ 0 ∨ level ≥ F.maxLevel then
    genericErr F node 0 "invalid level for node, have %d expect [1, %d]"
    return -EUCLEAN
  if nr = 0 then
    let _ ← headerOwner F node
    crit none "corrupt node: root=%llu block=%llu, have 0 items"
    return -EUCLEAN
  nodeSlots fs node 0 (nr - 1)

/-- The child address of key pointer `slot`, as `apfs_node_blockptr` reads
it. -/
def blockptrAt (F : Format) (node : ExtentBuffer) (slot : Nat) : Nat :=
  (nodeBlockptr F node slot).val

/-- The key of key pointer `slot`, as `apfs_node_key_to_cpu` reads it. -/
def nodeKeyAt (F : Format) (node : ExtentBuffer) (slot : Nat) : Key :=
  (nodeKeyToCpu F node slot).val

/-- What one iteration decides, read off the values it loads. -/
theorem nodeSlot_val (slot : Nat) :
    (nodeSlot fs node slot).val =
      if blockptrAt F node slot = 0 then .error (-EUCLEAN)
      else if !isAligned (blockptrAt F node slot) fs.sectorsize then .error (-EUCLEAN)
      else if ¬(nodeKeyAt F node slot).Lt (nodeKeyAt F node (slot + 1)) then .error (-EUCLEAN)
      else .ok () := by
  simp only [nodeSlot, CheckM.bind_val, CheckM.pure_val, blockptrAt, nodeKeyAt]
  split_ifs with h1 h2 h3 h4 h4 <;>
    first
    | rfl
    | exact absurd h3 ((compCpuKeys_ge_zero_iff _ _).not.2 (not_not.2 h4))
    | exact h3 ((compCpuKeys_ge_zero_iff _ _).2 h4)

/-- Key pointer `slot` has a nonzero, sector-aligned child and a key below the
next one. -/
def NodeSlotPasses (slot : Nat) : Prop :=
  blockptrAt F node slot ≠ 0 ∧ isAligned (blockptrAt F node slot) fs.sectorsize = true ∧
    (nodeKeyAt F node slot).Lt (nodeKeyAt F node (slot + 1))

theorem nodeSlot_val_eq_ok_iff (slot : Nat) :
    (nodeSlot fs node slot).val = .ok () ↔ NodeSlotPasses fs node slot := by
  rw [nodeSlot_val, NodeSlotPasses]
  split_ifs with h1 h2 h3
  · exact iff_of_false (by simp) fun h => h.1 h1
  · exact iff_of_false (by simp) fun h => by simp [h.2.1] at h2
  · exact iff_of_true rfl ⟨h1, by simpa using h2, h3⟩
  · exact iff_of_false (by simp) fun h => h3 h.2.2

theorem nodeSlot_val_error {slot : Nat} {ret : Int} (h : (nodeSlot fs node slot).val = .error ret) :
    ret < 0 := by
  rw [nodeSlot_val] at h
  split_ifs at h <;> cases h <;> decide

/-- The node loop accepts exactly when every iteration in its range passes. -/
theorem nodeSlots_val_eq_zero_iff (remaining slot : Nat) :
    (nodeSlots fs node slot remaining).val = 0 ↔
      ∀ i < remaining, NodeSlotPasses fs node (slot + i) := by
  induction remaining generalizing slot with
  | zero => simp [nodeSlots]
  | succ remaining ih =>
    have hstep : (nodeSlots fs node slot (remaining + 1)).val =
        match (nodeSlot fs node slot).val with
        | .error ret => ret
        | .ok () => (nodeSlots fs node (slot + 1) remaining).val := by
      simp only [nodeSlots, CheckM.bind_val]
      split <;> rfl
    rw [hstep, Nat.forall_lt_succ_left']
    simp only [Nat.add_zero]
    rw [← nodeSlot_val_eq_ok_iff]
    split
    · rename_i ret hret
      have := nodeSlot_val_error fs node hret
      simp only [hret, reduceCtorEq, false_and, iff_false]
      omega
    · rename_i hok
      rw [ih]
      constructor
      · intro h
        exact ⟨hok, fun i hi => by simpa only [Nat.add_assoc, Nat.add_comm 1 i] using h i hi⟩
      · intro h i hi
        simpa only [Nat.add_assoc, Nat.add_comm 1 i] using h.2 i hi

/-- A node whose level is out of range is rejected. -/
theorem checkNodeWalk_val_of_level (h : levelAt F node ≤ 0 ∨ levelAt F node ≥ F.maxLevel) :
    (checkNodeWalk fs node).val = -EUCLEAN := by
  simp only [levelAt] at h
  simp only [checkNodeWalk, CheckM.bind_val, CheckM.pure_val, if_pos h]

/-- A node of valid level with no items is rejected. -/
theorem checkNodeWalk_val_of_empty (h : ¬(levelAt F node ≤ 0 ∨ levelAt F node ≥ F.maxLevel))
    (hn : nritemsAt F node = 0) : (checkNodeWalk fs node).val = -EUCLEAN := by
  simp only [levelAt, nritemsAt] at h hn
  simp only [checkNodeWalk, CheckM.bind_val, CheckM.pure_val, if_neg h, if_pos hn]

/-- A node of valid level with items is decided by the pointer loop. -/
theorem checkNodeWalk_val_of_items (h : ¬(levelAt F node ≤ 0 ∨ levelAt F node ≥ F.maxLevel))
    (hn : nritemsAt F node ≠ 0) :
    (checkNodeWalk fs node).val = (nodeSlots fs node 0 (nritemsAt F node - 1)).val := by
  simp only [levelAt, nritemsAt] at h hn
  simp only [checkNodeWalk, CheckM.bind_val, CheckM.pure_val, if_neg h, if_neg hn]
  rfl

end Node

end Apfs
