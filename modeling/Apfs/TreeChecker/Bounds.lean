import Apfs.TreeChecker.Layout

/-!
# Loads past the end of a block

Every accessor of `struct-funcs.c` checks its range with
`check_setget_bounds` and asserts on a range past the end of the buffer.  The
walks bound their loops only by the header's `nritems`, which nothing compares
with the room the block has: a leaf with more item headers than fit, or a node
with more key pointers, is walked slot by slot past the end of the buffer as
long as the slots before pass.  Inside an item, `check_inode_ref` guards each
record with `sizeof(iref)`, the size of a pointer, where the record is
`sizeof(*iref)` bytes, and loads the name length of a truncated record past
the item.

A load is an {lit}`Event.read` of the log of {lit}`CheckM`.  The lemmas say
which loads a loop makes once the iterations before have passed, and the
theorems conclude that a load runs past the buffer or the item.

Main results:

- Theorem {lit}`check_leaf_walk_reads_past_buffer`: the leaf walk loads the
  header of every slot whose predecessors pass, in the buffer or not.
- Theorem {lit}`check_node_walk_reads_past_buffer`: the node walk loads the
  key after every slot whose predecessors pass, in the buffer or not.
- Theorem {lit}`check_walks_read_inside_buffer`: when the declared table fits
  in the buffer, the relaxed leaf walk and the node walk load only inside it.
- Theorem {lit}`check_inode_ref_reads_past_item`: an inode ref item ending in
  a record of 8 or 9 bytes makes `check_inode_ref` load past the item.
-/

namespace Apfs

variable {F : Format} (fs : FsInfo F)

/-! ## Loads of the leaf walk -/

section Leaf

variable (leaf : ExtentBuffer) (checkItemData : Bool)
  (checkItem : Key → Nat → Key → CheckM Int)

/-- An iteration whose key is in order loads the item's size, the last member
of its header. -/
theorem leafSlot_log_size {slot : Nat} {prevKey : Key} (h : prevKey.Lt (keyAt F leaf slot)) :
    Event.read (itemNrOffset F slot + diskKeySize + 4) 4 ∈
      (leafSlot fs leaf checkItemData checkItem slot prevKey).log := by
  have hc : ¬compCpuKeys prevKey (itemKeyToCpu F leaf slot).val ≥ 0 := fun hge =>
    (compCpuKeys_ge_zero_iff _ _).1 hge h
  simp only [leafSlot, CheckM.bind_log]
  rw [if_neg hc]
  simp [itemEndNr, itemOffsetNr, itemSizeNr, readLe]

theorem leafSlots_succ_log (slot : Nat) (prevKey : Key) (remaining : Nat) :
    (leafSlots fs leaf checkItemData checkItem slot prevKey (remaining + 1)).log =
      (leafSlot fs leaf checkItemData checkItem slot prevKey).log ++
        match (leafSlot fs leaf checkItemData checkItem slot prevKey).val with
        | .error _ => []
        | .ok key => (leafSlots fs leaf checkItemData checkItem (slot + 1) key remaining).log := by
  simp only [leafSlots, CheckM.bind_log]
  split <;> rename_i h <;> simp only [h, CheckM.pure_log]

/-- Once the `k` slots from `slot` on pass, the loop makes every load of slot
`slot + k`. -/
theorem leafSlots_log_of_passes (k : Nat) :
    ∀ slot remaining, k < remaining →
      (∀ i < k, LeafSlotPasses fs leaf checkItemData checkItem (slot + i)
        (prevKeyAt F leaf (slot + i))) →
      ∀ e ∈ (leafSlot fs leaf checkItemData checkItem (slot + k)
          (prevKeyAt F leaf (slot + k))).log,
        e ∈ (leafSlots fs leaf checkItemData checkItem slot (prevKeyAt F leaf slot)
          remaining).log := by
  induction k with
  | zero =>
    intro slot remaining hk _ e he
    obtain ⟨r, rfl⟩ : ∃ r, remaining = r + 1 := ⟨remaining - 1, by omega⟩
    rw [Nat.add_zero] at he
    rw [leafSlots_succ_log]
    exact List.mem_append_left _ he
  | succ k ih =>
    intro slot remaining hk hpass e he
    obtain ⟨r, rfl⟩ : ∃ r, remaining = r + 1 := ⟨remaining - 1, by omega⟩
    have h0 : (leafSlot fs leaf checkItemData checkItem slot (prevKeyAt F leaf slot)).val =
        .ok (keyAt F leaf slot) := hpass 0 (Nat.succ_pos k)
    rw [leafSlots_succ_log, h0, ← prevKeyAt_succ]
    refine List.mem_append_right _ (ih (slot + 1) r (by omega) (fun i hi => ?_) e ?_)
    · simpa only [Nat.add_right_comm slot 1 i, Nat.add_assoc] using hpass (i + 1) (by omega)
    · simpa only [Nat.add_right_comm slot 1 k, Nat.add_assoc] using he

/-- A leaf of level 0 with items makes every load of its slot loop. -/
theorem leafWalk_log_of_items (hlevel : levelAt F leaf = 0) (hn : nritemsAt F leaf ≠ 0) :
    ∀ e ∈ (leafSlots fs leaf checkItemData checkItem 0 Key.zero (nritemsAt F leaf)).log,
      e ∈ (leafWalk fs leaf checkItemData checkItem).log := by
  intro e he
  simp only [levelAt, nritemsAt] at hlevel hn he
  simp [leafWalk, hlevel, hn, he]

end Leaf

/-! ### Item headers past the end of the buffer -/

/-- Byte `r` of item header `i` of {lit}`zeroSizeItemsLeaf`: the key
`(i + 1, 0, 0)`, the data offset 3995 and the data size 0. -/
def zeroSizeItemByte (i r : Nat) : UInt8 :=
  if r < 8 then leByte (i + 1) r
  else if 17 ≤ r ∧ r < 21 then leByte 3995 (r - 17)
  else 0

/-- A 4 KiB leaf declaring `n` items, keyed one above the other, that all hold
no data at the end of the data area. -/
def zeroSizeItemsLeaf (n : Nat) : ExtentBuffer :=
  ExtentBuffer.table 0 itemSize n zeroSizeItemByte

theorem nritemsAt_zeroSizeItemsLeaf {n : Nat} (hn : n < 2 ^ 32) :
    nritemsAt packedFormat (zeroSizeItemsLeaf n) = n :=
  (ExtentBuffer.table_nritems 0 itemSize n _).trans (Nat.mod_eq_of_lt hn)

theorem levelAt_zeroSizeItemsLeaf (n : Nat) : levelAt packedFormat (zeroSizeItemsLeaf n) = 0 :=
  ExtentBuffer.table_level 0 itemSize n _

theorem keyAt_zeroSizeItemsLeaf {n i : Nat} (hi : i < n) (hn : n < 2 ^ 32) :
    keyAt packedFormat (zeroSizeItemsLeaf n) i = ⟨i + 1, 0, 0⟩ :=
  ExtentBuffer.table_diskKey 0 itemSize n _ hi (by omega) (by decide) fun j hj => by
    rw [zeroSizeItemByte, if_neg (show ¬(17 ≤ j ∧ j < 21) by omega)]

theorem offsetAt_zeroSizeItemsLeaf {n i : Nat} (hi : i < n) :
    offsetAt packedFormat (zeroSizeItemsLeaf n) i = 3995 :=
  ExtentBuffer.table_load 0 itemSize n zeroSizeItemByte hi 17 4 3995 (by decide) fun j hj => by
    rw [zeroSizeItemByte, if_neg (by omega), if_pos (by omega), Nat.add_sub_cancel_left]

theorem sizeAt_zeroSizeItemsLeaf {n i : Nat} (hi : i < n) :
    sizeAt packedFormat (zeroSizeItemsLeaf n) i = 0 :=
  ExtentBuffer.table_load 0 itemSize n zeroSizeItemByte hi 21 4 0 (by decide) fun j hj => by
    rw [zeroSizeItemByte, if_neg (by omega), if_neg (by omega), leByte_zero]

/-- Every item of {lit}`zeroSizeItemsLeaf` passes the relaxed walk's checks. -/
theorem zeroSizeItemsLeaf_slot_passes {n i : Nat} (hi : i < n) (hn : n < 2 ^ 32) :
    (prevKeyAt packedFormat (zeroSizeItemsLeaf n) i).Lt
        (keyAt packedFormat (zeroSizeItemsLeaf n) i) ∧
      endAt packedFormat (zeroSizeItemsLeaf n) i = expectedEnd packedFs (zeroSizeItemsLeaf n) i ∧
      endAt packedFormat (zeroSizeItemsLeaf n) i ≤ packedFs.leafDataSize := by
  have hend : endAt packedFormat (zeroSizeItemsLeaf n) i = 3995 :=
    calc endAt packedFormat (zeroSizeItemsLeaf n) i
        = (3995 + 0) % 2 ^ 32 := by
          rw [endAt, offsetAt_zeroSizeItemsLeaf hi, sizeAt_zeroSizeItemsLeaf hi]
      _ = 3995 := Nat.mod_eq_of_lt (by omega)
  rcases i with _ | i
  · rw [prevKeyAt_zero, expectedEnd_zero, hend, keyAt_zeroSizeItemsLeaf hi hn]
    exact ⟨Or.inl (Nat.succ_pos 0), rfl, le_refl _⟩
  · rw [prevKeyAt_succ, expectedEnd_succ, hend, keyAt_zeroSizeItemsLeaf hi hn,
      keyAt_zeroSizeItemsLeaf (by omega) hn, offsetAt_zeroSizeItemsLeaf (by omega)]
    exact ⟨Or.inl (Nat.lt_succ_self _), rfl, le_refl _⟩

/-- The leaf walk loads the whole header of slot `k` once the slots before it
pass and its key is in order, wherever the header lies: when it does not fit
in the buffer, the walk loads past the end. -/
theorem check_leaf_walk_reads_past_buffer (leaf : ExtentBuffer) (k : Nat)
    (hlevel : levelAt F leaf = 0) (hk : k < nritemsAt F leaf)
    (hpass : ∀ i < k, (prevKeyAt F leaf i).Lt (keyAt F leaf i) ∧
      endAt F leaf i = expectedEnd fs leaf i ∧ endAt F leaf i ≤ fs.leafDataSize)
    (hkey : (prevKeyAt F leaf k).Lt (keyAt F leaf k))
    (hout : leaf.len < itemNrOffset F k + itemSize) :
    ∃ off w, Event.read off w ∈ (checkLeafWalk fs leaf false).log ∧ leaf.len < off + w := by
  have hslots := leafSlots_log_of_passes fs leaf false (checkLeafItem fs leaf) k 0
    (nritemsAt F leaf) (by omega) fun i hi => by
      simpa only [Nat.zero_add] using (leafSlotPasses_false_iff fs leaf _ _ _).2 (hpass i hi)
  simp only [Nat.zero_add, prevKeyAt_zero] at hslots
  refine ⟨itemNrOffset F k + diskKeySize + 4, 4, leafWalk_log_of_items fs leaf false _ hlevel
    (by omega) _ (hslots _ (leafSlot_log_size fs leaf false _ hkey)), ?_⟩
  simp only [itemSize, diskKeySize] at hout ⊢
  omega

theorem check_leaf_walk_reads_past_zero_size_items :
    (zeroSizeItemsLeaf 160).len = packedFs.nodesize ∧
      ∃ off w, Event.read off w ∈ (checkLeafWalk packedFs (zeroSizeItemsLeaf 160) false).log ∧
        (zeroSizeItemsLeaf 160).len < off + w :=
  ⟨rfl, check_leaf_walk_reads_past_buffer packedFs (zeroSizeItemsLeaf 160) 159
    (levelAt_zeroSizeItemsLeaf 160) (by rw [nritemsAt_zeroSizeItemsLeaf (by decide)]; decide)
    (fun _ hi => zeroSizeItemsLeaf_slot_passes (by omega) (by decide))
    (zeroSizeItemsLeaf_slot_passes (by decide) (by decide)).1 (by decide)⟩

/-! ## Loads of the node walk -/

section Node

variable (node : ExtentBuffer)

/-- Every iteration loads the key after its slot before any check. -/
theorem nodeSlot_log_next_key (slot : Nat) :
    Event.read (keyPtrOffset F (slot + 1)) diskKeySize ∈ (nodeSlot fs node slot).log := by
  simp [nodeSlot, nodeBlockptr, nodeKeyToCpu, diskKeyToCpu, readLe]

theorem nodeSlots_succ_log (slot remaining : Nat) :
    (nodeSlots fs node slot (remaining + 1)).log =
      (nodeSlot fs node slot).log ++
        match (nodeSlot fs node slot).val with
        | .error _ => []
        | .ok () => (nodeSlots fs node (slot + 1) remaining).log := by
  simp only [nodeSlots, CheckM.bind_log]
  split <;> rename_i h <;> simp only [h, CheckM.pure_log]

/-- Once the `k` iterations from `slot` on pass, the loop makes every load of
iteration `slot + k`. -/
theorem nodeSlots_log_of_passes (k : Nat) :
    ∀ slot remaining, k < remaining → (∀ i < k, NodeSlotPasses fs node (slot + i)) →
      ∀ e ∈ (nodeSlot fs node (slot + k)).log,
        e ∈ (nodeSlots fs node slot remaining).log := by
  induction k with
  | zero =>
    intro slot remaining hk _ e he
    obtain ⟨r, rfl⟩ : ∃ r, remaining = r + 1 := ⟨remaining - 1, by omega⟩
    rw [nodeSlots_succ_log]
    exact List.mem_append_left _ he
  | succ k ih =>
    intro slot remaining hk hpass e he
    obtain ⟨r, rfl⟩ : ∃ r, remaining = r + 1 := ⟨remaining - 1, by omega⟩
    rw [nodeSlots_succ_log, (nodeSlot_val_eq_ok_iff fs node slot).2 (hpass 0 (Nat.succ_pos k))]
    refine List.mem_append_right _ (ih (slot + 1) r (by omega) (fun i hi => ?_) e ?_)
    · simpa only [Nat.add_right_comm slot 1 i, Nat.add_assoc] using hpass (i + 1) (by omega)
    · simpa only [Nat.add_right_comm slot 1 k, Nat.add_assoc] using he

/-- A node of valid level with items makes every load of its pointer loop. -/
theorem checkNodeWalk_log_of_items
    (h : ¬(levelAt F node ≤ 0 ∨ levelAt F node ≥ F.maxLevel)) (hn : nritemsAt F node ≠ 0) :
    ∀ e ∈ (nodeSlots fs node 0 (nritemsAt F node - 1)).log,
      e ∈ (checkNodeWalk fs node).log := by
  intro e he
  simp only [levelAt, nritemsAt] at h hn he
  simp only [checkNodeWalk, CheckM.bind_log, if_neg h, if_neg hn, CheckM.pure_log]
  simp [he]

end Node

/-! ### Key pointers past the end of the buffer -/

/-- Byte `r` of key pointer `i` of {lit}`consecutiveChildrenNode`: the key
`(i + 1, 0, 0)` and the child at block `i + 1` of 4 KiB. -/
def consecutiveChildByte (i r : Nat) : UInt8 :=
  if r < 8 then leByte (i + 1) r
  else if 17 ≤ r ∧ r < 25 then leByte ((i + 1) * 4096) (r - 17)
  else 0

/-- A 4 KiB node of level 1 declaring `n` key pointers, keyed one above the
other, to consecutive 4 KiB blocks. -/
def consecutiveChildrenNode (n : Nat) : ExtentBuffer :=
  ExtentBuffer.table 1 keyPtrSize n consecutiveChildByte

theorem nritemsAt_consecutiveChildrenNode {n : Nat} (hn : n < 2 ^ 32) :
    nritemsAt packedFormat (consecutiveChildrenNode n) = n :=
  (ExtentBuffer.table_nritems 1 keyPtrSize n _).trans (Nat.mod_eq_of_lt hn)

theorem levelAt_consecutiveChildrenNode (n : Nat) :
    levelAt packedFormat (consecutiveChildrenNode n) = 1 :=
  ExtentBuffer.table_level 1 keyPtrSize n _

theorem nodeKeyAt_consecutiveChildrenNode {n i : Nat} (hi : i < n) (hn : n < 2 ^ 32) :
    nodeKeyAt packedFormat (consecutiveChildrenNode n) i = ⟨i + 1, 0, 0⟩ :=
  ExtentBuffer.table_diskKey 1 keyPtrSize n _ hi (by omega) (by decide) fun j hj => by
    rw [consecutiveChildByte, if_neg (show ¬(17 ≤ j ∧ j < 25) by omega)]

theorem blockptrAt_consecutiveChildrenNode {n i : Nat} (hi : i < n) (hn : n < 2 ^ 32) :
    blockptrAt packedFormat (consecutiveChildrenNode n) i = (i + 1) * 4096 :=
  (ExtentBuffer.table_load 1 keyPtrSize n consecutiveChildByte hi 17 8 ((i + 1) * 4096)
    (by decide) fun j hj => by
      rw [consecutiveChildByte, if_neg (by omega), if_pos (by omega),
        Nat.add_sub_cancel_left]).trans (Nat.mod_eq_of_lt (by omega))

/-- Every key pointer of {lit}`consecutiveChildrenNode` but the last passes the
node walk's checks. -/
theorem consecutiveChildrenNode_slot_passes {n s : Nat} (hs : s + 1 < n) (hn : n < 2 ^ 32) :
    blockptrAt packedFormat (consecutiveChildrenNode n) s ≠ 0 ∧
      packedFs.sectorsize ∣ blockptrAt packedFormat (consecutiveChildrenNode n) s ∧
      (nodeKeyAt packedFormat (consecutiveChildrenNode n) s).Lt
        (nodeKeyAt packedFormat (consecutiveChildrenNode n) (s + 1)) := by
  rw [blockptrAt_consecutiveChildrenNode (by omega) hn,
    nodeKeyAt_consecutiveChildrenNode (by omega) hn, nodeKeyAt_consecutiveChildrenNode hs hn]
  exact ⟨by omega, Nat.dvd_mul_left 4096 (s + 1), Or.inl (Nat.lt_succ_self _)⟩

/-- The node walk loads the key after slot `k` once the iterations before it
pass, wherever that key lies: when it does not fit in the buffer, the walk
loads past the end. -/
theorem check_node_walk_reads_past_buffer (node : ExtentBuffer) (k : Nat)
    (hlevel : 1 ≤ levelAt F node ∧ levelAt F node < F.maxLevel) (hk : k + 1 < nritemsAt F node)
    (hslots : ∀ s < k, blockptrAt F node s ≠ 0 ∧ fs.sectorsize ∣ blockptrAt F node s ∧
      (nodeKeyAt F node s).Lt (nodeKeyAt F node (s + 1)))
    (hout : node.len < keyPtrOffset F (k + 1) + diskKeySize) :
    ∃ off w, Event.read off w ∈ (checkNodeWalk fs node).log ∧ node.len < off + w := by
  have hslots' := nodeSlots_log_of_passes fs node k 0 (nritemsAt F node - 1) (by omega)
    fun s hs => by
      obtain ⟨hne, hdvd, hlt⟩ := hslots s (by omega)
      rw [Nat.zero_add]
      exact ⟨hne, (isAligned_iff fs.sectorsize_pow).2 hdvd, hlt⟩
  rw [Nat.zero_add] at hslots'
  exact ⟨_, _, checkNodeWalk_log_of_items fs node (by omega) (by omega) _
    (hslots' _ (nodeSlot_log_next_key fs node k)), hout⟩

theorem check_node_walk_reads_past_consecutive_children :
    (consecutiveChildrenNode 122).len = packedFs.nodesize ∧
      ∃ off w, Event.read off w ∈ (checkNodeWalk packedFs (consecutiveChildrenNode 122)).log ∧
        (consecutiveChildrenNode 122).len < off + w :=
  ⟨rfl, check_node_walk_reads_past_buffer packedFs (consecutiveChildrenNode 122) 120
    (by rw [levelAt_consecutiveChildrenNode]; decide)
    (by rw [nritemsAt_consecutiveChildrenNode (by decide)]; decide)
    (fun _ hs => consecutiveChildrenNode_slot_passes (by omega) (by decide)) (by decide)⟩

/-! ## Walks whose tables fit

When the item headers or the key pointers the header declares fit in the
buffer, neither the relaxed leaf walk nor the node walk loads anything
outside it: the two theorems above need a table that runs past the end. -/

/-- A load inside the first `len` bytes; a report loads nothing. -/
def Event.Inside (len : Nat) : Event → Prop
  | .read off width => off + width ≤ len
  | .crit _ _ => True

section Inside

variable {len : Nat}

@[simp]
theorem all_inside_readLe (eb : ExtentBuffer) (off width : Nat) :
    CheckM.All (Event.Inside len) (readLe F eb off width) ↔ off + width ≤ len := by
  simp [CheckM.All, readLe, Event.Inside]

@[simp]
theorem all_inside_diskKeyToCpu (eb : ExtentBuffer) (off : Nat) :
    CheckM.All (Event.Inside len) (diskKeyToCpu F eb off) ↔ off + diskKeySize ≤ len := by
  simp [CheckM.All, diskKeyToCpu, Event.Inside]

@[simp]
theorem all_inside_crit (slot : Option Nat) (reason : String) :
    CheckM.All (Event.Inside len) (crit slot reason) := by
  simp [CheckM.All, crit, Event.Inside]

/-- The reports load the header's level, owner and address. -/
theorem all_inside_genericErr (eb : ExtentBuffer) (slot : Nat) (reason : String)
    (h : F.headerSize ≤ len) : CheckM.All (Event.Inside len) (genericErr F eb slot reason) := by
  have := F.level_le
  have := F.owner_le
  have := F.bytenr_le
  simp only [genericErr, headerLevel, headerOwner, headerBytenr, CheckM.all_bind, all_inside_readLe,
    all_inside_crit, and_true]
  omega

/-- An iteration of the relaxed leaf walk loads the header of its item and
the data offset of the item before. -/
theorem all_inside_leafSlot (leaf : ExtentBuffer) (checkItem : Key → Nat → Key → CheckM Int)
    {slot : Nat} (prevKey : Key) (hfit : itemNrOffset F (slot + 1) ≤ len) :
    CheckM.All (Event.Inside len) (leafSlot fs leaf false checkItem slot prevKey) := by
  unfold itemNrOffset itemSize at hfit
  have herr : ∀ reason, CheckM.All (Event.Inside len) (genericErr F leaf slot reason) :=
    fun reason => all_inside_genericErr leaf slot reason (by omega)
  simp only [leafSlot, itemEndExpectedAt, itemEndNr, itemOffsetNr, itemSizeNr, itemKeyToCpu,
    itemNrOffset, CheckM.all_bind, CheckM.all_ite_iff, all_inside_readLe, all_inside_diskKeyToCpu,
    CheckM.all_pure, herr, diskKeySize, itemSize, Bool.false_eq_true, if_false, and_true, true_and,
    implies_true, and_self]
  omega

theorem all_inside_leafSlots (leaf : ExtentBuffer) (checkItem : Key → Nat → Key → CheckM Int) :
    ∀ (remaining slot : Nat) (prevKey : Key), itemNrOffset F (slot + remaining) ≤ len →
      CheckM.All (Event.Inside len) (leafSlots fs leaf false checkItem slot prevKey remaining)
  | 0, _, _, _ => CheckM.all_pure _ _
  | remaining + 1, slot, prevKey, hfit => by
    have hslot : itemNrOffset F (slot + 1) ≤ len := by unfold itemNrOffset itemSize at *; omega
    have hnext : itemNrOffset F (slot + 1 + remaining) ≤ len := by
      unfold itemNrOffset itemSize at *; omega
    rw [leafSlots, CheckM.all_bind]
    refine ⟨all_inside_leafSlot fs leaf checkItem prevKey hslot, ?_⟩
    split
    · exact CheckM.all_pure _ _
    · exact all_inside_leafSlots leaf checkItem remaining (slot + 1) _ hnext

/-- An iteration of the node walk loads key pointers `slot` and `slot + 1`. -/
theorem all_inside_nodeSlot (node : ExtentBuffer) {slot : Nat}
    (hfit : keyPtrOffset F (slot + 2) ≤ len) :
    CheckM.All (Event.Inside len) (nodeSlot fs node slot) := by
  unfold keyPtrOffset keyPtrSize at hfit
  have herr : ∀ reason, CheckM.All (Event.Inside len) (genericErr F node slot reason) :=
    fun reason => all_inside_genericErr node slot reason (by omega)
  simp only [nodeSlot, nodeBlockptr, nodeKeyToCpu, keyPtrOffset, CheckM.all_bind,
    CheckM.all_ite_iff, all_inside_readLe, all_inside_diskKeyToCpu, CheckM.all_pure, herr,
    diskKeySize, keyPtrSize, and_true, true_and, implies_true, and_self]
  omega

theorem all_inside_nodeSlots (node : ExtentBuffer) :
    ∀ (remaining slot : Nat), keyPtrOffset F (slot + remaining + 1) ≤ len →
      CheckM.All (Event.Inside len) (nodeSlots fs node slot remaining)
  | 0, _, _ => CheckM.all_pure _ _
  | remaining + 1, slot, hfit => by
    have hslot : keyPtrOffset F (slot + 2) ≤ len := by unfold keyPtrOffset keyPtrSize at *; omega
    have hnext : keyPtrOffset F (slot + 1 + remaining + 1) ≤ len := by
      unfold keyPtrOffset keyPtrSize at *; omega
    rw [nodeSlots, CheckM.all_bind]
    refine ⟨all_inside_nodeSlot fs node hslot, ?_⟩
    split
    · exact CheckM.all_pure _ _
    · exact all_inside_nodeSlots node remaining (slot + 1) hnext

end Inside

/-- For every buffer: if the item headers its header declares fit in it, the
relaxed leaf walk loads nothing outside it, and if the key pointers it
declares fit, neither does the node walk. -/
theorem check_walks_read_inside_buffer (eb : ExtentBuffer) :
    (itemNrOffset F (nritemsAt F eb) ≤ eb.len →
      ∀ e ∈ (checkLeafWalk fs eb false).log, e.Inside eb.len) ∧
    (keyPtrOffset F (nritemsAt F eb) ≤ eb.len →
      ∀ e ∈ (checkNodeWalk fs eb).log, e.Inside eb.len) := by
  have := F.nritems_le
  have := F.level_le
  have := F.flags_le
  have := F.owner_le
  refine ⟨fun hfit => ?_, fun hfit => ?_⟩
  · have herr : ∀ slot reason, CheckM.All (Event.Inside eb.len) (genericErr F eb slot reason) :=
      fun slot reason => all_inside_genericErr eb slot reason (le_trans (Nat.le_add_right _ _) hfit)
    have hslots : CheckM.All (Event.Inside eb.len)
        (leafSlots fs eb false (checkLeafItem fs eb) 0 Key.zero (nritemsAt F eb)) :=
      all_inside_leafSlots fs eb _ _ 0 Key.zero (by rwa [Nat.zero_add])
    simp only [nritemsAt, headerNritems] at hslots hfit
    show CheckM.All _ _
    simp only [checkLeafWalk, leafWalk, headerNritems, headerLevel, headerFlag, headerOwner,
      CheckM.all_bind, CheckM.all_ite_iff, all_inside_readLe, CheckM.all_pure, herr, hslots,
      and_true, true_and, implies_true, and_self]
    unfold itemNrOffset at hfit
    omega
  · have herr : ∀ slot reason, CheckM.All (Event.Inside eb.len) (genericErr F eb slot reason) :=
      fun slot reason => all_inside_genericErr eb slot reason (le_trans (Nat.le_add_right _ _) hfit)
    have hslots : CheckM.All (Event.Inside eb.len) (nodeSlots fs eb 0 (nritemsAt F eb - 1)) := by
      by_cases hn : nritemsAt F eb = 0
      · rw [hn]
        exact CheckM.all_pure _ _
      · exact all_inside_nodeSlots fs eb _ 0 (by rwa [Nat.zero_add, Nat.sub_add_cancel (by omega)])
    simp only [nritemsAt, headerNritems] at hslots hfit
    show CheckM.All _ _
    simp only [checkNodeWalk, headerNritems, headerLevel, headerOwner, CheckM.all_bind,
      CheckM.all_ite_iff, all_inside_readLe, CheckM.all_pure, herr, hslots, and_true, true_and,
      implies_true, and_self, all_inside_crit]
    unfold keyPtrOffset at hfit
    omega

/-- The two-item leaf and the two-pointer node of
{lit}`Apfs.TreeChecker.Layout`: their tables fit, so neither walk loads
outside them. -/
theorem check_walks_read_inside_buffer_samples :
    (itemNrOffset packedFormat (nritemsAt packedFormat sampleLeaf) ≤ sampleLeaf.len ∧
      ∀ e ∈ (checkLeafWalk packedFs sampleLeaf false).log, e.Inside sampleLeaf.len) ∧
    (keyPtrOffset packedFormat (nritemsAt packedFormat sampleNode) ≤ sampleNode.len ∧
      ∀ e ∈ (checkNodeWalk packedFs sampleNode).log, e.Inside sampleNode.len) :=
  ⟨⟨by decide, (check_walks_read_inside_buffer packedFs sampleLeaf).1 (by decide)⟩,
    ⟨by decide, (check_walks_read_inside_buffer packedFs sampleNode).2 (by decide)⟩⟩

/-! ## Loads of `check_inode_ref` -/

section InodeRef

variable (leaf : ExtentBuffer) (slot : Nat)

/-- A record that passes the first overflow check has its name length
loaded. -/
theorem checkInodeRefLoop_log_name {ptr end_ : Nat} (hptr : ptr + pointerSize ≤ end_) :
    Event.read (ptr + F.irefNameLen.off) F.irefNameLen.width.size ∈
      (checkInodeRefLoop F leaf slot ptr end_).log := by
  rw [checkInodeRefLoop, if_pos (by simp only [pointerSize] at hptr; omega)]
  simp [if_neg (Nat.not_lt.2 hptr), readMember, readLe]

/-- A record that passes both overflow checks hands the loop on to the next
record, so the loop makes every load of the loop from there. -/
theorem checkInodeRefLoop_log_next {ptr end_ : Nat} (hptr : ptr + pointerSize ≤ end_)
    (hrec : ptr + F.inodeRefSize + (readMember F leaf ptr F.irefNameLen).val ≤ end_) :
    ∀ e ∈ (checkInodeRefLoop F leaf slot
        (ptr + F.inodeRefSize + (readMember F leaf ptr F.irefNameLen).val) end_).log,
      e ∈ (checkInodeRefLoop F leaf slot ptr end_).log := by
  intro e he
  rw [checkInodeRefLoop, if_pos (by simp only [pointerSize] at hptr; omega)]
  simp [if_neg (Nat.not_lt.2 hptr), if_neg (Nat.not_lt.2 hrec), he]

/-- An item past the key continuity and size checks runs the record loop over
its data. -/
theorem checkInodeRef_log_loop {key prevKey : Key}
    (hprev : (checkPrevIno F leaf key slot prevKey).val = true)
    (hsize : F.inodeRefSize < sizeAt F leaf slot) :
    ∀ e ∈ (checkInodeRefLoop F leaf slot (F.headerSize + offsetAt F leaf slot)
        (F.headerSize + offsetAt F leaf slot + sizeAt F leaf slot)).log,
      e ∈ (checkInodeRef F leaf key prevKey slot).log := by
  intro e he
  simp only [sizeAt, offsetAt] at hsize he
  simp [checkInodeRef, hprev, Nat.not_le.2 hsize, itemPtrOffset, he]

end InodeRef

/-! ### A record past the end of the item -/

/-- A leaf whose one item, keyed `(256, INODE_REF, 256)`, holds the last 19
bytes of the data area: an inode ref record with a one-byte name, then 8 bytes
that are not a whole record. -/
def truncatedInodeRefLeaf : ExtentBuffer :=
  ExtentBuffer.ofFields packedFormat.page 0 4096
    [(96, 4, 1), (101, 8, 256), (109, 1, 12), (110, 8, 256), (118, 4, 3976), (122, 4, 19),
      (4085, 2, 1), (4087, 1, 97)]

/-- An inode ref item whose first record, of name length `m`, leaves 8 or 9
bytes of the item: the loop takes them for a record, since they hold a
pointer's size, and loads its name length past the end of the item. -/
theorem check_inode_ref_reads_past_item (leaf : ExtentBuffer) (key prevKey : Key) (slot m : Nat)
    (hprev : (checkPrevIno F leaf key slot prevKey).val = true)
    (hname : (readMember F leaf (F.headerSize + offsetAt F leaf slot) F.irefNameLen).val = m)
    (htail : F.inodeRefSize + m + pointerSize ≤ sizeAt F leaf slot)
    (hshort : sizeAt F leaf slot <
      F.inodeRefSize + m + F.irefNameLen.off + F.irefNameLen.width.size) :
    ∃ off w, Event.read off w ∈ (checkInodeRef F leaf key prevKey slot).log ∧
      F.headerSize + offsetAt F leaf slot + sizeAt F leaf slot < off + w := by
  have hptr : pointerSize = 8 := rfl
  refine ⟨F.headerSize + offsetAt F leaf slot + F.inodeRefSize + m + F.irefNameLen.off,
    F.irefNameLen.width.size, checkInodeRef_log_loop leaf slot hprev (by omega) _
      (checkInodeRefLoop_log_next leaf slot (by omega) (by omega) _ ?_), by omega⟩
  rw [hname]
  exact checkInodeRefLoop_log_name leaf slot (by omega)

theorem check_inode_ref_reads_past_truncated_record :
    (Key.zero.Lt (keyAt packedFormat truncatedInodeRefLeaf 0) ∧
      endAt packedFormat truncatedInodeRefLeaf 0 = packedFs.leafDataSize) ∧
    checkLeafItem packedFs truncatedInodeRefLeaf (keyAt packedFormat truncatedInodeRefLeaf 0) 0
        Key.zero =
      checkInodeRef packedFormat truncatedInodeRefLeaf (keyAt packedFormat truncatedInodeRefLeaf 0)
        Key.zero 0 ∧
    ∃ off w, Event.read off w ∈ (checkInodeRef packedFormat truncatedInodeRefLeaf
        (keyAt packedFormat truncatedInodeRefLeaf 0) Key.zero 0).log ∧
      packedFormat.headerSize + offsetAt packedFormat truncatedInodeRefLeaf 0 +
        sizeAt packedFormat truncatedInodeRefLeaf 0 < off + w :=
  ⟨by decide, rfl, check_inode_ref_reads_past_item truncatedInodeRefLeaf _ Key.zero 0 1 rfl
    (by decide) (by decide) (by decide)⟩

end Apfs
