import Apfs.TreeChecker.ItemLoads
import Apfs.TreeChecker.Bounds

/-!
# Which leaves the full walk reads inside

`check_leaf` calls `check_leaf_item` on a slot only after the slot's item end
has passed its two checks, so the item's data lies in the leaf's data area as
long as its `u32` end does not wrap; and it calls it on the next slot only
after the item check has passed.  With the item checkers that stay inside
their item ({lit}`Apfs.TreeChecker.ItemLoads`), the whole walk then reads
inside the buffer.  The checkers of `INODE_ITEM`, `DEV_ITEM`, `EXTENT_ITEM`,
`METADATA_ITEM` and `INODE_REF` items load members without first comparing
the item's size with them, and a leaf holding one is left out.

Main results:

- Theorem {lit}`all_tableOrItems_checkLeafItem`: `check_leaf_item` on an item
  of any other type loads nothing outside the item table up to the item, the
  item's data and the previous item's data.
- Theorem {lit}`check_leaf_walk_full_reads_inside_buffer`: on a buffer of
  `nodesize` bytes whose declared item table fits, whose items' ends do not
  wrap and whose items are of those types, the full leaf walk loads nothing
  outside the buffer.
-/

namespace Apfs

variable {F : Format}

/-- The key types whose checker compares the item's size with what it loads,
or loads nothing of the item: all but `INODE_ITEM`, `DEV_ITEM`,
`EXTENT_ITEM`, `METADATA_ITEM` and `INODE_REF`. -/
def Format.SizeCheckedType (F : Format) (t : Nat) : Prop :=
  t ≠ F.inodeItemKey ∧ t ≠ F.devItemKey ∧ t ≠ F.extentItemKey ∧ t ≠ F.metadataItemKey ∧
    t ≠ F.inodeRefKey

instance (F : Format) (t : Nat) : Decidable (F.SizeCheckedType t) :=
  inferInstanceAs (Decidable (_ ∧ _ ∧ _ ∧ _ ∧ _))

/-- Every member the size-checked item checkers load lies inside its struct. -/
def Format.LoadedMembersWithin (F : Format) : Prop :=
  F.ChunkMembersWithin ∧ F.DirHeaderWithin ∧ F.FileExtentMembersWithin ∧
    F.edrOffset.Within F.extentDataRefSize

instance (F : Format) : Decidable F.LoadedMembersWithin :=
  inferInstanceAs (Decidable (_ ∧ _ ∧ _ ∧ _))

/-! ## The dispatch -/

section Dispatch

variable (fs : FsInfo F) (leaf : ExtentBuffer) (slot : Nat)

theorem all_tableOrItems_checkLeafItem (hF : F.LoadedMembersWithin) (key prevKey pp : Key)
    (htype : F.SizeCheckedType key.type)
    (hsize : sizeAt F leaf slot + F.dirItemSize + fs.maxXattrSize ≤ 2 ^ 32)
    (hprev : 0 < slot → prevKey.type = F.extentDataKey →
      0 ≤ (checkExtentDataItem fs leaf prevKey (slot - 1) pp).val) :
    CheckM.All (Event.InTableOrItems F leaf slot) (checkLeafItem fs leaf key slot prevKey) := by
  obtain ⟨hchunk, hdir, hfe, hedr⟩ := hF
  obtain ⟨hinode, hdev, hextent, hmeta, href⟩ := htype
  have hlift : ∀ {α : Type} {m : CheckM α}, CheckM.All (Event.InTableOrItem F leaf slot) m →
      CheckM.All (Event.InTableOrItems F leaf slot) m :=
    all_tableOrItems_of_tableOrItem leaf slot
  have hitem : ∀ {α : Type} {m : CheckM α}, CheckM.All (Event.InItem F leaf slot) m →
      CheckM.All (Event.InTableOrItems F leaf slot) m :=
    fun h => hlift (all_tableOrItem_of_inItem leaf slot h)
  unfold checkLeafItem
  -- one branch per key type, in the order `check_leaf_item` tests them
  refine CheckM.all_ite (fun _ => all_tableOrItems_checkExtentDataItem fs leaf slot hfe key prevKey pp hprev)
    fun _ => CheckM.all_ite (fun _ => hlift (all_tableOrItem_checkCsumItem fs leaf slot key prevKey))
    fun _ => CheckM.all_ite (fun _ => CheckM.all_bind.2
      ⟨hlift (all_tableOrItem_checkDirItemU32 fs leaf slot hdir key prevKey _ hsize), CheckM.all_pure _ _⟩)
    fun _ => CheckM.all_ite (fun h => absurd h href)
    fun _ => CheckM.all_ite (fun _ => hitem (all_inItem_checkBlockGroupItem leaf slot key))
    fun _ => CheckM.all_ite (fun _ => CheckM.all_bind.2 ⟨hlift (all_tableOrItem_itemPtrOffset leaf slot le_rfl),
      hlift (all_tableOrItem_checkLeafChunkItem fs leaf slot hchunk key)⟩)
    fun _ => CheckM.all_ite (fun h => absurd h hdev)
    fun _ => CheckM.all_ite (fun h => absurd h hinode)
    fun _ => CheckM.all_ite (fun _ => hitem (all_inItem_checkRootItem fs leaf slot key))
    fun _ => CheckM.all_ite (fun h => absurd h (not_or.2 ⟨hextent, hmeta⟩))
    fun _ => CheckM.all_ite (fun _ => hlift (all_tableOrItem_checkSimpleKeyedRefs fs leaf slot key))
    fun _ => CheckM.all_ite (fun _ => hitem (all_inItem_checkExtentDataRef fs leaf slot hedr key))
    fun _ => CheckM.all_pure _ _

end Dispatch

/-! ## The walk -/

section Walk

variable (fs : FsInfo F) (leaf : ExtentBuffer)

/-- A load the item checks of `slot` allow lies inside a buffer of `len`
bytes that holds the item table up to `slot` and the leaf's data area, when
the item's data and the previous item's data lie in that area. -/
theorem Event.InTableOrItems.inside {e : Event} {slot len : Nat} (he : e.InTableOrItems F leaf slot)
    (hfit : itemNrOffset F (slot + 1) ≤ len) (hnode : F.headerSize + fs.leafDataSize ≤ len)
    (hdata : offsetAt F leaf slot + sizeAt F leaf slot ≤ fs.leafDataSize)
    (hprev : 0 < slot → offsetAt F leaf (slot - 1) + sizeAt F leaf (slot - 1) ≤ fs.leafDataSize) :
    e.Inside len := by
  cases e with
  | crit => trivial
  | read off width =>
    simp only [Event.InTableOrItems, Event.InTableOrItem, Event.Inside, itemNrOffset, itemSize]
      at he hfit ⊢
    rcases he with h | ⟨hs, h⟩
    · omega
    · have := hprev hs
      omega

/-- An iteration of the full walk: its own loads, as in the relaxed walk,
then, once the item's end has passed its checks, those of the item check. -/
theorem all_inside_leafSlot_full {len slot : Nat} {prevKey : Key}
    (hfit : itemNrOffset F (slot + 1) ≤ len)
    (hitem : endAt F leaf slot ≤ fs.leafDataSize →
      CheckM.All (Event.Inside len) (checkLeafItem fs leaf (keyAt F leaf slot) slot prevKey)) :
    CheckM.All (Event.Inside len) (leafSlot fs leaf true (checkLeafItem fs leaf) slot prevKey) := by
  unfold itemNrOffset itemSize at hfit
  have herr : ∀ reason, CheckM.All (Event.Inside len) (genericErr F leaf slot reason) :=
    fun reason => all_inside_genericErr leaf slot reason (by omega)
  have hend : CheckM.All (Event.Inside len) (itemEndNr F leaf slot) := by
    simp only [itemEndNr, itemOffsetNr, itemSizeNr, itemNrOffset, CheckM.all_bind, all_inside_readLe,
      CheckM.all_pure, diskKeySize, itemSize, and_true]
    omega
  have hexpected : CheckM.All (Event.Inside len) (itemEndExpectedAt fs leaf slot) := by
    unfold itemEndExpectedAt
    split
    · exact CheckM.all_pure _ _
    · simp only [itemOffsetNr, itemNrOffset, all_inside_readLe, diskKeySize, itemSize]
      omega
  have hkey : CheckM.All (Event.Inside len) (itemKeyToCpu F leaf slot) := by
    simp only [itemKeyToCpu, itemNrOffset, all_inside_diskKeyToCpu, diskKeySize, itemSize]
    omega
  simp only [keyAt] at hitem
  simp only [leafSlot, CheckM.all_bind, CheckM.all_ite_iff, hkey, herr, hexpected, hend, itemEndNr_val,
    CheckM.all_pure, if_true, implies_true, and_true, true_and, and_self]
  exact fun _ _ h => hitem (Nat.le_of_not_lt h)

/-- From a slot whose previous item has passed the walk's checks, the rest of
the full walk loads inside the buffer. -/
theorem all_inside_leafSlots_full {len bound : Nat} (hF : F.LoadedMembersWithin)
    (hdirsize : fs.leafDataSize + F.dirItemSize + fs.maxXattrSize ≤ 2 ^ 32)
    (hnode : F.headerSize + fs.leafDataSize ≤ len)
    (hitems : ∀ s < bound, offsetAt F leaf s + sizeAt F leaf s < 2 ^ 32 ∧
      F.SizeCheckedType (keyAt F leaf s).type) :
    ∀ (remaining slot : Nat) (prevKey : Key), slot + remaining ≤ bound →
      itemNrOffset F (slot + remaining) ≤ len →
      (∃ pp, 0 < slot → offsetAt F leaf (slot - 1) + sizeAt F leaf (slot - 1) ≤ fs.leafDataSize ∧
        0 ≤ (checkLeafItem fs leaf prevKey (slot - 1) pp).val) →
      CheckM.All (Event.Inside len) (leafSlots fs leaf true (checkLeafItem fs leaf) slot prevKey remaining)
  | 0, _, _, _, _, _ => CheckM.all_pure _ _
  | remaining + 1, slot, prevKey, hbound, hfit, ⟨pp, hprev⟩ => by
    have hslot : itemNrOffset F (slot + 1) ≤ len := by unfold itemNrOffset itemSize at *; omega
    obtain ⟨hwrap, htype⟩ := hitems slot (by omega)
    -- past the walk's two checks of its end, the item lies in the data area
    have hdata : endAt F leaf slot ≤ fs.leafDataSize →
        offsetAt F leaf slot + sizeAt F leaf slot ≤ fs.leafDataSize := fun h => by
      rwa [endAt, Nat.mod_eq_of_lt hwrap] at h
    rw [leafSlots, CheckM.all_bind]
    refine ⟨all_inside_leafSlot_full fs leaf hslot fun hend => ?_, ?_⟩
    · have hext : 0 < slot → prevKey.type = F.extentDataKey →
          0 ≤ (checkExtentDataItem fs leaf prevKey (slot - 1) pp).val := fun hs ht => by
        have := (hprev hs).2
        rwa [checkLeafItem, if_pos ht] at this
      exact (all_tableOrItems_checkLeafItem fs leaf slot hF _ prevKey pp htype
        (by have := hdata hend; omega) hext).imp
        fun e he => he.inside fs leaf hslot hnode (hdata hend) fun hs => (hprev hs).1
    · split
      · exact CheckM.all_pure _ _
      · rename_i key hok
        obtain ⟨rfl, -, -, hend, hpass⟩ := leafSlot_val_ok fs leaf true _ hok
        exact all_inside_leafSlots_full hF hdirsize hnode hitems remaining (slot + 1) _ (by omega)
          (by rwa [Nat.add_right_comm]) ⟨prevKey, fun _ => ⟨hdata hend, hpass rfl⟩⟩

end Walk

/-- For every buffer of `nodesize` bytes whose declared item table fits, whose
items' `u32` ends do not wrap and whose items are of no type but the
size-checked ones, and a format and mount whose structs hold their members:
the full leaf walk, `check_leaf` with `check_leaf_item`, loads nothing outside
the buffer. -/
theorem check_leaf_walk_full_reads_inside_buffer (fs : FsInfo F) (hF : F.LoadedMembersWithin)
    (hdirsize : fs.leafDataSize + F.dirItemSize + fs.maxXattrSize ≤ 2 ^ 32) (eb : ExtentBuffer)
    (hnode : fs.nodesize ≤ eb.len) (hfit : itemNrOffset F (nritemsAt F eb) ≤ eb.len)
    (hitems : ∀ s < nritemsAt F eb, offsetAt F eb s + sizeAt F eb s < 2 ^ 32 ∧
      F.SizeCheckedType (keyAt F eb s).type) :
    ∀ e ∈ (checkLeafWalk fs eb true).log, e.Inside eb.len := by
  have hnode' : F.headerSize + fs.leafDataSize ≤ eb.len := by
    have := fs.header_lt_nodesize
    unfold FsInfo.leafDataSize
    omega
  have := F.nritems_le
  have := F.level_le
  have := F.flags_le
  have := F.owner_le
  have herr : ∀ slot reason, CheckM.All (Event.Inside eb.len) (genericErr F eb slot reason) :=
    fun slot reason => all_inside_genericErr eb slot reason (le_trans (Nat.le_add_right _ _) hfit)
  have hslots : CheckM.All (Event.Inside eb.len)
      (leafSlots fs eb true (checkLeafItem fs eb) 0 Key.zero (nritemsAt F eb)) :=
    all_inside_leafSlots_full fs eb hF hdirsize hnode' hitems _ 0 Key.zero (by omega)
      (by rwa [Nat.zero_add]) ⟨Key.zero, fun h => absurd h (Nat.lt_irrefl 0)⟩
  simp only [nritemsAt, headerNritems] at hslots hfit
  show CheckM.All _ _
  simp only [checkLeafWalk, leafWalk, headerNritems, headerLevel, headerFlag, headerOwner,
    CheckM.all_bind, CheckM.all_ite_iff, all_inside_readLe, CheckM.all_pure, herr, hslots,
    and_true, true_and, implies_true, and_self]
  unfold itemNrOffset at hfit
  omega

/-- The two file extents of {lit}`inlineExtentLeaf`. -/
theorem check_leaf_walk_full_reads_inside_buffer_extents :
    packedFormat.LoadedMembersWithin ∧
      packedFs.leafDataSize + packedFormat.dirItemSize + packedFs.maxXattrSize ≤ 2 ^ 32 ∧
      packedFs.nodesize ≤ inlineExtentLeaf.len ∧
      itemNrOffset packedFormat (nritemsAt packedFormat inlineExtentLeaf) ≤ inlineExtentLeaf.len ∧
      (∀ s < nritemsAt packedFormat inlineExtentLeaf,
        offsetAt packedFormat inlineExtentLeaf s + sizeAt packedFormat inlineExtentLeaf s < 2 ^ 32 ∧
          packedFormat.SizeCheckedType (keyAt packedFormat inlineExtentLeaf s).type) ∧
      ∀ e ∈ (checkLeafWalk packedFs inlineExtentLeaf true).log, e.Inside inlineExtentLeaf.len :=
  ⟨by decide, by decide, by decide, by decide, by decide,
    check_leaf_walk_full_reads_inside_buffer packedFs (by decide) (by decide) inlineExtentLeaf
      (by decide) (by decide) (by decide)⟩

end Apfs
