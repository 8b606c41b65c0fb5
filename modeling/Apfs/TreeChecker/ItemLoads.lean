import Apfs.TreeChecker.Leaf
import Apfs.TreeChecker.Accepted
import Apfs.TreeChecker.Loops
import Apfs.TreeChecker.Ranges

/-!
# Which item checkers stay inside their item

`check_leaf_item` hands each item to the checker of its key type.  A checker
that is safe loads nothing but the block header, the item's own header in the
item table, and bytes of the item's data: {lit}`Event.InItem`.  Whether it
does depends on whether it compares the item's size with what it loads.

`check_extent_data_ref` first requires a whole number of refs and then steps
through them by `sizeof(struct apfs_extent_data_ref)`;
`check_block_group_item` requires the item to be exactly a
`struct apfs_block_group_item` before copying it; `check_root_item` copies
exactly the item's size.

Main results:

- Theorem {lit}`all_inItem_extentDataRefLoop`: the loop over the data refs
  of an item whose size is a whole number of refs loads inside the item.
- Theorem {lit}`check_item_loads_stay_in_item`: `check_extent_data_ref`,
  `check_block_group_item` and `check_root_item` load nothing outside their
  item, for every leaf, key and slot.
- Theorem {lit}`check_item_loads_stay_in_table`: `check_csum_item`,
  `check_simple_keyed_refs`, `check_leaf_chunk_item` with
  `apfs_check_chunk_valid` and `chunk_err`, and `check_dir_item` while its
  cursor cannot wrap, load nothing outside the item table up to the item's
  header and the item's data.
- Theorem {lit}`check_extent_data_item_loads_stay_in_items`:
  `check_extent_data_item` loads nothing outside the item table up to its
  item, its item and the item before, once the walk has checked that one.
-/

namespace Apfs

variable {F : Format}

/-- A load inside the block header, inside the header of item `slot` in the
item table, or inside that item's data; a report loads nothing. -/
def Event.InItem (F : Format) (leaf : ExtentBuffer) (slot : Nat) : Event → Prop
  | .read off width =>
    off + width ≤ F.headerSize ∨
      itemNrOffset F slot ≤ off ∧ off + width ≤ itemNrOffset F (slot + 1) ∨
      F.headerSize + offsetAt F leaf slot ≤ off ∧
        off + width ≤ F.headerSize + offsetAt F leaf slot + sizeAt F leaf slot
  | .crit _ _ => True

section InItem

variable (leaf : ExtentBuffer) (slot : Nat)

theorem all_inItem_readLe {off width : Nat} :
    CheckM.All (Event.InItem F leaf slot) (readLe F leaf off width) ↔
      (Event.read off width).InItem F leaf slot := by
  simp [CheckM.All, readLe]

theorem all_inItem_readLe_data {off width : Nat} (hlo : F.headerSize + offsetAt F leaf slot ≤ off)
    (hhi : off + width ≤ F.headerSize + offsetAt F leaf slot + sizeAt F leaf slot) :
    CheckM.All (Event.InItem F leaf slot) (readLe F leaf off width) :=
  (all_inItem_readLe leaf slot).2 (.inr (.inr ⟨hlo, hhi⟩))

/-- The members of the item's header: its key, data offset and data size. -/
theorem all_inItem_readLe_itemHeader {off width : Nat} (hlo : itemNrOffset F slot ≤ off)
    (hhi : off + width ≤ itemNrOffset F slot + itemSize) :
    CheckM.All (Event.InItem F leaf slot) (readLe F leaf off width) :=
  (all_inItem_readLe leaf slot).2 (.inr (.inl ⟨hlo, by unfold itemNrOffset at *; rw [Nat.mul_succ]; omega⟩))

@[simp]
theorem all_inItem_crit (s : Option Nat) (reason : String) :
    CheckM.All (Event.InItem F leaf slot) (crit s reason) := by
  simp [CheckM.All, crit, Event.InItem]

@[simp]
theorem all_inItem_itemKeyToCpu : CheckM.All (Event.InItem F leaf slot) (itemKeyToCpu F leaf slot) := by
  have : CheckM.All (Event.InItem F leaf slot) (readLe F leaf (itemNrOffset F slot) diskKeySize) :=
    all_inItem_readLe_itemHeader leaf slot le_rfl (by unfold diskKeySize itemSize; omega)
  simpa [CheckM.All, itemKeyToCpu, diskKeyToCpu, readLe] using this

@[simp]
theorem all_inItem_itemOffsetNr : CheckM.All (Event.InItem F leaf slot) (itemOffsetNr F leaf slot) :=
  all_inItem_readLe_itemHeader leaf slot (Nat.le_add_right _ _) (by unfold diskKeySize itemSize; omega)

@[simp]
theorem all_inItem_itemSizeNr : CheckM.All (Event.InItem F leaf slot) (itemSizeNr F leaf slot) :=
  all_inItem_readLe_itemHeader leaf slot (by omega) (by unfold diskKeySize itemSize; omega)

@[simp]
theorem all_inItem_itemPtrOffset : CheckM.All (Event.InItem F leaf slot) (itemPtrOffset F leaf slot) := by
  simp [itemPtrOffset, CheckM.all_bind]

/-- The reports load the header's level, owner and address, and the keyed
ones the item's key. -/
@[simp]
theorem all_inItem_genericErr (s : Nat) (reason : String) :
    CheckM.All (Event.InItem F leaf slot) (genericErr F leaf s reason) := by
  have := F.level_le
  have := F.owner_le
  have := F.bytenr_le
  simp only [genericErr, headerLevel, headerOwner, headerBytenr, CheckM.all_bind,
    all_inItem_readLe, all_inItem_crit, and_true, Event.InItem]
  omega

@[simp]
theorem all_inItem_keyedErr (reason : String) :
    CheckM.All (Event.InItem F leaf slot) (keyedErr F leaf slot reason) := by
  simp [keyedErr, CheckM.all_bind]

@[simp]
theorem all_inItem_extentErr (reason : String) :
    CheckM.All (Event.InItem F leaf slot) (extentErr F leaf slot reason) := by
  have := F.level_le
  simp only [extentErr, headerLevel, CheckM.all_bind, all_inItem_itemKeyToCpu,
    all_inItem_readLe, all_inItem_crit, and_true, true_and, Event.InItem]
  omega

/-- The copy of the whole item's data, or of a prefix of it. -/
theorem all_inItem_readExtentBuffer {len : Nat} (hlen : len ≤ sizeAt F leaf slot) :
    CheckM.All (Event.InItem F leaf slot)
      (readExtentBuffer F leaf (itemPtrOffset F leaf slot).val len) := by
  simp only [CheckM.All, readExtentBuffer, List.mem_singleton, forall_eq, Event.InItem,
    itemPtrOffset, CheckM.bind_val, CheckM.pure_val, offsetAt]
  omega

end InItem

/-! ## Checkers that stay inside the item -/

section Stay

variable (fs : FsInfo F) (leaf : ExtentBuffer) (slot : Nat)

/-- From a cursor `k` whole refs before the item's end, the loop over the
data refs loads only inside the item, when each ref's offset member lies
inside the ref. -/
theorem all_inItem_extentDataRefLoop
    (hF : F.edrOffset.off + F.edrOffset.width.size ≤ F.extentDataRefSize) :
    ∀ (k ptr : Nat), F.headerSize + offsetAt F leaf slot ≤ ptr →
      ptr + k * F.extentDataRefSize = F.headerSize + offsetAt F leaf slot + sizeAt F leaf slot →
      CheckM.All (Event.InItem F leaf slot)
        (extentDataRefLoop fs leaf slot (ptr + k * F.extentDataRefSize) ptr)
  | 0, ptr, _, _ => by
    rw [extentDataRefLoop, Nat.zero_mul, Nat.add_zero, if_neg (Nat.lt_irrefl ptr)]
    exact CheckM.all_pure _ _
  | k + 1, ptr, hlo, hend => by
    have hpos := F.extentDataRefSize_pos
    have hnext := all_inItem_extentDataRefLoop hF k (ptr + F.extentDataRefSize) (by omega)
      (by rw [← hend, Nat.succ_mul]; omega)
    rw [extentDataRefLoop, if_pos (by rw [Nat.succ_mul]; omega)]
    simp only [CheckM.all_bind, readMember, CheckM.all_ite_iff, all_inItem_extentErr,
      CheckM.all_pure, and_true, true_and]
    refine ⟨all_inItem_readLe_data leaf slot (by omega) (by rw [← hend, Nat.succ_mul]; omega),
      fun _ => trivial, fun _ => ?_⟩
    rwa [show ptr + (k + 1) * F.extentDataRefSize = ptr + F.extentDataRefSize +
      k * F.extentDataRefSize by rw [Nat.succ_mul]; omega]

theorem all_inItem_checkExtentDataRef
    (hF : F.edrOffset.off + F.edrOffset.width.size ≤ F.extentDataRefSize) (key : Key) :
    CheckM.All (Event.InItem F leaf slot) (checkExtentDataRef fs leaf key slot) := by
  have hloop : (sizeAt F leaf slot) % F.extentDataRefSize = 0 →
      CheckM.All (Event.InItem F leaf slot) (extentDataRefLoop fs leaf slot
        (F.headerSize + offsetAt F leaf slot + sizeAt F leaf slot) (F.headerSize + offsetAt F leaf slot)) := by
    intro hmod
    have := all_inItem_extentDataRefLoop fs leaf slot hF (sizeAt F leaf slot / F.extentDataRefSize)
      (F.headerSize + offsetAt F leaf slot) le_rfl (by rw [Nat.div_mul_cancel (Nat.dvd_of_mod_eq_zero hmod)])
    rwa [Nat.div_mul_cancel (Nat.dvd_of_mod_eq_zero hmod)] at this
  simp only [sizeAt, offsetAt] at hloop
  simp only [checkExtentDataRef, itemPtrOffset, CheckM.all_bind, CheckM.all_ite_iff,
    all_inItem_itemOffsetNr, all_inItem_itemSizeNr, all_inItem_genericErr, CheckM.all_pure,
    CheckM.bind_val, CheckM.pure_val, and_true, true_and, implies_true]
  exact fun h _ => hloop (not_not.1 h)

theorem all_inItem_checkBlockGroupItem (key : Key) :
    CheckM.All (Event.InItem F leaf slot) (checkBlockGroupItem F leaf key slot) := by
  have hcopy : (itemSizeNr F leaf slot).val = F.blockGroupItemSize →
      CheckM.All (Event.InItem F leaf slot)
        (readExtentBuffer F leaf (itemPtrOffset F leaf slot).val F.blockGroupItemSize) :=
    fun h => all_inItem_readExtentBuffer leaf slot (by rw [sizeAt, h])
  simp only [checkBlockGroupItem, blockGroupErr, CheckM.all_bind, CheckM.all_ite_iff,
    all_inItem_itemSizeNr, all_inItem_keyedErr, all_inItem_itemPtrOffset, CheckM.all_pure,
    and_true, true_and, implies_true]
  exact fun _ h => hcopy (not_not.1 h)

theorem all_inItem_checkRootKey (key : Key) :
    CheckM.All (Event.InItem F leaf slot) (checkRootKey F leaf key slot) := by
  simp only [checkRootKey, dirItemErr, CheckM.all_bind, CheckM.all_ite_iff, all_inItem_itemKeyToCpu,
    all_inItem_genericErr, all_inItem_keyedErr, CheckM.all_pure, and_self, implies_true]

theorem all_inItem_checkRootItem (key : Key) :
    CheckM.All (Event.InItem F leaf slot) (checkRootItem fs leaf key slot) := by
  have hcopy := @all_inItem_readExtentBuffer F leaf slot (itemSizeNr F leaf slot).val le_rfl
  simp only [checkRootItem, CheckM.all_bind, CheckM.all_ite_iff, all_inItem_checkRootKey,
    all_inItem_itemSizeNr, all_inItem_genericErr, all_inItem_itemPtrOffset, CheckM.all_pure,
    hcopy, and_self, implies_true, true_and]

end Stay

/-- For every leaf, key and slot, and a format whose data ref holds its offset
member: `check_extent_data_ref`, `check_block_group_item` and
`check_root_item` load nothing but the block header, the item's header and
the item's data. -/
theorem check_item_loads_stay_in_item (fs : FsInfo F)
    (hF : F.edrOffset.off + F.edrOffset.width.size ≤ F.extentDataRefSize)
    (leaf : ExtentBuffer) (key : Key) (slot : Nat) :
    (∀ e ∈ (checkExtentDataRef fs leaf key slot).log, e.InItem F leaf slot) ∧
      (∀ e ∈ (checkBlockGroupItem F leaf key slot).log, e.InItem F leaf slot) ∧
      (∀ e ∈ (checkRootItem fs leaf key slot).log, e.InItem F leaf slot) :=
  ⟨all_inItem_checkExtentDataRef fs leaf slot hF key, all_inItem_checkBlockGroupItem leaf slot key,
    all_inItem_checkRootItem fs leaf slot key⟩

theorem check_item_loads_stay_in_item_packed :
    packedFormat.edrOffset.off + packedFormat.edrOffset.width.size ≤ packedFormat.extentDataRefSize ∧
      (∀ e ∈ (checkExtentDataRef packedFs dataExtentLeaf Key.zero 0).log,
        e.InItem packedFormat dataExtentLeaf 0) ∧
      (∀ e ∈ (checkBlockGroupItem packedFormat dataExtentLeaf Key.zero 0).log,
        e.InItem packedFormat dataExtentLeaf 0) ∧
      (∀ e ∈ (checkRootItem packedFs dataExtentLeaf Key.zero 0).log,
        e.InItem packedFormat dataExtentLeaf 0) :=
  ⟨by decide, check_item_loads_stay_in_item packedFs (by decide) dataExtentLeaf Key.zero 0⟩

/-! ## Checkers that also load the item table

`check_csum_item` loads the previous item's size, and `chunk_err` looks for
the chunk's slot from slot 0, which it finds at the chunk's own slot at the
latest: both stay in the item table before the end of the item's own header.
`check_leaf_chunk_item` requires a whole `struct apfs_chunk` before it loads
a member, and `check_dir_item` requires each entry's header, then the whole
entry, before it loads them. -/

/-- Member `m` lies inside a struct of `size` bytes. -/
def Member.Within (m : Member) (size : Nat) : Prop :=
  m.off + m.width.size ≤ size

instance (m : Member) (size : Nat) : Decidable (m.Within size) :=
  inferInstanceAs (Decidable (_ ≤ _))

/-- The members of `struct apfs_chunk` that `check_leaf_chunk_item` and
`apfs_check_chunk_valid` load lie inside the struct. -/
def Format.ChunkMembersWithin (F : Format) : Prop :=
  ∀ m ∈ [F.chunkLength, F.chunkStripeLen, F.chunkNumStripes, F.chunkSubStripes, F.chunkType,
    F.chunkSectorSize], m.Within F.chunkSize

instance (F : Format) : Decidable F.ChunkMembersWithin :=
  inferInstanceAs (Decidable (∀ m ∈ _, _))

/-- The location key, type and lengths of a directory entry lie inside
`struct apfs_dir_item`. -/
def Format.DirHeaderWithin (F : Format) : Prop :=
  F.diLocation + diskKeySize ≤ F.dirItemSize ∧ F.diType.Within F.dirItemSize ∧
    F.diNameLen.Within F.dirItemSize ∧ F.diDataLen.Within F.dirItemSize

instance (F : Format) : Decidable F.DirHeaderWithin :=
  inferInstanceAs (Decidable (_ ∧ _ ∧ _ ∧ _))

/-- A load that ends before the end of item `slot`'s header in the item
table, so inside the block header or the table, or a load inside that item's
data; a report loads nothing. -/
def Event.InTableOrItem (F : Format) (leaf : ExtentBuffer) (slot : Nat) : Event → Prop
  | .read off width =>
    off + width ≤ itemNrOffset F (slot + 1) ∨
      F.headerSize + offsetAt F leaf slot ≤ off ∧
        off + width ≤ F.headerSize + offsetAt F leaf slot + sizeAt F leaf slot
  | .crit _ _ => True

theorem CheckM.All.imp {α : Type} {P Q : Event → Prop} {m : CheckM α} (h : ∀ e, P e → Q e)
    (hm : CheckM.All P m) : CheckM.All Q m :=
  fun e he => h e (hm e he)

section Table

variable (fs : FsInfo F) (leaf : ExtentBuffer) (slot : Nat)

theorem Event.InItem.inTableOrItem {e : Event} (h : e.InItem F leaf slot) :
    e.InTableOrItem F leaf slot := by
  cases e with
  | read off width =>
    simp only [Event.InItem, Event.InTableOrItem, itemNrOffset] at h ⊢
    omega
  | crit => trivial

theorem all_tableOrItem_of_inItem {α : Type} {m : CheckM α}
    (h : CheckM.All (Event.InItem F leaf slot) m) : CheckM.All (Event.InTableOrItem F leaf slot) m :=
  h.imp fun _ => Event.InItem.inTableOrItem leaf slot

theorem all_tableOrItem_readLe_table {off width : Nat} (h : off + width ≤ itemNrOffset F (slot + 1)) :
    CheckM.All (Event.InTableOrItem F leaf slot) (readLe F leaf off width) := by
  simp [CheckM.All, readLe, Event.InTableOrItem, h]

theorem all_tableOrItem_readLe_data {off width : Nat} (hlo : F.headerSize + offsetAt F leaf slot ≤ off)
    (hhi : off + width ≤ F.headerSize + offsetAt F leaf slot + sizeAt F leaf slot) :
    CheckM.All (Event.InTableOrItem F leaf slot) (readLe F leaf off width) := by
  simp [CheckM.All, readLe, Event.InTableOrItem, hlo, hhi]

theorem all_tableOrItem_readExtentBuffer {start len : Nat}
    (hlo : F.headerSize + offsetAt F leaf slot ≤ start)
    (hhi : start + len ≤ F.headerSize + offsetAt F leaf slot + sizeAt F leaf slot) :
    CheckM.All (Event.InTableOrItem F leaf slot) (readExtentBuffer F leaf start len) := by
  simp [CheckM.All, readExtentBuffer, Event.InTableOrItem, hlo, hhi]

/-- A member of a struct of `size` bytes at the item's start, when the item
holds the struct. -/
theorem all_tableOrItem_readMember {m : Member} {size : Nat} (hm : m.Within size)
    (hsize : size ≤ sizeAt F leaf slot) :
    CheckM.All (Event.InTableOrItem F leaf slot)
      (readMember F leaf (itemPtrOffset F leaf slot).val m) := by
  unfold Member.Within at hm
  refine all_tableOrItem_readLe_data leaf slot ?_ ?_ <;>
    simp only [itemPtrOffset, CheckM.bind_val, CheckM.pure_val, offsetAt] at * <;> omega

theorem all_tableOrItem_headerNritems :
    CheckM.All (Event.InTableOrItem F leaf slot) (headerNritems F leaf) :=
  all_tableOrItem_readLe_table leaf slot (by have := F.nritems_le; unfold itemNrOffset; omega)

/-- The data size of item `i`, at or before `slot`. -/
theorem all_tableOrItem_itemSizeNr {i : Nat} (hi : i ≤ slot) :
    CheckM.All (Event.InTableOrItem F leaf slot) (itemSizeNr F leaf i) :=
  all_tableOrItem_readLe_table leaf slot (by unfold itemNrOffset diskKeySize itemSize; omega)

/-- The data offset of item `i`, at or before `slot`. -/
theorem all_tableOrItem_itemPtrOffset {i : Nat} (hi : i ≤ slot) :
    CheckM.All (Event.InTableOrItem F leaf slot) (itemPtrOffset F leaf i) := by
  have : CheckM.All (Event.InTableOrItem F leaf slot) (itemOffsetNr F leaf i) :=
    all_tableOrItem_readLe_table leaf slot (by unfold itemNrOffset diskKeySize itemSize; omega)
  simpa [itemPtrOffset, CheckM.all_bind] using this

/-- `chunk_err`'s scan, started at a slot at or before the chunk's: it stops
at the chunk's slot at the latest, so it loads only item headers up to it. -/
theorem all_tableOrItem_chunkErrScan :
    ∀ (left i : Nat), i ≤ slot → CheckM.All (Event.InTableOrItem F leaf slot)
      (chunkErrScan F leaf (itemPtrOffset F leaf slot).val i left)
  | 0, _, _ => by
    simp only [chunkErrScan, CheckM.all_bind, all_tableOrItem_headerNritems, CheckM.all_pure, and_self]
  | left + 1, i, hi => by
    simp only [chunkErrScan, CheckM.all_bind, all_tableOrItem_headerNritems,
      all_tableOrItem_itemPtrOffset leaf slot hi, CheckM.all_ite_iff, CheckM.all_pure, true_and,
      implies_true]
    intro hne
    refine all_tableOrItem_chunkErrScan left (i + 1) (Nat.lt_of_le_of_ne hi ?_)
    rintro rfl
    exact hne rfl

theorem all_tableOrItem_chunkErr (reason : String) :
    CheckM.All (Event.InTableOrItem F leaf slot)
      (chunkErr F leaf (itemPtrOffset F leaf slot).val reason) := by
  simp only [chunkErr, CheckM.all_ite_iff, CheckM.all_bind, all_tableOrItem_headerNritems,
    all_tableOrItem_chunkErrScan leaf slot _ 0 (Nat.zero_le _),
    all_tableOrItem_of_inItem leaf slot (all_inItem_crit leaf slot _ _), and_self, implies_true]

theorem all_tableOrItem_apfsCheckChunkValid (hF : F.ChunkMembersWithin)
    (hsize : F.chunkSize ≤ sizeAt F leaf slot) (logical : Nat) :
    CheckM.All (Event.InTableOrItem F leaf slot)
      (apfsCheckChunkValid fs leaf (itemPtrOffset F leaf slot).val logical) := by
  have hread : ∀ m ∈ [F.chunkLength, F.chunkStripeLen, F.chunkNumStripes, F.chunkSubStripes,
      F.chunkType, F.chunkSectorSize], CheckM.All (Event.InTableOrItem F leaf slot)
        (readMember F leaf (itemPtrOffset F leaf slot).val m) :=
    fun m hm => all_tableOrItem_readMember leaf slot (hF m hm) hsize
  simp only [List.forall_mem_cons, List.forall_mem_nil] at hread
  obtain ⟨hlen, hstripe, hnum, hsub, htype, hsector, -⟩ := hread
  simp only [apfsCheckChunkValid, CheckM.all_bind, CheckM.all_ite_iff, hlen, hstripe, hnum, hsub,
    htype, hsector, all_tableOrItem_chunkErr, CheckM.all_pure, and_self, implies_true]

theorem all_tableOrItem_checkLeafChunkItem (hF : F.ChunkMembersWithin) (key : Key) :
    CheckM.All (Event.InTableOrItem F leaf slot)
      (checkLeafChunkItem fs leaf (itemPtrOffset F leaf slot).val key slot) := by
  have hvalid : ¬sizeAt F leaf slot < F.chunkSize → CheckM.All (Event.InTableOrItem F leaf slot)
      (readMember F leaf (itemPtrOffset F leaf slot).val F.chunkNumStripes) ∧
        CheckM.All (Event.InTableOrItem F leaf slot)
          (apfsCheckChunkValid fs leaf (itemPtrOffset F leaf slot).val key.offset) := fun h =>
    ⟨all_tableOrItem_readMember leaf slot (hF _ (by simp)) (Nat.not_lt.1 h),
      all_tableOrItem_apfsCheckChunkValid fs leaf slot hF (Nat.not_lt.1 h) _⟩
  simp only [sizeAt] at hvalid
  simp only [checkLeafChunkItem, CheckM.all_bind, CheckM.all_ite_iff,
    all_tableOrItem_itemSizeNr leaf slot le_rfl, all_tableOrItem_chunkErr, CheckM.all_pure,
    and_self, implies_true, true_and]
  exact fun h => ⟨(hvalid h).1, fun _ _ => (hvalid h).2, fun _ => (hvalid h).2⟩

theorem all_tableOrItem_genericErr (s : Nat) (reason : String) :
    CheckM.All (Event.InTableOrItem F leaf slot) (genericErr F leaf s reason) :=
  all_tableOrItem_of_inItem leaf slot (all_inItem_genericErr leaf slot s reason)

theorem all_tableOrItem_keyedErr (reason : String) :
    CheckM.All (Event.InTableOrItem F leaf slot) (keyedErr F leaf slot reason) :=
  all_tableOrItem_of_inItem leaf slot (all_inItem_keyedErr leaf slot reason)

theorem all_tableOrItem_checkCsumItem (key prevKey : Key) :
    CheckM.All (Event.InTableOrItem F leaf slot) (checkCsumItem fs leaf key slot prevKey) := by
  simp only [checkCsumItem, CheckM.all_bind, CheckM.all_ite_iff, all_tableOrItem_genericErr,
    all_tableOrItem_itemSizeNr leaf slot le_rfl, all_tableOrItem_itemSizeNr leaf slot (Nat.sub_le slot 1),
    CheckM.all_pure, and_self, implies_true]

theorem all_tableOrItem_checkSimpleKeyedRefs (key : Key) :
    CheckM.All (Event.InTableOrItem F leaf slot) (checkSimpleKeyedRefs fs leaf key slot) := by
  simp only [checkSimpleKeyedRefs, CheckM.all_bind, CheckM.all_ite_iff, all_tableOrItem_genericErr,
    all_tableOrItem_itemSizeNr leaf slot le_rfl,
    all_tableOrItem_of_inItem leaf slot (all_inItem_extentErr leaf slot _), CheckM.all_pure, and_self,
    implies_true]

theorem all_tableOrItem_checkPrevIno (key prevKey : Key) :
    CheckM.All (Event.InTableOrItem F leaf slot) (checkPrevIno F leaf key slot prevKey) := by
  have := F.owner_le
  have howner : CheckM.All (Event.InTableOrItem F leaf slot) (headerOwner F leaf) :=
    all_tableOrItem_readLe_table leaf slot (by unfold itemNrOffset; omega)
  simp only [checkPrevIno, dirItemErr, CheckM.all_bind, CheckM.all_ite_iff, howner,
    all_tableOrItem_keyedErr, CheckM.all_pure, and_self, implies_true]

theorem all_tableOrItem_checkInodeKey (key : Key) :
    CheckM.All (Event.InTableOrItem F leaf slot) (checkInodeKey F leaf key slot) := by
  simp only [checkInodeKey, dirItemErr, CheckM.all_bind, CheckM.all_ite_iff,
    all_tableOrItem_of_inItem leaf slot (all_inItem_itemKeyToCpu leaf slot), all_tableOrItem_genericErr,
    all_tableOrItem_keyedErr, CheckM.all_pure, and_self, implies_true]

/-- The checks on the entry `cur` bytes into the item load only inside the
entry's header, and only once the header fits in the item. -/
theorem all_tableOrItem_checkDirEntry (hF : F.DirHeaderWithin) (key : Key) {di cur : Nat}
    (hdi : di = F.headerSize + offsetAt F leaf slot + cur) :
    CheckM.All (Event.InTableOrItem F leaf slot)
      (checkDirEntry fs leaf key slot (sizeAt F leaf slot) di cur) := by
  obtain ⟨hloc, htype, hname, hdata⟩ := hF
  unfold Member.Within at htype hname hdata
  by_cases hhdr : cur + F.dirItemSize > sizeAt F leaf slot
  · simp only [checkDirEntry, if_pos hhdr, dirItemErr, CheckM.all_bind, all_tableOrItem_keyedErr,
      CheckM.all_pure, and_self]
  have hkey : CheckM.All (Event.InTableOrItem F leaf slot) (dirItemKeyToCpu F leaf di) := by
    have : CheckM.All (Event.InTableOrItem F leaf slot) (readLe F leaf (di + F.diLocation) diskKeySize) :=
      all_tableOrItem_readLe_data leaf slot (by omega) (by omega)
    simpa [CheckM.All, dirItemKeyToCpu, diskKeyToCpu, readLe] using this
  have hmember : ∀ m : Member, m.off + m.width.size ≤ F.dirItemSize →
      CheckM.All (Event.InTableOrItem F leaf slot) (readMember F leaf di m) :=
    fun m hm => all_tableOrItem_readLe_data leaf slot (by omega) (by omega)
  simp only [checkDirEntry, if_neg hhdr, dirItemErr, CheckM.all_bind, CheckM.all_ite_iff, hkey,
    hmember _ htype, hmember _ hname, hmember _ hdata, all_tableOrItem_keyedErr,
    all_tableOrItem_of_inItem leaf slot (all_inItem_checkRootKey leaf slot _),
    all_tableOrItem_checkInodeKey, CheckM.all_pure, and_self, implies_true]

/-- A pass loads the entry's name only once the whole entry fits in the
item. -/
theorem all_tableOrItem_checkDirItemPass (hF : F.DirHeaderWithin) (key : Key) {di cur : Nat}
    (hdi : di = F.headerSize + offsetAt F leaf slot + cur) :
    CheckM.All (Event.InTableOrItem F leaf slot)
      (checkDirItemPass fs leaf key slot (sizeAt F leaf slot) (· + ·) di cur) := by
  simp only [checkDirItemPass, CheckM.all_bind]
  refine ⟨all_tableOrItem_checkDirEntry fs leaf slot hF key hdi, ?_⟩
  split
  · exact CheckM.all_pure _ _
  · simp only [dirItemErr, CheckM.all_bind, CheckM.all_ite_iff, all_tableOrItem_keyedErr,
      CheckM.all_pure, and_self, implies_true, and_true, true_and]
    exact fun hfit _ => all_tableOrItem_readExtentBuffer leaf slot (by omega) (by omega)

/-- The loop as the code runs it, with its `u32` cursor, from an entry `cur`
bytes into the item, while no `cur + total_size` can wrap. -/
theorem all_tableOrItem_checkDirItemLoopU32 (hF : F.DirHeaderWithin) (key : Key)
    (hsize : sizeAt F leaf slot + F.dirItemSize + fs.maxXattrSize ≤ 2 ^ 32) :
    ∀ (fuel di cur : Nat), cur ≤ sizeAt F leaf slot → di = F.headerSize + offsetAt F leaf slot + cur →
      CheckM.All (Event.InTableOrItem F leaf slot)
        (checkDirItemLoopU32 fs leaf key slot (sizeAt F leaf slot) fuel di cur)
  | 0, _, _, _, _ => CheckM.all_pure _ _
  | fuel + 1, di, cur, _, hdi => by
    rw [checkDirItemLoopU32]
    split_ifs with hlt
    · rw [checkDirItemPass_u32 (by omega), CheckM.all_bind]
      refine ⟨all_tableOrItem_checkDirItemPass fs leaf slot hF key hdi, ?_⟩
      split
      · exact CheckM.all_pure _ _
      · rename_i nameLen dataLen hp
        obtain ⟨hnd, -, -, hfit⟩ := checkDirItemPass_ok hp
        obtain ⟨rfl, rfl⟩ := Prod.mk.inj hnd
        unfold DirEntry.size at hfit
        have := F.dirItemSize_pos
        rw [Nat.mod_eq_of_lt (by omega)]
        exact all_tableOrItem_checkDirItemLoopU32 hF key hsize fuel _ _ hfit (by omega)
    · exact CheckM.all_pure _ _

theorem all_tableOrItem_checkDirItemU32 (hF : F.DirHeaderWithin) (key prevKey : Key) (fuel : Nat)
    (hsize : sizeAt F leaf slot + F.dirItemSize + fs.maxXattrSize ≤ 2 ^ 32) :
    CheckM.All (Event.InTableOrItem F leaf slot) (checkDirItemU32 fs leaf key prevKey slot fuel) := by
  have hloop := all_tableOrItem_checkDirItemLoopU32 fs leaf slot hF key hsize fuel
    (itemPtrOffset F leaf slot).val 0 (Nat.zero_le _) rfl
  simp only [sizeAt] at hloop
  simp only [checkDirItemU32, CheckM.all_bind, CheckM.all_ite_iff, all_tableOrItem_itemSizeNr leaf slot le_rfl,
    all_tableOrItem_checkPrevIno, all_tableOrItem_itemPtrOffset leaf slot le_rfl, hloop,
    CheckM.all_pure, and_self, implies_true]

end Table

/-- For every leaf, key and slot, and a format whose chunk and directory
entry structs hold the members the checkers load: `check_csum_item`,
`check_simple_keyed_refs`, `check_leaf_chunk_item` on the item's data and,
while its cursor cannot wrap, `check_dir_item` load nothing but the block
header, the item table up to the item's own header, and the item's data. -/
theorem check_item_loads_stay_in_table (fs : FsInfo F) (hchunk : F.ChunkMembersWithin)
    (hdir : F.DirHeaderWithin) (leaf : ExtentBuffer) (key prevKey : Key) (slot fuel : Nat) :
    (∀ e ∈ (checkCsumItem fs leaf key slot prevKey).log, e.InTableOrItem F leaf slot) ∧
      (∀ e ∈ (checkSimpleKeyedRefs fs leaf key slot).log, e.InTableOrItem F leaf slot) ∧
      (∀ e ∈ (checkLeafChunkItem fs leaf (itemPtrOffset F leaf slot).val key slot).log,
        e.InTableOrItem F leaf slot) ∧
      (sizeAt F leaf slot + F.dirItemSize + fs.maxXattrSize ≤ 2 ^ 32 →
        ∀ e ∈ (checkDirItemU32 fs leaf key prevKey slot fuel).log, e.InTableOrItem F leaf slot) :=
  ⟨all_tableOrItem_checkCsumItem fs leaf slot key prevKey,
    all_tableOrItem_checkSimpleKeyedRefs fs leaf slot key,
    all_tableOrItem_checkLeafChunkItem fs leaf slot hchunk key,
    all_tableOrItem_checkDirItemU32 fs leaf slot hdir key prevKey fuel⟩

theorem check_item_loads_stay_in_table_packed :
    packedFormat.ChunkMembersWithin ∧ packedFormat.DirHeaderWithin ∧
      (∀ e ∈ (checkCsumItem packedFs dirItemLeaf Key.zero 0 Key.zero).log,
        e.InTableOrItem packedFormat dirItemLeaf 0) ∧
      (∀ e ∈ (checkSimpleKeyedRefs packedFs dirItemLeaf Key.zero 0).log,
        e.InTableOrItem packedFormat dirItemLeaf 0) ∧
      (∀ e ∈ (checkLeafChunkItem packedFs dirItemLeaf (itemPtrOffset packedFormat dirItemLeaf 0).val
          Key.zero 0).log, e.InTableOrItem packedFormat dirItemLeaf 0) ∧
      (sizeAt packedFormat dirItemLeaf 0 + packedFormat.dirItemSize + packedFs.maxXattrSize ≤ 2 ^ 32 →
        ∀ e ∈ (checkDirItemU32 packedFs dirItemLeaf ⟨256, 84, 97⟩ Key.zero 0 32).log,
          e.InTableOrItem packedFormat dirItemLeaf 0) :=
  ⟨by decide, by decide, check_item_loads_stay_in_table packedFs (by decide) (by decide) dirItemLeaf
    ⟨256, 84, 97⟩ Key.zero 0 32⟩

/-! ## The overlap check's loads of the item before

`check_extent_data_item` requires the inline header before it loads the
extent's type, and a whole `struct apfs_file_extent_item` before it loads the
members of a regular extent.  For the overlap check it loads, through
`file_extent_end`, the type and a length of the previous item, comparing that
item's size with nothing: those loads stay inside it because the walk has
already run `check_extent_data_item` on it. -/

/-- The members `check_extent_data_item` loads before it knows the extent's
type lie inside the inline header, and those of a regular extent inside
`struct apfs_file_extent_item`. -/
def Format.FileExtentMembersWithin (F : Format) : Prop :=
  (∀ m ∈ [F.feRamBytes, F.feCompression, F.feEncryption, F.feType],
      m.Within F.fileExtentInlineDataStart) ∧
    ∀ m ∈ [F.feRamBytes, F.feDiskBytenr, F.feDiskNumBytes, F.feOffset, F.feNumBytes],
      m.Within F.fileExtentItemSize

instance (F : Format) : Decidable F.FileExtentMembersWithin :=
  inferInstanceAs (Decidable (_ ∧ _))

/-- A load {lit}`Event.InTableOrItem` allows for item `slot` or for the
item before it. -/
def Event.InTableOrItems (F : Format) (leaf : ExtentBuffer) (slot : Nat) (e : Event) : Prop :=
  e.InTableOrItem F leaf slot ∨ 0 < slot ∧ e.InTableOrItem F leaf (slot - 1)

theorem CheckM.all_anyM {α : Type} {P : Event → Prop} {f : α → CheckM Bool} :
    ∀ {l : List α}, (∀ a ∈ l, CheckM.All P (f a)) → CheckM.All P (l.anyM f)
  | [], _ => CheckM.all_pure _ _
  | a :: l, h => by
    simp only [List.anyM, CheckM.all_bind]
    refine ⟨h a (List.mem_cons_self _ _), ?_⟩
    split
    · exact CheckM.all_pure _ _
    · exact CheckM.all_anyM fun b hb => h b (List.mem_cons_of_mem _ hb)

section Items

variable (fs : FsInfo F) (leaf : ExtentBuffer) (slot : Nat)

theorem all_tableOrItems_of_tableOrItem {α : Type} {m : CheckM α}
    (h : CheckM.All (Event.InTableOrItem F leaf slot) m) : CheckM.All (Event.InTableOrItems F leaf slot) m :=
  h.imp fun _ => .inl

theorem all_tableOrItems_of_prev {α : Type} {m : CheckM α} (hslot : 0 < slot)
    (h : CheckM.All (Event.InTableOrItem F leaf (slot - 1)) m) :
    CheckM.All (Event.InTableOrItems F leaf slot) m :=
  h.imp fun _ he => .inr ⟨hslot, he⟩

/-- `file_extent_end` of an extent that holds the inline header and, unless it
is inline, the whole struct. -/
theorem all_tableOrItem_fileExtentEnd (hF : F.FileExtentMembersWithin) (key : Key)
    (hsize : F.fileExtentInlineDataStart ≤ sizeAt F leaf slot)
    (hregular : (readMember F leaf (itemPtrOffset F leaf slot).val F.feType).val ≠ F.fileExtentInline →
      sizeAt F leaf slot = F.fileExtentItemSize) :
    CheckM.All (Event.InTableOrItem F leaf slot)
      (fileExtentEnd fs leaf key (itemPtrOffset F leaf slot).val) := by
  obtain ⟨hinl, hreg⟩ := hF
  simp only [fileExtentEnd, CheckM.all_bind, CheckM.all_ite_iff, CheckM.all_pure,
    all_tableOrItem_readMember leaf slot (hinl F.feType (by simp)) hsize, true_and, and_true]
  exact ⟨fun _ => all_tableOrItem_readMember leaf slot (hinl F.feRamBytes (by simp)) hsize,
    fun h => all_tableOrItem_readMember leaf slot (hreg F.feNumBytes (by simp)) (hregular h).ge⟩

/-- When the previous key, if it is a file extent's, is that of an item
`check_extent_data_item` did not reject, its loads stay inside the table, the
item and the item before. -/
theorem all_tableOrItems_checkExtentDataItem (hF : F.FileExtentMembersWithin) (key prevKey pp : Key)
    (hprev : 0 < slot → prevKey.type = F.extentDataKey →
      0 ≤ (checkExtentDataItem fs leaf prevKey (slot - 1) pp).val) :
    CheckM.All (Event.InTableOrItems F leaf slot) (checkExtentDataItem fs leaf key slot prevKey) := by
  simp only [checkExtentDataItem, fileExtentErr, CheckM.all_bind, CheckM.all_ite_iff, CheckM.all_pure,
    all_tableOrItems_of_tableOrItem leaf slot (all_tableOrItem_itemSizeNr leaf slot le_rfl),
    all_tableOrItems_of_tableOrItem leaf slot (all_tableOrItem_keyedErr leaf slot _),
    all_tableOrItems_of_tableOrItem leaf slot (all_tableOrItem_checkPrevIno leaf slot _ _),
    all_tableOrItems_of_tableOrItem leaf slot (all_tableOrItem_itemPtrOffset leaf slot le_rfl),
    true_and, and_true, implies_true]
  obtain ⟨hinl, hreg⟩ := hF
  intro _ _ hsmall
  have hin : ∀ m ∈ [F.feRamBytes, F.feCompression, F.feEncryption, F.feType],
      CheckM.All (Event.InTableOrItems F leaf slot) (readMember F leaf (itemPtrOffset F leaf slot).val m) :=
    fun m hm => all_tableOrItems_of_tableOrItem leaf slot
      (all_tableOrItem_readMember leaf slot (hinl m hm) (Nat.le_of_not_lt hsmall))
  simp only [List.forall_mem_cons, List.forall_mem_nil] at hin
  obtain ⟨hram, hcomp, henc, htype, -⟩ := hin
  simp only [hram, hcomp, henc, htype, true_and, and_true, implies_true]
  intro _ _ _ _ hregular
  have hreads : ∀ m ∈ [F.feRamBytes, F.feDiskBytenr, F.feDiskNumBytes, F.feOffset, F.feNumBytes],
      CheckM.All (Event.InTableOrItems F leaf slot) (readMember F leaf (itemPtrOffset F leaf slot).val m) :=
    fun m hm => all_tableOrItems_of_tableOrItem leaf slot
      (all_tableOrItem_readMember leaf slot (hreg m hm) (not_not.1 hregular).ge)
  have hnum := hreads F.feNumBytes (by simp)
  refine ⟨CheckM.all_anyM fun m hm => ?_, fun _ => ⟨hnum, fun _ => hnum, fun _ hprevKey => ?_⟩⟩
  · simp only [checkFeAligned, fileExtentErr, CheckM.all_bind, CheckM.all_ite_iff, hreads m hm,
      all_tableOrItems_of_tableOrItem leaf slot (all_tableOrItem_keyedErr leaf slot _), CheckM.all_pure,
      and_self, implies_true]
  · obtain ⟨hslot, -, hty⟩ := hprevKey
    obtain ⟨hsize, -, hregular'⟩ := checkExtentDataItem_nonneg (hprev hslot hty)
    exact ⟨all_tableOrItems_of_tableOrItem leaf slot (all_tableOrItem_itemPtrOffset leaf slot (Nat.sub_le _ _)),
      all_tableOrItems_of_prev leaf slot hslot (all_tableOrItem_fileExtentEnd fs leaf (slot - 1)
        ⟨hinl, hreg⟩ prevKey hsize fun h => (hregular' h).1),
      fun _ => all_tableOrItems_of_prev leaf slot hslot (all_tableOrItem_keyedErr leaf (slot - 1) _)⟩

end Items

/-- For every leaf, key and slot, and a format whose file extent item holds
the members the checker loads: when the previous key, if it is a file
extent's, is that of an item `check_extent_data_item` did not reject, as the
leaf walk makes sure, `check_extent_data_item` loads nothing but the block
header, the item table up to the item's header, the item's data, and the data
of the item before. -/
theorem check_extent_data_item_loads_stay_in_items (fs : FsInfo F)
    (hF : F.FileExtentMembersWithin) (leaf : ExtentBuffer) (key prevKey prevPrevKey : Key) (slot : Nat)
    (hprev : 0 < slot → prevKey.type = F.extentDataKey →
      0 ≤ (checkExtentDataItem fs leaf prevKey (slot - 1) prevPrevKey).val) :
    ∀ e ∈ (checkExtentDataItem fs leaf key slot prevKey).log, e.InTableOrItems F leaf slot :=
  all_tableOrItems_checkExtentDataItem fs leaf slot hF key prevKey prevPrevKey hprev

/-- The regular extent of {lit}`inlineExtentLeaf`, after an inline extent of
the same inode: the overlap check loads the inline extent's type and
`ram_bytes`. -/
theorem check_extent_data_item_loads_stay_in_items_after_inline :
    packedFormat.FileExtentMembersWithin ∧
      (0 < 1 → (keyAt packedFormat inlineExtentLeaf 0).type = packedFormat.extentDataKey →
        0 ≤ (checkExtentDataItem packedFs inlineExtentLeaf (keyAt packedFormat inlineExtentLeaf 0)
          (1 - 1) Key.zero).val) ∧
      ∀ e ∈ (checkExtentDataItem packedFs inlineExtentLeaf (keyAt packedFormat inlineExtentLeaf 1) 1
          (keyAt packedFormat inlineExtentLeaf 0)).log,
        e.InTableOrItems packedFormat inlineExtentLeaf 1 :=
  have hprev : 0 < 1 → (keyAt packedFormat inlineExtentLeaf 0).type = packedFormat.extentDataKey →
      0 ≤ (checkExtentDataItem packedFs inlineExtentLeaf (keyAt packedFormat inlineExtentLeaf 0)
        (1 - 1) Key.zero).val := fun _ _ => by decide
  ⟨by decide, hprev, check_extent_data_item_loads_stay_in_items packedFs (by decide) inlineExtentLeaf
    _ _ Key.zero 1 hprev⟩

end Apfs
