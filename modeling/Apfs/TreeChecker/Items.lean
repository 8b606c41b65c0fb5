import Apfs.Ctree

/-!
# Item validators of the file trees

The validators `check_leaf_item` dispatches to for the items of subvolume
trees and of the root tree: file extents, checksums, directory and xattr
entries, inode refs, inode items and root items, with the two key-shape
checks the directory entries share with inode and root items.  Each is
translated statement by statement: every member load is a logged read, every
report a logged corruption, and each early `return` a `return` of the same
value.

The directory and inode-ref payloads are sequences of records, walked by a
cursor that each record advances by its size.  The loops are well-founded
recursions on the bytes left: a record that would cross the payload's end is
reported before the cursor moves, and every record takes at least `sizeof` of
its header, which is positive.

The directory loop's cursor is a `u32`, and the test that an entry does not
cross the item's end sums it with the entry's size in `u32`.  The loop body is
{lit}`checkDirItemPass`, given how that sum is computed.  With sums that wrap
at `2 ^ 32` it is the code's loop {lit}`checkDirItemLoopU32`, which
`check_leaf_item` dispatches to, run for a number of passes, as it need not
end.  With exact sums it is the well-founded {lit}`checkDirItemLoop`, which
proofs reason about.  The two agree on every item whose size leaves no room
for a sum to wrap.
-/

namespace Apfs

variable {F : Format}

/-! ## Reports -/

/-- The reporters that also name the slot's key: `file_extent_err`,
`dir_item_err`, `block_group_err` and `dev_item_err` differ only in the prefix
of their message.  Each reads the key, then the header's level, owner and
address. -/
def keyedErr (F : Format) (eb : ExtentBuffer) (slot : Nat) (reason : String) : CheckM Unit := do
  let _ ← itemKeyToCpu F eb slot
  genericErr F eb slot reason

/-- `file_extent_err`. -/
def fileExtentErr (F : Format) (eb : ExtentBuffer) (slot : Nat) (reason : String) : CheckM Unit :=
  keyedErr F eb slot reason

/-- `dir_item_err`, which is also `inode_item_err` and `inode_ref_err`. -/
def dirItemErr (F : Format) (eb : ExtentBuffer) (slot : Nat) (reason : String) : CheckM Unit :=
  keyedErr F eb slot reason

/-! ## Key continuity and file extents -/

/-- `check_prev_ino`: in a subvolume tree the previous slot's key has the same
inode number. -/
def checkPrevIno (F : Format) (leaf : ExtentBuffer) (key : Key) (slot : Nat) (prevKey : Key) :
    CheckM Bool := do
  if slot = 0 then
    return true
  if !F.isFstree (← headerOwner F leaf) then
    return true
  if key.objectid = prevKey.objectid then
    return true
  dirItemErr F leaf slot "invalid previous key objectid, have %llu expect %llu"
  return false

/-- `file_extent_end`: where the file extent at `extent` ends in the file, a
`u64` sum; an inline extent is rounded up to the sector size. -/
def fileExtentEnd (fs : FsInfo F) (leaf : ExtentBuffer) (key : Key) (extent : Nat) :
    CheckM Nat := do
  if (← readMember F leaf extent F.feType) = F.fileExtentInline then
    let len ← readMember F leaf extent F.feRamBytes
    pure (alignUp ((key.offset + len) % 2 ^ 64) fs.sectorsize)
  else
    let len ← readMember F leaf extent F.feNumBytes
    pure ((key.offset + len) % 2 ^ 64)

/-- `CHECK_FE_ALIGNED(leaf, slot, fi, name, alignment)`: `true` when the
member is not aligned, after a report; the macro loads the member again for
the report and for its value. -/
def checkFeAligned (F : Format) (leaf : ExtentBuffer) (slot fi alignment : Nat) (m : Member) :
    CheckM Bool := do
  if !isAligned (← readMember F leaf fi m) alignment then
    let _ ← readMember F leaf fi m
    fileExtentErr F leaf slot "invalid %s for file extent, have %llu, should be aligned to %u"
  pure !isAligned (← readMember F leaf fi m) alignment

/-- `check_extent_data_item`. -/
def checkExtentDataItem (fs : FsInfo F) (leaf : ExtentBuffer) (key : Key) (slot : Nat)
    (prevKey : Key) : CheckM Int := do
  let sectorsize := fs.sectorsize
  let itemSize ← itemSizeNr F leaf slot
  if !isAligned key.offset sectorsize then
    fileExtentErr F leaf slot
      "unaligned file_offset for file extent, have %llu should be aligned to %u"
    return -EUCLEAN
  if !(← checkPrevIno F leaf key slot prevKey) then
    return -EUCLEAN
  let fi ← itemPtrOffset F leaf slot
  if itemSize < F.fileExtentInlineDataStart then
    fileExtentErr F leaf slot "invalid item size, have %u expect [%zu, %u)"
    return -EUCLEAN
  if (← readMember F leaf fi F.feType) ≥ F.nrFileExtentTypes then
    let _ ← readMember F leaf fi F.feType
    fileExtentErr F leaf slot "invalid type for file extent, have %u expect range [0, %u]"
    return -EUCLEAN
  if (← readMember F leaf fi F.feCompression) ≥ F.nrCompressTypes then
    let _ ← readMember F leaf fi F.feCompression
    fileExtentErr F leaf slot
      "invalid compression for file extent, have %u expect range [0, %u]"
    return -EUCLEAN
  if (← readMember F leaf fi F.feEncryption) ≠ 0 then
    let _ ← readMember F leaf fi F.feEncryption
    fileExtentErr F leaf slot "invalid encryption for file extent, have %u expect 0"
    return -EUCLEAN
  if (← readMember F leaf fi F.feType) = F.fileExtentInline then
    if key.offset ≠ 0 then
      fileExtentErr F leaf slot
        "invalid file_offset for inline file extent, have %llu expect 0"
      return -EUCLEAN
    if (← readMember F leaf fi F.feCompression) ≠ F.compressNone then
      return 0
    if itemSize ≠ (F.fileExtentInlineDataStart + (← readMember F leaf fi F.feRamBytes)) % 2 ^ 64 then
      let _ ← readMember F leaf fi F.feRamBytes
      fileExtentErr F leaf slot
        "invalid ram_bytes for uncompressed inline extent, have %u expect %llu"
      return -EUCLEAN
    return 0
  if itemSize ≠ F.fileExtentItemSize then
    fileExtentErr F leaf slot
      "invalid item size for reg/prealloc file extent, have %u expect %zu"
    return -EUCLEAN
  if (← [F.feRamBytes, F.feDiskBytenr, F.feDiskNumBytes, F.feOffset, F.feNumBytes].anyM
      (checkFeAligned F leaf slot fi sectorsize)) then
    return -EUCLEAN
  if (← readMember F leaf fi F.feNumBytes) + key.offset ≥ 2 ^ 64 then
    let _ ← readMember F leaf fi F.feNumBytes
    fileExtentErr F leaf slot "extent end overflow, have file offset %llu extent num bytes %llu"
    return -EUCLEAN
  if slot > 0 ∧ prevKey.objectid = key.objectid ∧ prevKey.type = F.extentDataKey then
    let prevFi ← itemPtrOffset F leaf (slot - 1)
    let prevEnd ← fileExtentEnd fs leaf prevKey prevFi
    if prevEnd > key.offset then
      fileExtentErr F leaf (slot - 1)
        "file extent end range (%llu) goes beyond start offset (%llu) of the next file extent"
      return -EUCLEAN
  return 0

/-- `check_csum_item`.  The previous item's coverage is a `u32` product, then a
`u64` sum. -/
def checkCsumItem (fs : FsInfo F) (leaf : ExtentBuffer) (key : Key) (slot : Nat)
    (prevKey : Key) : CheckM Int := do
  let sectorsize := fs.sectorsize
  let csumsize := fs.csumSize
  if key.objectid ≠ F.extentCsumObjectid then
    genericErr F leaf slot "invalid key objectid for csum item, have %llu expect %llu"
    return -EUCLEAN
  if !isAligned key.offset sectorsize then
    genericErr F leaf slot
      "unaligned key offset for csum item, have %llu should be aligned to %u"
    return -EUCLEAN
  if !isAligned (← itemSizeNr F leaf slot) csumsize then
    let _ ← itemSizeNr F leaf slot
    genericErr F leaf slot "unaligned item size for csum item, have %u should be aligned to %u"
    return -EUCLEAN
  if slot > 0 ∧ prevKey.type = F.extentCsumKey then
    let prevItemSize ← itemSizeNr F leaf (slot - 1)
    let prevCsumEnd := (prevItemSize / csumsize * sectorsize % 2 ^ 32 + prevKey.offset) % 2 ^ 64
    if prevCsumEnd > key.offset then
      genericErr F leaf (slot - 1)
        "csum end range (%llu) goes beyond the start range (%llu) of the next csum item"
      return -EUCLEAN
  return 0

/-! ## Key shapes -/

/-- `check_inode_key`: the key of an inode item, or the location key of a
directory entry pointing to an inode. -/
def checkInodeKey (F : Format) (leaf : ExtentBuffer) (key : Key) (slot : Nat) : CheckM Int := do
  let itemKey ← itemKeyToCpu F leaf slot
  let isInodeItem := itemKey.type = F.inodeItemKey
  if itemKey.type = F.xattrItemKey then
    if key.objectid ≠ 0 ∨ key.type ≠ 0 ∨ key.offset ≠ 0 then
      return -EUCLEAN
    return 0
  if (key.objectid < F.firstFreeObjectid ∨ key.objectid > F.lastFreeObjectid) ∧
      key.objectid ≠ F.rootTreeDirObjectid ∧ key.objectid ≠ F.freeInoObjectid then
    if isInodeItem then
      genericErr F leaf slot "invalid key objectid: has %llu expect %llu or [%llu, %llu] or %llu"
    else
      dirItemErr F leaf slot
        "invalid location key objectid: has %llu expect %llu or [%llu, %llu] or %llu"
    return -EUCLEAN
  if key.offset ≠ 0 then
    if isInodeItem then
      dirItemErr F leaf slot "invalid key offset: has %llu expect 0"
    else
      dirItemErr F leaf slot "invalid location key offset:has %llu expect 0"
    return -EUCLEAN
  return 0

/-- `check_root_key`: the key of a root item, or the location key of a
directory entry pointing to a subvolume. -/
def checkRootKey (F : Format) (leaf : ExtentBuffer) (key : Key) (slot : Nat) : CheckM Int := do
  let itemKey ← itemKeyToCpu F leaf slot
  let isRootItem := itemKey.type = F.rootItemKey
  if key.objectid = 0 then
    if isRootItem then
      genericErr F leaf slot "invalid root id 0"
    else
      dirItemErr F leaf slot "invalid location key root id 0"
    return -EUCLEAN
  if !F.isFstree key.objectid ∧ ¬isRootItem then
    dirItemErr F leaf slot "invalid location key objectid, have %llu expect [%llu, %llu]"
    return -EUCLEAN
  if key.objectid = F.treeRelocObjectid ∧ key.offset = 0 then
    genericErr F leaf slot "invalid root id 0 for reloc tree"
    return -EUCLEAN
  return 0

/-! ## Directory entries -/

/-- `XATTR_NAME_MAX` of `linux/limits.h`. -/
def xattrNameMax : Nat :=
  255

/-- The checks `check_dir_item`'s loop body makes of the entry at linear
offset `di`, `cur` bytes into an item of `itemSize` bytes, before the entry's
size is known: its header fits in the item, and its location key, type and
name and data lengths pass.  The value the body returns, or the name and data
lengths. -/
def checkDirEntry (fs : FsInfo F) (leaf : ExtentBuffer) (key : Key) (slot itemSize di cur : Nat) :
    CheckM (Except Int (Nat × Nat)) := do
  if cur + F.dirItemSize > itemSize then
    dirItemErr F leaf slot "dir item header crosses item boundary, have %zu boundary %u"
    return .error (-EUCLEAN)
  let locationKey ← dirItemKeyToCpu F leaf di
  if locationKey.type = F.rootItemKey then
    let ret ← checkRootKey F leaf locationKey slot
    if ret < 0 then
      return .error ret
  else if locationKey.type = F.inodeItemKey ∨ locationKey.type = 0 then
    let ret ← checkInodeKey F leaf locationKey slot
    if ret < 0 then
      return .error ret
  else
    dirItemErr F leaf slot "invalid location key type, have %u, expect %u or %u"
    return .error (-EUCLEAN)
  let dirType ← readMember F leaf di F.diType
  if dirType ≥ F.ftMax then
    dirItemErr F leaf slot "invalid dir item type, have %u expect [0, %u)"
    return .error (-EUCLEAN)
  if key.type = F.xattrItemKey ∧ dirType ≠ F.ftXattr then
    dirItemErr F leaf slot "invalid dir item type for XATTR key, have %u expect %u"
    return .error (-EUCLEAN)
  if dirType = F.ftXattr ∧ key.type ≠ F.xattrItemKey then
    dirItemErr F leaf slot "xattr dir type found for non-XATTR key"
    return .error (-EUCLEAN)
  let maxNameLen := if dirType = F.ftXattr then xattrNameMax else F.nameLen
  let nameLen ← readMember F leaf di F.diNameLen
  let dataLen ← readMember F leaf di F.diDataLen
  if nameLen > maxNameLen then
    dirItemErr F leaf slot "dir item name len too long, have %u max %u"
    return .error (-EUCLEAN)
  if nameLen + dataLen > fs.maxXattrSize then
    dirItemErr F leaf slot "dir item name and data len too long, have %u max %u"
    return .error (-EUCLEAN)
  if dataLen ≠ 0 ∧ dirType ≠ F.ftXattr then
    dirItemErr F leaf slot "dir item with invalid data len, have %u expect 0"
    return .error (-EUCLEAN)
  return .ok (nameLen, dataLen)

/-- One pass of `check_dir_item`'s loop body: the checks of
{lit}`checkDirEntry`, then that the entry, `total_size` bytes, does not cross
the item's end, and the name hash of a `DIR_ITEM` or `XATTR_ITEM`.  `add` is
the sum `cur + total_size` as the loop computes it. -/
def checkDirItemPass (fs : FsInfo F) (leaf : ExtentBuffer) (key : Key) (slot itemSize : Nat)
    (add : Nat → Nat → Nat) (di cur : Nat) : CheckM (Except Int (Nat × Nat)) := do
  match ← checkDirEntry fs leaf key slot itemSize di cur with
  | .error ret => return .error ret
  | .ok (nameLen, dataLen) =>
    let totalSize := F.dirItemSize + nameLen + dataLen
    if add cur totalSize > itemSize then
      dirItemErr F leaf slot "dir item data crosses item boundary, have %u boundary %u"
      return .error (-EUCLEAN)
    if key.type = F.dirItemKey ∨ key.type = F.xattrItemKey then
      let namebuf ← readExtentBuffer F leaf (di + F.dirItemSize) nameLen
      let nameHash := F.nameHash namebuf fs.caseInsensitive % 2 ^ 32
      if key.offset ≠ nameHash then
        dirItemErr F leaf slot "name hash mismatch with key, have 0x%016x expect 0x%016llx"
        return .error (-EUCLEAN)
    return .ok (nameLen, dataLen)

/-- `check_dir_item`'s loop from the entry at linear offset `di`, `cur` bytes
into an item of `itemSize` bytes, with the sums `cur + total_size` exact. -/
def checkDirItemLoop (fs : FsInfo F) (leaf : ExtentBuffer) (key : Key) (slot itemSize : Nat)
    (di cur : Nat) : CheckM Int :=
  if cur < itemSize then do
    match ← checkDirItemPass fs leaf key slot itemSize (· + ·) di cur with
    | .error ret => return ret
    | .ok (nameLen, dataLen) =>
      checkDirItemLoop fs leaf key slot itemSize (di + (F.dirItemSize + nameLen + dataLen))
        (cur + (F.dirItemSize + nameLen + dataLen))
  else
    pure 0
termination_by itemSize - cur
decreasing_by
  simp_wf
  have := F.dirItemSize_pos
  omega

/-- `check_dir_item`'s loop as the code runs it: `cur` is a `u32`, so
`cur + total_size` wraps at `2 ^ 32` and the loop need not end.  It is run for
at most `fuel` passes, and gives `none` when it has not returned by then. -/
def checkDirItemLoopU32 (fs : FsInfo F) (leaf : ExtentBuffer) (key : Key) (slot itemSize : Nat) :
    (fuel di cur : Nat) → CheckM (Option Int)
  | 0, _, _ => pure none
  | fuel + 1, di, cur =>
    if cur < itemSize then do
      match ← checkDirItemPass fs leaf key slot itemSize (fun a b => (a + b) % 2 ^ 32) di cur with
      | .error ret => return some ret
      | .ok (nameLen, dataLen) =>
        checkDirItemLoopU32 fs leaf key slot itemSize fuel (di + (F.dirItemSize + nameLen + dataLen))
          ((cur + (F.dirItemSize + nameLen + dataLen)) % 2 ^ 32)
    else
      pure (some 0)

/-- `check_dir_item` with the sums `cur + total_size` exact: the item is a
sequence of directory entries, walked by {lit}`checkDirItemLoop`. -/
def checkDirItem (fs : FsInfo F) (leaf : ExtentBuffer) (key prevKey : Key) (slot : Nat) :
    CheckM Int := do
  let itemSize ← itemSizeNr F leaf slot
  if !(← checkPrevIno F leaf key slot prevKey) then
    return -EUCLEAN
  let di ← itemPtrOffset F leaf slot
  checkDirItemLoop fs leaf key slot itemSize di 0

/-- `check_dir_item` as the code runs it, with the `u32` loop
{lit}`checkDirItemLoopU32` run for at most `fuel` passes. -/
def checkDirItemU32 (fs : FsInfo F) (leaf : ExtentBuffer) (key prevKey : Key) (slot fuel : Nat) :
    CheckM (Option Int) := do
  let itemSize ← itemSizeNr F leaf slot
  if !(← checkPrevIno F leaf key slot prevKey) then
    return some (-EUCLEAN)
  let di ← itemPtrOffset F leaf slot
  checkDirItemLoopU32 fs leaf key slot itemSize fuel di 0

/-! ## Inode refs -/

/-- `sizeof` of a pointer, on the 64-bit targets whose `unsigned long` the
model assumes throughout. -/
def pointerSize : Nat :=
  8

/-- `check_inode_ref`'s loop from the record at linear offset `ptr` to the
item's end `end_`.  The first bound is `sizeof(iref)`, the size of the pointer
`iref`, where the struct's size `sizeof(*iref)` follows. -/
def checkInodeRefLoop (F : Format) (leaf : ExtentBuffer) (slot ptr end_ : Nat) : CheckM Int :=
  if ptr < end_ then do
    if ptr + pointerSize > end_ then
      dirItemErr F leaf slot "inode ref overflow, ptr %lu end %lu inode_ref_size %zu"
      return -EUCLEAN
    let namelen ← readMember F leaf ptr F.irefNameLen
    if ptr + F.inodeRefSize + namelen > end_ then
      dirItemErr F leaf slot "inode ref overflow, ptr %lu end %lu namelen %u"
      return -EUCLEAN
    else
      checkInodeRefLoop F leaf slot (ptr + F.inodeRefSize + namelen) end_
  else
    pure 0
termination_by end_ - ptr
decreasing_by
  simp_wf
  have := F.inodeRefSize_pos
  omega

/-- `check_inode_ref`. -/
def checkInodeRef (F : Format) (leaf : ExtentBuffer) (key prevKey : Key) (slot : Nat) :
    CheckM Int := do
  if !(← checkPrevIno F leaf key slot prevKey) then
    return -EUCLEAN
  if (← itemSizeNr F leaf slot) ≤ F.inodeRefSize then
    let _ ← itemSizeNr F leaf slot
    dirItemErr F leaf slot "invalid item size, have %u expect (%zu, %u)"
    return -EUCLEAN
  let ptr ← itemPtrOffset F leaf slot
  let end_ := ptr + (← itemSizeNr F leaf slot)
  checkInodeRefLoop F leaf slot ptr end_

/-! ## Inode and root items -/

/-- `S_IFMT` and the file type values of `linux/stat.h`. -/
def sIFMT : Nat :=
  0o170000

/-- `S_IFSOCK`. -/
def sIFSOCK : Nat :=
  0o140000

/-- `S_IFLNK`. -/
def sIFLNK : Nat :=
  0o120000

/-- `S_IFBLK`. -/
def sIFBLK : Nat :=
  0o060000

/-- `S_IFDIR`. -/
def sIFDIR : Nat :=
  0o040000

/-- The mode bits `check_inode_item` accepts:
`S_IFMT | S_ISUID | S_ISGID | S_ISVTX | 0777`. -/
def inodeValidMask : Nat :=
  sIFMT ||| 0o4000 ||| 0o2000 ||| 0o1000 ||| 0o777

/-- `check_inode_item`.  The generation bound `super_gen + 1` is a `u64`
sum. -/
def checkInodeItem (fs : FsInfo F) (leaf : ExtentBuffer) (key : Key) (slot : Nat) :
    CheckM Int := do
  let superGen := fs.superGeneration
  let ret ← checkInodeKey F leaf key slot
  if ret < 0 then
    return ret
  let iitem ← itemPtrOffset F leaf slot
  if (← readMember F leaf iitem F.inodeGeneration) > (superGen + 1) % 2 ^ 64 then
    let _ ← readMember F leaf iitem F.inodeGeneration
    dirItemErr F leaf slot "invalid inode generation: has %llu expect (0, %llu]"
    return -EUCLEAN
  if (← readMember F leaf iitem F.inodeTransid) > (superGen + 1) % 2 ^ 64 then
    let _ ← readMember F leaf iitem F.inodeTransid
    dirItemErr F leaf slot "invalid inode transid: has %llu expect [0, %llu]"
    return -EUCLEAN
  let mode ← readMember F leaf iitem F.inodeMode
  if mode &&& complementBits 32 inodeValidMask ≠ 0 then
    dirItemErr F leaf slot "unknown mode bit detected: 0x%x"
    return -EUCLEAN
  if !hasSingleBitSet (mode &&& sIFMT) then
    if mode &&& sIFMT ≠ sIFLNK ∧ mode &&& sIFMT ≠ sIFBLK ∧ mode &&& sIFMT ≠ sIFSOCK then
      dirItemErr F leaf slot "invalid mode: has 0%o expect valid S_IF* bit(s)"
      return -EUCLEAN
  if mode &&& sIFMT = sIFDIR then
    if (← readMember F leaf iitem F.inodeNlink) > 1 then
      let _ ← readMember F leaf iitem F.inodeNlink
      dirItemErr F leaf slot "invalid nlink: has %u expect no more than 1 for dir"
      return -EUCLEAN
  if (← readMember F leaf iitem F.inodeFlags) &&& complementBits 64 F.inodeFlagMask ≠ 0 then
    let _ ← readMember F leaf iitem F.inodeFlags
    dirItemErr F leaf slot "unknown flags detected: 0x%llx"
    return -EUCLEAN
  return 0

/-- `check_root_item`.  The item is copied into a zeroed stack
`struct apfs_root_item`, so the members of a legacy item from `generation_v2`
on read as zero. -/
def checkRootItem (fs : FsInfo F) (leaf : ExtentBuffer) (key : Key) (slot : Nat) :
    CheckM Int := do
  let validRootFlags := F.rootSubvolRdonly ||| F.rootSubvolDead
  let genBound := (fs.superGeneration + 1) % 2 ^ 64
  let ret ← checkRootKey F leaf key slot
  if ret < 0 then
    return ret
  if (← itemSizeNr F leaf slot) ≠ F.rootItemSize then
    if (← itemSizeNr F leaf slot) ≠ F.legacyRootItemSize then
      let _ ← itemSizeNr F leaf slot
      genericErr F leaf slot "invalid root item size, have %u expect %zu or %u"
      return -EUCLEAN
  let ri ← readExtentBuffer F leaf (← itemPtrOffset F leaf slot) (← itemSizeNr F leaf slot)
  if stackMember ri F.riGeneration > genBound then
    genericErr F leaf slot "invalid root generation, have %llu expect (0, %llu]"
    return -EUCLEAN
  if stackMember ri F.riGenerationV2 > genBound then
    genericErr F leaf slot "invalid root v2 generation, have %llu expect (0, %llu]"
    return -EUCLEAN
  if stackMember ri F.riLastSnapshot > genBound then
    genericErr F leaf slot "invalid root last_snapshot, have %llu expect (0, %llu]"
    return -EUCLEAN
  if !isAligned (stackMember ri F.riBytenr) fs.sectorsize then
    genericErr F leaf slot "invalid root bytenr, have %llu expect to be aligned to %u"
    return -EUCLEAN
  if stackMember ri F.riLevel ≥ F.maxLevel then
    genericErr F leaf slot "invalid root level, have %u expect [0, %u]"
    return -EUCLEAN
  if stackMember ri F.riDropLevel ≥ F.maxLevel then
    genericErr F leaf slot "invalid root level, have %u expect [0, %u]"
    return -EUCLEAN
  if stackMember ri F.riFlags &&& complementBits 64 validRootFlags ≠ 0 then
    genericErr F leaf slot "invalid root flags, have 0x%llx expect mask 0x%llx"
    return -EUCLEAN
  return 0

end Apfs
