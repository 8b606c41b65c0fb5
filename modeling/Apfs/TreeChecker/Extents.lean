import Apfs.TreeChecker.Items

/-!
# Item validators of the extent, chunk and device trees

The validators `check_leaf_item` dispatches to for block groups, chunks,
devices, extent and metadata items and the keyed back references.  As in
{lit}`Apfs.TreeChecker.Items`, each is translated statement by statement over
the logged reads.

An extent item's payload is a fixed header, then for a tree block without a
skinny key a tree-block info, then a sequence of inline refs, each the size
`apfs_extent_inline_ref_size` gives its type.  The inline-ref loop recurses on
the bytes left: only the four known types advance the cursor, each by a
positive size, and an unknown type leaves through the `default:` branch.  The
data-ref loop advances by `sizeof(struct apfs_extent_data_ref)`.
-/

namespace Apfs

variable {F : Format}

/-! ## Block groups -/

/-- `block_group_err`. -/
def blockGroupErr (F : Format) (eb : ExtentBuffer) (slot : Nat) (reason : String) :
    CheckM Unit :=
  keyedErr F eb slot reason

/-- `check_block_group_item`.  The item is copied to a stack
`struct apfs_block_group_item` and read there. -/
def checkBlockGroupItem (F : Format) (leaf : ExtentBuffer) (key : Key) (slot : Nat) :
    CheckM Int := do
  let itemSize ← itemSizeNr F leaf slot
  if key.offset = 0 then
    blockGroupErr F leaf slot "invalid block group size 0"
    return -EUCLEAN
  if itemSize ≠ F.blockGroupItemSize then
    blockGroupErr F leaf slot "invalid item size, have %u expect %zu"
    return -EUCLEAN
  let bgi ← readExtentBuffer F leaf (← itemPtrOffset F leaf slot) F.blockGroupItemSize
  if stackMember bgi F.bgChunkObjectid ≠ F.firstChunkTreeObjectid then
    blockGroupErr F leaf slot "invalid block group chunk objectid, have %llu expect %llu"
    return -EUCLEAN
  if stackMember bgi F.bgUsed > key.offset then
    blockGroupErr F leaf slot "invalid block group used, have %llu expect [0, %llu)"
    return -EUCLEAN
  let flags := stackMember bgi F.bgFlags
  if hweight64 (flags &&& F.blockGroupProfileMask) > 1 then
    blockGroupErr F leaf slot
      "invalid profile flags, have 0x%llx (%lu bits set) expect no more than 1 bit set"
    return -EUCLEAN
  let type := flags &&& F.blockGroupTypeMask
  if type ≠ F.blockGroupData ∧ type ≠ F.blockGroupMetadata ∧ type ≠ F.blockGroupSystem ∧
      type ≠ (F.blockGroupMetadata ||| F.blockGroupData) then
    blockGroupErr F leaf slot
      "invalid type, have 0x%llx (%lu bits set) expect either 0x%llx, 0x%llx, 0x%llx or 0x%llx"
    return -EUCLEAN
  return 0

/-! ## Chunks -/

/-- The slot scan of `chunk_err` from slot `i`, with `left` slots before
`nritems`: the report names the first slot whose data starts at `chunk`, or
`-1`.  Each test of the loop condition loads `nritems` again. -/
def chunkErrScan (F : Format) (leaf : ExtentBuffer) (chunk : Nat) : Nat → Nat → CheckM Int
  | _, 0 => do
    let _ ← headerNritems F leaf
    pure (-1)
  | i, left + 1 => do
    let _ ← headerNritems F leaf
    if (← itemPtrOffset F leaf i) = chunk then
      pure i
    else
      chunkErrScan F leaf chunk (i + 1) left

/-- `chunk_err`: a chunk in a leaf is reported with its slot; a chunk in the
superblock's system chunk array, whose buffer starts at
`APFS_SUPER_INFO_OFFSET`, without one. -/
def chunkErr (F : Format) (leaf : ExtentBuffer) (chunk : Nat) (reason : String) :
    CheckM Unit := do
  if leaf.start = F.superInfoOffset then
    crit none reason
  else
    let slot ← chunkErrScan F leaf chunk 0 (← headerNritems F leaf)
    crit (if slot < 0 then none else some slot.toNat) reason

/-- `apfs_check_chunk_valid`: the checks on a chunk at linear offset `chunk`
starting at `logical`, shared with the superblock's system chunk array. -/
def apfsCheckChunkValid (fs : FsInfo F) (leaf : ExtentBuffer) (chunk logical : Nat) :
    CheckM Int := do
  let length ← readMember F leaf chunk F.chunkLength
  let stripeLen ← readMember F leaf chunk F.chunkStripeLen
  let numStripes ← readMember F leaf chunk F.chunkNumStripes
  let subStripes ← readMember F leaf chunk F.chunkSubStripes
  let type ← readMember F leaf chunk F.chunkType
  let raidIndex := F.bgFlagsToRaidIndex type
  let ncopies := F.raidNcopies raidIndex
  let nparity := F.raidNparity raidIndex
  let profile := type &&& F.blockGroupProfileMask
  if numStripes = 0 then
    chunkErr F leaf chunk "invalid chunk num_stripes, have %u"
    return -EUCLEAN
  if numStripes < ncopies then
    chunkErr F leaf chunk "invalid chunk num_stripes < ncopies, have %u < %d"
    return -EUCLEAN
  if nparity ≠ 0 ∧ numStripes = nparity then
    chunkErr F leaf chunk "invalid chunk num_stripes == nparity, have %u == %d"
    return -EUCLEAN
  if !isAligned logical fs.sectorsize then
    chunkErr F leaf chunk "invalid chunk logical, have %llu should aligned to %u"
    return -EUCLEAN
  if (← readMember F leaf chunk F.chunkSectorSize) ≠ fs.sectorsize then
    let _ ← readMember F leaf chunk F.chunkSectorSize
    chunkErr F leaf chunk "invalid chunk sectorsize, have %u expect %u"
    return -EUCLEAN
  if length = 0 ∨ !isAligned length fs.sectorsize then
    chunkErr F leaf chunk "invalid chunk length, have %llu"
    return -EUCLEAN
  if logical + length ≥ 2 ^ 64 then
    chunkErr F leaf chunk
      "invalid chunk logical start and length, have logical start %llu length %llu"
    return -EUCLEAN
  if !isPowerOf2 stripeLen ∨ stripeLen ≠ F.stripeLen then
    chunkErr F leaf chunk "invalid chunk stripe length: %llu"
    return -EUCLEAN
  if type &&& complementBits 64 (F.blockGroupTypeMask ||| F.blockGroupProfileMask) ≠ 0 then
    let _ ← readMember F leaf chunk F.chunkType
    chunkErr F leaf chunk "unrecognized chunk type: 0x%llx"
    return -EUCLEAN
  if !hasSingleBitSet profile ∧ profile ≠ 0 then
    chunkErr F leaf chunk "invalid chunk profile flag: 0x%llx, expect 0 or 1 bit set"
    return -EUCLEAN
  if type &&& F.blockGroupTypeMask = 0 then
    chunkErr F leaf chunk "missing chunk type flag, have 0x%llx one bit must be set in 0x%llx"
    return -EUCLEAN
  if type &&& F.blockGroupSystem ≠ 0 ∧
      type &&& (F.blockGroupMetadata ||| F.blockGroupData) ≠ 0 then
    chunkErr F leaf chunk "system chunk with data or metadata type: 0x%llx"
    return -EUCLEAN
  let mixed := fs.incompatFlags &&& F.featureIncompatMixedGroups ≠ 0
  if !mixed then
    if type &&& F.blockGroupMetadata ≠ 0 ∧ type &&& F.blockGroupData ≠ 0 then
      chunkErr F leaf chunk "mixed chunk type in non-mixed mode: 0x%llx"
      return -EUCLEAN
  if (type &&& F.blockGroupRaid10 ≠ 0 ∧ subStripes ≠ 2) ∨
      (type &&& F.blockGroupRaid1 ≠ 0 ∧ numStripes ≠ 2) ∨
      (type &&& F.blockGroupRaid5 ≠ 0 ∧ numStripes < 2) ∨
      (type &&& F.blockGroupRaid6 ≠ 0 ∧ numStripes < 3) ∨
      (type &&& F.blockGroupDup ≠ 0 ∧ numStripes ≠ 2) ∨
      (profile = 0 ∧ numStripes ≠ 1) then
    chunkErr F leaf chunk "invalid num_stripes:sub_stripes %u:%u for profile %llu"
    return -EUCLEAN
  return 0

/-- `check_leaf_chunk_item`: the item holds the chunk and exactly its
stripes, then the common checks with the key offset as the logical start. -/
def checkLeafChunkItem (fs : FsInfo F) (leaf : ExtentBuffer) (chunk : Nat) (key : Key)
    (slot : Nat) : CheckM Int := do
  if (← itemSizeNr F leaf slot) < F.chunkSize then
    let _ ← itemSizeNr F leaf slot
    chunkErr F leaf chunk "invalid chunk item size: have %u expect [%zu, %u)"
    return -EUCLEAN
  let numStripes ← readMember F leaf chunk F.chunkNumStripes
  if numStripes ≠ 0 then
    if F.chunkItemSize numStripes ≠ (← itemSizeNr F leaf slot) then
      let _ ← itemSizeNr F leaf slot
      chunkErr F leaf chunk "invalid chunk item size: have %u expect %lu"
      return -EUCLEAN
  apfsCheckChunkValid fs leaf chunk key.offset

/-! ## Devices -/

/-- `dev_item_err`. -/
def devItemErr (F : Format) (eb : ExtentBuffer) (slot : Nat) (reason : String) :
    CheckM Unit :=
  keyedErr F eb slot reason

/-- `check_dev_item`. -/
def checkDevItem (F : Format) (leaf : ExtentBuffer) (key : Key) (slot : Nat) : CheckM Int := do
  if key.objectid ≠ F.devItemsObjectid then
    devItemErr F leaf slot "invalid objectid: has=%llu expect=%llu"
    return -EUCLEAN
  let ditem ← itemPtrOffset F leaf slot
  if (← readMember F leaf ditem F.devId) ≠ key.offset then
    let _ ← readMember F leaf ditem F.devId
    devItemErr F leaf slot "devid mismatch: key has=%llu item has=%llu"
    return -EUCLEAN
  if (← readMember F leaf ditem F.devBytesUsed) > (← readMember F leaf ditem F.devTotalBytes) then
    let _ ← readMember F leaf ditem F.devBytesUsed
    let _ ← readMember F leaf ditem F.devTotalBytes
    devItemErr F leaf slot "invalid bytes used: have %llu expect [0, %llu]"
    return -EUCLEAN
  return 0

/-! ## Extent items -/

/-- `extent_err`: reads the slot's key and the header's level; the address
reported is the buffer's start. -/
def extentErr (F : Format) (eb : ExtentBuffer) (slot : Nat) (reason : String) :
    CheckM Unit := do
  let _ ← itemKeyToCpu F eb slot
  let _ ← headerLevel F eb
  crit (some slot) reason

/-- `check_extent_item`'s loop over the inline refs, from linear offset `ptr`
to the item's end `end_`, with `inlineRefs` references counted so far: the
error it returns, or where it stopped and the count. -/
def extentInlineRefsLoop (fs : FsInfo F) (leaf : ExtentBuffer) (slot end_ : Nat)
    (ptr inlineRefs : Nat) : CheckM (Except Int (Nat × Nat)) :=
  if ptr < end_ then do
    if ptr + F.extentInlineRefSize > end_ then
      extentErr F leaf slot "inline ref item overflows extent item, ptr %lu iref size %zu end %lu"
      return .error (-EUCLEAN)
    let inlineType ← readMember F leaf ptr F.irType
    let inlineOffset ← readMember F leaf ptr F.irOffset
    if ptr + F.inlineRefSize inlineType > end_ then
      extentErr F leaf slot "inline ref item overflows extent item, ptr %lu iref size %u end %lu"
      return .error (-EUCLEAN)
    if inlineType = F.treeBlockRefKey then
      extentInlineRefsLoop fs leaf slot end_ (ptr + F.inlineRefSize inlineType)
        ((inlineRefs + 1) % 2 ^ 64)
    else if inlineType = F.sharedBlockRefKey then
      if !isAligned inlineOffset fs.sectorsize then
        extentErr F leaf slot "invalid tree parent bytenr, have %llu expect aligned to %u"
        return .error (-EUCLEAN)
      extentInlineRefsLoop fs leaf slot end_ (ptr + F.inlineRefSize inlineType)
        ((inlineRefs + 1) % 2 ^ 64)
    else if inlineType = F.extentDataRefKey then
      let dref := ptr + F.irOffset.off
      let drefOffset ← readMember F leaf dref F.edrOffset
      if !isAligned drefOffset fs.sectorsize then
        extentErr F leaf slot "invalid data ref offset, have %llu expect aligned to %u"
        return .error (-EUCLEAN)
      let count ← readMember F leaf dref F.edrCount
      extentInlineRefsLoop fs leaf slot end_ (ptr + F.inlineRefSize inlineType)
        ((inlineRefs + count) % 2 ^ 64)
    else if inlineType = F.sharedDataRefKey then
      let sref := ptr + F.extentInlineRefSize
      if !isAligned inlineOffset fs.sectorsize then
        extentErr F leaf slot "invalid data parent bytenr, have %llu expect aligned to %u"
        return .error (-EUCLEAN)
      let count ← readMember F leaf sref F.sdrCount
      extentInlineRefsLoop fs leaf slot end_ (ptr + F.inlineRefSize inlineType)
        ((inlineRefs + count) % 2 ^ 64)
    else
      extentErr F leaf slot "unknown inline ref type: %u"
      return .error (-EUCLEAN)
  else
    pure (.ok (ptr, inlineRefs))
termination_by end_ - ptr
decreasing_by
  all_goals simp_wf
  · have := F.inlineRefSize_pos _ (.inl ‹_›)
    omega
  · have := F.inlineRefSize_pos _ (.inr (.inl ‹_›))
    omega
  · have := F.inlineRefSize_pos _ (.inr (.inr (.inl ‹_›)))
    omega
  · have := F.inlineRefSize_pos _ (.inr (.inr (.inr ‹_›)))
    omega

/-- `check_extent_item`, for `EXTENT_ITEM` and `METADATA_ITEM` keys.  The
generation bound `super_gen + 1` is a `u64` sum. -/
def checkExtentItem (fs : FsInfo F) (leaf : ExtentBuffer) (key : Key) (slot : Nat) :
    CheckM Int := do
  let itemSize ← itemSizeNr F leaf slot
  if key.type = F.metadataItemKey ∧
      fs.incompatFlags &&& F.featureIncompatSkinnyMetadata = 0 then
    genericErr F leaf slot
      "invalid key type, METADATA_ITEM type invalid when SKINNY_METADATA feature disabled"
    return -EUCLEAN
  if !isAligned key.objectid fs.sectorsize then
    genericErr F leaf slot "invalid key objectid, have %llu expect to be aligned to %u"
    return -EUCLEAN
  if key.type = F.metadataItemKey ∧ key.offset ≥ F.maxLevel then
    extentErr F leaf slot "invalid tree level, have %llu expect [0, %u]"
    return -EUCLEAN
  if itemSize < F.extentItemSize then
    extentErr F leaf slot "invalid item size, have %u expect [%zu, %u)"
    return -EUCLEAN
  let end_ := itemSize + (← itemPtrOffset F leaf slot)
  let ei ← itemPtrOffset F leaf slot
  let flags ← readMember F leaf ei F.eiFlags
  let totalRefs ← readMember F leaf ei F.eiRefs
  let generation ← readMember F leaf ei F.eiGeneration
  if generation > (fs.superGeneration + 1) % 2 ^ 64 then
    extentErr F leaf slot "invalid generation, have %llu expect (0, %llu]"
    return -EUCLEAN
  if !hasSingleBitSet (flags &&& (F.extentFlagData ||| F.extentFlagTreeBlock)) then
    extentErr F leaf slot "invalid extent flag, have 0x%llx expect 1 bit set in 0x%llx"
    return -EUCLEAN
  let isTreeBlock := flags &&& F.extentFlagTreeBlock ≠ 0
  if isTreeBlock then
    if key.type = F.extentItemKey ∧ key.offset ≠ fs.nodesize then
      extentErr F leaf slot "invalid extent length, have %llu expect %u"
      return -EUCLEAN
  else
    if key.type ≠ F.extentItemKey then
      extentErr F leaf slot "invalid key type, have %u expect %u for data backref"
      return -EUCLEAN
    if !isAligned key.offset fs.sectorsize then
      extentErr F leaf slot "invalid extent length, have %llu expect aligned to %u"
      return -EUCLEAN
    if flags &&& F.blockFlagFullBackref ≠ 0 then
      extentErr F leaf slot "invalid extent flag, data has full backref set"
      return -EUCLEAN
  let mut ptr := ei + F.extentItemSize
  if isTreeBlock ∧ key.type ≠ F.metadataItemKey then
    if (← readMember F leaf ptr F.tbiLevel) ≥ F.maxLevel then
      let _ ← readMember F leaf ptr F.tbiLevel
      extentErr F leaf slot "invalid tree block info level, have %u expect [0, %u]"
      return -EUCLEAN
    ptr := ptr + F.treeBlockInfoSize
  match ← extentInlineRefsLoop fs leaf slot end_ ptr 0 with
  | .error ret => return ret
  | .ok (stopPtr, inlineRefs) =>
    if stopPtr ≠ end_ then
      extentErr F leaf slot "invalid extent item size, padding bytes found"
      return -EUCLEAN
    if inlineRefs > totalRefs then
      extentErr F leaf slot "invalid extent refs, have %llu expect >= inline %llu"
      return -EUCLEAN
    return 0

/-! ## Keyed back references -/

/-- `check_simple_keyed_refs`, for `TREE_BLOCK_REF`, `SHARED_DATA_REF` and
`SHARED_BLOCK_REF` keys. -/
def checkSimpleKeyedRefs (fs : FsInfo F) (leaf : ExtentBuffer) (key : Key) (slot : Nat) :
    CheckM Int := do
  let expectItemSize := if key.type = F.sharedDataRefKey then F.sharedDataRefSize else 0
  if (← itemSizeNr F leaf slot) ≠ expectItemSize then
    let _ ← itemSizeNr F leaf slot
    genericErr F leaf slot "invalid item size, have %u expect %u for key type %u"
    return -EUCLEAN
  if !isAligned key.objectid fs.sectorsize then
    genericErr F leaf slot
      "invalid key objectid for shared block ref, have %llu expect aligned to %u"
    return -EUCLEAN
  if key.type ≠ F.treeBlockRefKey ∧ !isAligned key.offset fs.sectorsize then
    extentErr F leaf slot "invalid tree parent bytenr, have %llu expect aligned to %u"
    return -EUCLEAN
  return 0

/-- `check_extent_data_ref`'s loop over the packed data refs from linear
offset `ptr` to the item's end `end_`. -/
def extentDataRefLoop (fs : FsInfo F) (leaf : ExtentBuffer) (slot end_ ptr : Nat) :
    CheckM Int :=
  if ptr < end_ then do
    let offset ← readMember F leaf ptr F.edrOffset
    if !isAligned offset fs.sectorsize then
      extentErr F leaf slot
        "invalid extent data backref offset, have %llu expect aligned to %u"
      return -EUCLEAN
    extentDataRefLoop fs leaf slot end_ (ptr + F.extentDataRefSize)
  else
    pure 0
termination_by end_ - ptr
decreasing_by
  simp_wf
  have := F.extentDataRefSize_pos
  omega

/-- `check_extent_data_ref`. -/
def checkExtentDataRef (fs : FsInfo F) (leaf : ExtentBuffer) (key : Key) (slot : Nat) :
    CheckM Int := do
  let ptr ← itemPtrOffset F leaf slot
  let end_ := ptr + (← itemSizeNr F leaf slot)
  if (← itemSizeNr F leaf slot) % F.extentDataRefSize ≠ 0 then
    let _ ← itemSizeNr F leaf slot
    genericErr F leaf slot "invalid item size, have %u expect aligned to %zu for key type %u"
    return -EUCLEAN
  if !isAligned key.objectid fs.sectorsize then
    genericErr F leaf slot
      "invalid key objectid for shared block ref, have %llu expect aligned to %u"
    return -EUCLEAN
  extentDataRefLoop fs leaf slot end_ ptr

end Apfs
