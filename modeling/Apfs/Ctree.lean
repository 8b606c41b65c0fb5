import Apfs.StructFuncs

/-!
# Tree blocks: format, keys and logged reads

The checker of `tree-checker.c` reads a tree block only through member
accessors declared in `ctree.h`, which is not among the sources.  This module
fixes what the checker needs of that header.  The on-disk constants (header
layout, `APFS_MAX_LEVEL`, tree ids, flag bits) are the fields of a
{lit}`Format`, a parameter of everything after it; the mount-time values of
`struct apfs_fs_info` are an {lit}`FsInfo`.  The item and key-pointer layouts
follow the spec's data model.

Every checker function runs in {lit}`CheckM`: it returns the C result and logs,
in order, each member access (offset and width) and each corruption report.
The bounds each accessor asserts and the set of bytes a validator touches are
then statements about that log.  A member load returns the little-endian value
of the member's bytes in the linear image of the buffer; by
{lit}`apfs_setget_linear_image` this is what `apfs_get_##bits` returns for a
buffer that starts on a page boundary.  Members of items are loaded through
{lit}`readMember` from their offset and width in a {lit}`Member`, and copies to
the stack through {lit}`readExtentBuffer`.  The module ends with the kernel's
bit operations on fixed-width integers that the validators call.

Main results:

- Theorem {lit}`compCpuKeys_neg_iff`: `apfs_comp_cpu_keys` is negative exactly
  for keys in lexicographic order.
- Theorems {lit}`CheckM.all_bind` and {lit}`CheckM.all_pure`: a property of
  every logged event distributes over sequencing.
-/

namespace Apfs

/-- `EUCLEAN`, the kernel's "structure needs cleaning" error number. -/
def EUCLEAN : Int :=
  117

/-! ## Format and file system -/

/-- A member of a packed on-disk struct: its byte offset in the struct and its
width. -/
structure Member where
  off : Nat
  width : Width
deriving DecidableEq, Repr

/-- The block header of `ctree.h`: `sizeof(struct apfs_header)` and the
offsets of the members the checker reads, `APFS_MAX_LEVEL` and
`APFS_HEADER_FLAG_RELOC`. -/
structure HeaderFormat where
  page : PageGeom
  headerSize : Nat
  bytenrOff : Nat
  flagsOff : Nat
  ownerOff : Nat
  nritemsOff : Nat
  levelOff : Nat
  bytenr_le : bytenrOff + 8 ≤ headerSize
  flags_le : flagsOff + 8 ≤ headerSize
  owner_le : ownerOff + 8 ≤ headerSize
  nritems_le : nritemsOff + 4 ≤ headerSize
  level_le : levelOff + 1 ≤ headerSize
  maxLevel : Nat
  headerFlagReloc : Nat

/-- The object ids `APFS_*_OBJECTID` the checker compares with, `is_fstree`
(the tree is a subvolume tree or a reloc tree of one) and
`APFS_SUPER_INFO_OFFSET`, where the superblock starts. -/
structure ObjectIds where
  rootTreeObjectid : Nat
  chunkTreeObjectid : Nat
  extentTreeObjectid : Nat
  devTreeObjectid : Nat
  fsTreeObjectid : Nat
  dataRelocTreeObjectid : Nat
  extentCsumObjectid : Nat
  firstFreeObjectid : Nat
  lastFreeObjectid : Nat
  rootTreeDirObjectid : Nat
  freeInoObjectid : Nat
  treeRelocObjectid : Nat
  firstChunkTreeObjectid : Nat
  devItemsObjectid : Nat
  isFstree : Nat → Bool
  superInfoOffset : Nat

/-- The item key types `APFS_*_KEY`. -/
structure KeyTypes where
  inodeItemKey : Nat
  inodeRefKey : Nat
  xattrItemKey : Nat
  dirItemKey : Nat
  dirIndexKey : Nat
  extentDataKey : Nat
  extentCsumKey : Nat
  rootItemKey : Nat
  extentItemKey : Nat
  metadataItemKey : Nat
  treeBlockRefKey : Nat
  extentDataRefKey : Nat
  sharedBlockRefKey : Nat
  sharedDataRefKey : Nat
  blockGroupItemKey : Nat
  devItemKey : Nat
  chunkItemKey : Nat

/-- `struct apfs_file_extent_item`, `APFS_FILE_EXTENT_INLINE_DATA_START`
(where inline data starts), `APFS_FILE_EXTENT_INLINE`,
`APFS_NR_FILE_EXTENT_TYPES`, `APFS_NR_COMPRESS_TYPES` and
`APFS_COMPRESS_NONE`. -/
structure FileExtentFormat where
  fileExtentItemSize : Nat
  fileExtentInlineDataStart : Nat
  feRamBytes : Member
  feCompression : Member
  feEncryption : Member
  feType : Member
  feDiskBytenr : Member
  feDiskNumBytes : Member
  feOffset : Member
  feNumBytes : Member
  fileExtentInline : Nat
  nrFileExtentTypes : Nat
  nrCompressTypes : Nat
  compressNone : Nat

/-- `struct apfs_dir_item`, with its location key at `diLocation`,
`APFS_FT_MAX`, `APFS_FT_XATTR`, `APFS_NAME_LEN` and
`apfs_name_hash(name, len, case_insensitive)`; `struct apfs_inode_ref`. -/
structure DirFormat where
  dirItemSize : Nat
  dirItemSize_pos : 0 < dirItemSize
  diLocation : Nat
  diType : Member
  diNameLen : Member
  diDataLen : Member
  ftMax : Nat
  ftXattr : Nat
  nameLen : Nat
  nameHash : List UInt8 → Bool → Nat
  inodeRefSize : Nat
  inodeRefSize_pos : 0 < inodeRefSize
  irefNameLen : Member

/-- `struct apfs_inode_item` and `APFS_INODE_FLAG_MASK`; `struct
apfs_root_item`, `apfs_legacy_root_item_size()` (the bytes before
`generation_v2`), `APFS_ROOT_SUBVOL_RDONLY` and `APFS_ROOT_SUBVOL_DEAD`. -/
structure InodeRootFormat where
  inodeGeneration : Member
  inodeTransid : Member
  inodeNlink : Member
  inodeMode : Member
  inodeFlags : Member
  inodeFlagMask : Nat
  rootItemSize : Nat
  legacyRootItemSize : Nat
  riGeneration : Member
  riBytenr : Member
  riLastSnapshot : Member
  riFlags : Member
  riDropLevel : Member
  riLevel : Member
  riGenerationV2 : Member
  rootSubvolRdonly : Nat
  rootSubvolDead : Nat

/-- `struct apfs_block_group_item`, the block group flag bits and
`struct apfs_dev_item`. -/
structure BlockGroupFormat where
  blockGroupItemSize : Nat
  bgUsed : Member
  bgChunkObjectid : Member
  bgFlags : Member
  blockGroupData : Nat
  blockGroupSystem : Nat
  blockGroupMetadata : Nat
  blockGroupRaid1 : Nat
  blockGroupDup : Nat
  blockGroupRaid10 : Nat
  blockGroupRaid5 : Nat
  blockGroupRaid6 : Nat
  blockGroupTypeMask : Nat
  blockGroupProfileMask : Nat
  devId : Member
  devTotalBytes : Member
  devBytesUsed : Member

/-- `struct apfs_chunk` with its first stripe, `apfs_chunk_item_size(n)` for
`n` stripes, `APFS_STRIPE_LEN`, `apfs_bg_flags_to_raid_index`, the `ncopies`
and `nparity` columns of `apfs_raid_array`, and
`APFS_FEATURE_INCOMPAT_MIXED_GROUPS`. -/
structure ChunkFormat where
  chunkSize : Nat
  chunkLength : Member
  chunkStripeLen : Member
  chunkType : Member
  chunkSectorSize : Member
  chunkNumStripes : Member
  chunkSubStripes : Member
  chunkItemSize : Nat → Nat
  stripeLen : Nat
  bgFlagsToRaidIndex : Nat → Nat
  raidNcopies : Nat → Nat
  raidNparity : Nat → Nat
  featureIncompatMixedGroups : Nat

/-- `struct apfs_extent_item`, `struct apfs_tree_block_info`,
`struct apfs_extent_inline_ref`, `struct apfs_extent_data_ref`,
`struct apfs_shared_data_ref`, `apfs_extent_inline_ref_size(type)`, the
extent flags and `APFS_FEATURE_INCOMPAT_SKINNY_METADATA`. -/
structure ExtentFormat where
  extentItemSize : Nat
  eiRefs : Member
  eiGeneration : Member
  eiFlags : Member
  treeBlockInfoSize : Nat
  tbiLevel : Member
  extentInlineRefSize : Nat
  irType : Member
  irOffset : Member
  extentDataRefSize : Nat
  extentDataRefSize_pos : 0 < extentDataRefSize
  edrOffset : Member
  edrCount : Member
  sharedDataRefSize : Nat
  sdrCount : Member
  inlineRefSize : Nat → Nat
  extentFlagData : Nat
  extentFlagTreeBlock : Nat
  blockFlagFullBackref : Nat
  featureIncompatSkinnyMetadata : Nat

/-- The on-disk constants and struct layouts of `ctree.h` that the checker
uses.  Each item struct is given by its `sizeof` and the members the checker
reads; a struct's `sizeof` is positive, as C's always is, and an inline ref of
each of the four known types takes a positive number of bytes, which is what
makes the record loops advance. -/
structure Format extends HeaderFormat, ObjectIds, KeyTypes, FileExtentFormat, DirFormat,
    InodeRootFormat, BlockGroupFormat, ChunkFormat, ExtentFormat where
  inlineRefSize_pos : ∀ t, t = treeBlockRefKey ∨ t = sharedBlockRefKey ∨
    t = extentDataRefKey ∨ t = sharedDataRefKey → 0 < inlineRefSize t

/-- The mount-time values of `struct apfs_fs_info` the checker reads.  Mount
accepts only a power-of-two sector size and a node size that holds the header;
`nodesize` is a `u32`.  From the superblock copy: the generation, the
incompatible feature flags and whether names are case-insensitive;
`APFS_MAX_XATTR_SIZE(fs_info)` and the checksum size are fixed at mount, the
latter the positive size of the superblock's checksum type. -/
structure FsInfo (F : Format) where
  nodesize : Nat
  sectorsize : Nat
  sectorsize_pow : sectorsize.isPowerOfTwo
  header_lt_nodesize : F.headerSize < nodesize
  nodesize_lt : nodesize < 2 ^ 32
  csumSize : Nat
  csumSize_pos : 0 < csumSize
  superGeneration : Nat
  incompatFlags : Nat
  caseInsensitive : Bool
  maxXattrSize : Nat

variable {F : Format}

/-- `APFS_LEAF_DATA_SIZE(fs_info)`: the bytes of a leaf after its header. -/
def FsInfo.leafDataSize (fs : FsInfo F) : Nat :=
  fs.nodesize - F.headerSize

theorem FsInfo.leafDataSize_lt (fs : FsInfo F) : fs.leafDataSize < 2 ^ 32 := by
  have := fs.nodesize_lt
  unfold FsInfo.leafDataSize
  omega

/-- `IS_ALIGNED(x, a)`, `(x & (a - 1)) == 0`.  Every call passes a positive
`a`, the sector size or the checksum size, for which `a - 1` does not
wrap. -/
def isAligned (x a : Nat) : Bool :=
  x &&& (a - 1) == 0

/-- For a power of two, `IS_ALIGNED` is divisibility. -/
theorem isAligned_iff {x a : Nat} (ha : a.isPowerOfTwo) : isAligned x a = true ↔ a ∣ x := by
  obtain ⟨k, rfl⟩ := ha
  simp [isAligned, Nat.and_pow_two_sub_one_eq_mod, Nat.dvd_iff_mod_eq_zero]

/-! ## Keys -/

/-- `struct apfs_key`, the CPU form of a key. -/
structure Key where
  objectid : Nat
  type : Nat
  offset : Nat
deriving DecidableEq, Repr

/-- The all-zero key `{}` that starts the leaf walk. -/
def Key.zero : Key :=
  ⟨0, 0, 0⟩

/-- The lexicographic order on `(objectid, type, offset)`. -/
def Key.Lt (a b : Key) : Prop :=
  a.objectid < b.objectid ∨
    a.objectid = b.objectid ∧ (a.type < b.type ∨ a.type = b.type ∧ a.offset < b.offset)

instance (a b : Key) : Decidable (Key.Lt a b) :=
  inferInstanceAs (Decidable (_ ∨ _))

/-- Modelled from the spec: `apfs_comp_cpu_keys`, defined in `ctree.c` outside
the sources; the total order of keys, lexicographic on `(objectid, type,
offset)`, as `1`, `-1` or `0`. -/
def compCpuKeys (k1 k2 : Key) : Int :=
  if k1.objectid > k2.objectid then 1
  else if k1.objectid < k2.objectid then -1
  else if k1.type > k2.type then 1
  else if k1.type < k2.type then -1
  else if k1.offset > k2.offset then 1
  else if k1.offset < k2.offset then -1
  else 0

/-- `apfs_comp_cpu_keys` is negative exactly for keys in lexicographic order. -/
theorem compCpuKeys_neg_iff (a b : Key) : compCpuKeys a b < 0 ↔ a.Lt b := by
  unfold compCpuKeys Key.Lt
  by_cases h1 : a.objectid > b.objectid
  · rw [if_pos h1]; omega
  rw [if_neg h1]
  by_cases h2 : a.objectid < b.objectid
  · rw [if_pos h2]; omega
  rw [if_neg h2]
  by_cases h3 : a.type > b.type
  · rw [if_pos h3]; omega
  rw [if_neg h3]
  by_cases h4 : a.type < b.type
  · rw [if_pos h4]; omega
  rw [if_neg h4]
  by_cases h5 : a.offset > b.offset
  · rw [if_pos h5]; omega
  rw [if_neg h5]
  split_ifs <;> omega

@[simp]
theorem compCpuKeys_ge_zero_iff (a b : Key) : compCpuKeys a b ≥ 0 ↔ ¬a.Lt b := by
  rw [← compCpuKeys_neg_iff]
  omega

theorem Key.Lt.trans {a b c : Key} (hab : a.Lt b) (hbc : b.Lt c) : a.Lt c := by
  unfold Key.Lt at *
  omega

theorem Key.lt_irrefl (a : Key) : ¬a.Lt a := by
  unfold Key.Lt
  omega

/-! ## Logged reads -/

/-- What a checker run leaves besides its result: the member accesses it makes
(`width` bytes at linear offset `off`) and the corruption reports it logs, with
the slot a report names and the reason it gives. -/
inductive Event
  | read (off width : Nat)
  | crit (slot : Option Nat) (reason : String)
deriving DecidableEq, Repr

/-- A checker computation: its result and its log, in order. -/
structure CheckM (α : Type) where
  val : α
  log : List Event

instance : Monad CheckM where
  pure a := ⟨a, []⟩
  bind m f := ⟨(f m.val).val, m.log ++ (f m.val).log⟩

namespace CheckM

@[simp]
theorem pure_val {α : Type} (a : α) : (pure a : CheckM α).val = a :=
  rfl

@[simp]
theorem pure_log {α : Type} (a : α) : (pure a : CheckM α).log = [] :=
  rfl

@[simp]
theorem bind_val {α β : Type} (m : CheckM α) (f : α → CheckM β) : (m >>= f).val = (f m.val).val :=
  rfl

@[simp]
theorem bind_log {α β : Type} (m : CheckM α) (f : α → CheckM β) :
    (m >>= f).log = m.log ++ (f m.val).log :=
  rfl

/-- A computation's continuation matters only at the value it produces. -/
theorem bind_congr {α β : Type} {m : CheckM α} {f g : α → CheckM β} (h : f m.val = g m.val) :
    m >>= f = m >>= g := by
  show CheckM.mk _ _ = CheckM.mk _ _
  rw [h]

theorem ite_val {α : Type} (c : Prop) [Decidable c] (a b : CheckM α) :
    (if c then a else b).val = if c then a.val else b.val :=
  apply_ite CheckM.val c a b

/-- Every event a computation logs satisfies `P`. -/
def All {α : Type} (P : Event → Prop) (m : CheckM α) : Prop :=
  ∀ e ∈ m.log, P e

@[simp]
theorem all_pure {α : Type} (P : Event → Prop) (a : α) : All P (pure a : CheckM α) := by
  simp [All]

theorem all_bind {α β : Type} {P : Event → Prop} {m : CheckM α} {f : α → CheckM β} :
    All P (m >>= f) ↔ All P m ∧ All P (f m.val) := by
  simp [All, or_imp, forall_and]

theorem all_ite {α : Type} {P : Event → Prop} {c : Prop} [Decidable c] {a b : CheckM α}
    (ha : c → All P a) (hb : ¬c → All P b) : All P (if c then a else b) := by
  split_ifs with h
  · exact ha h
  · exact hb h

theorem all_ite_iff {α : Type} {P : Event → Prop} {c : Prop} [Decidable c] {a b : CheckM α} :
    All P (if c then a else b) ↔ (c → All P a) ∧ (¬c → All P b) := by
  split_ifs with h <;> simp [h]

end CheckM

/-- Log a corruption report. -/
def crit (slot : Option Nat) (reason : String) : CheckM Unit :=
  ⟨(), [.crit slot reason]⟩

/-- Load `width` little-endian bytes at linear offset `off`, logging the
access. -/
def readLe (F : Format) (eb : ExtentBuffer) (off width : Nat) : CheckM Nat :=
  ⟨leValue (byteRange (eb.image F.page) off width), [.read off width]⟩

/-! ## Header members -/

/-- `apfs_header_nritems`. -/
def headerNritems (F : Format) (eb : ExtentBuffer) : CheckM Nat :=
  readLe F eb F.nritemsOff 4

/-- `apfs_header_level`. -/
def headerLevel (F : Format) (eb : ExtentBuffer) : CheckM Nat :=
  readLe F eb F.levelOff 1

/-- `apfs_header_owner`. -/
def headerOwner (F : Format) (eb : ExtentBuffer) : CheckM Nat :=
  readLe F eb F.ownerOff 8

/-- `apfs_header_bytenr`. -/
def headerBytenr (F : Format) (eb : ExtentBuffer) : CheckM Nat :=
  readLe F eb F.bytenrOff 8

/-- `apfs_header_flag(eb, flag)`: every bit of `flag` is set in the header's
flags. -/
def headerFlag (F : Format) (eb : ExtentBuffer) (flag : Nat) : CheckM Bool := do
  let flags ← readLe F eb F.flagsOff 8
  pure (flags &&& flag == flag)

/-- `generic_err`: the report names the block kind, owner and address from the
header. -/
def genericErr (F : Format) (eb : ExtentBuffer) (slot : Nat) (reason : String) :
    CheckM Unit := do
  let _ ← headerLevel F eb
  let _ ← headerOwner F eb
  let _ ← headerBytenr F eb
  crit (some slot) reason

/-! ## Items and key pointers -/

/-- Modelled from the spec: `sizeof(struct apfs_disk_key)`, the key triple
`objectid` (u64), `type` (u8), `offset` (u64), packed. -/
def diskKeySize : Nat :=
  17

/-- Modelled from the spec: `sizeof(struct apfs_item)`, a disk key followed by
the u32 data offset and the u32 data size. -/
def itemSize : Nat :=
  25

/-- Modelled from the spec: `sizeof(struct apfs_key_ptr)`, a disk key followed
by the u64 child address and the u64 child generation. -/
def keyPtrSize : Nat :=
  33

/-- Modelled from the spec: `apfs_item_nr_offset(nr)`, where item header `nr`
starts: the item headers follow the block header. -/
def itemNrOffset (F : Format) (nr : Nat) : Nat :=
  F.headerSize + itemSize * nr

/-- Modelled from the spec: `apfs_node_key_ptr_offset(nr)`, where key pointer
`nr` starts. -/
def keyPtrOffset (F : Format) (nr : Nat) : Nat :=
  F.headerSize + keyPtrSize * nr

/-- Copy the disk key at `off` out of the buffer (one `read_extent_buffer` of
the whole key) and convert it with `apfs_disk_key_to_cpu`. -/
def diskKeyToCpu (F : Format) (eb : ExtentBuffer) (off : Nat) : CheckM Key :=
  let img := eb.image F.page
  ⟨⟨leValue (byteRange img off 8), leValue (byteRange img (off + 8) 1),
      leValue (byteRange img (off + 9) 8)⟩,
    [.read off diskKeySize]⟩

/-- `apfs_item_key_to_cpu(eb, key, nr)`. -/
def itemKeyToCpu (F : Format) (eb : ExtentBuffer) (nr : Nat) : CheckM Key :=
  diskKeyToCpu F eb (itemNrOffset F nr)

/-- `apfs_node_key_to_cpu(eb, key, nr)`. -/
def nodeKeyToCpu (F : Format) (eb : ExtentBuffer) (nr : Nat) : CheckM Key :=
  diskKeyToCpu F eb (keyPtrOffset F nr)

/-- `apfs_item_offset_nr(eb, nr)`: item `nr`'s data offset, counted from the
end of the header. -/
def itemOffsetNr (F : Format) (eb : ExtentBuffer) (nr : Nat) : CheckM Nat :=
  readLe F eb (itemNrOffset F nr + diskKeySize) 4

/-- `apfs_item_size_nr(eb, nr)`: item `nr`'s data size. -/
def itemSizeNr (F : Format) (eb : ExtentBuffer) (nr : Nat) : CheckM Nat :=
  readLe F eb (itemNrOffset F nr + diskKeySize + 4) 4

/-- Modelled from the spec: `apfs_item_end_nr(eb, nr)`, the end of item `nr`'s
data, summed as a `u32`. -/
def itemEndNr (F : Format) (eb : ExtentBuffer) (nr : Nat) : CheckM Nat := do
  let offset ← itemOffsetNr F eb nr
  let size ← itemSizeNr F eb nr
  pure ((offset + size) % 2 ^ 32)

/-- Modelled from the spec: `apfs_item_ptr_offset(eb, nr)`, the linear offset
where item `nr`'s data starts. -/
def itemPtrOffset (F : Format) (eb : ExtentBuffer) (nr : Nat) : CheckM Nat := do
  let offset ← itemOffsetNr F eb nr
  pure (F.headerSize + offset)

/-- `apfs_node_blockptr(eb, nr)`: the child address of key pointer `nr`. -/
def nodeBlockptr (F : Format) (eb : ExtentBuffer) (nr : Nat) : CheckM Nat :=
  readLe F eb (keyPtrOffset F nr + diskKeySize) 8

/-! ## Item members -/

/-- Load member `m` of the struct at linear offset `base`, as the
`apfs_<struct>_<member>` accessor does. -/
def readMember (F : Format) (eb : ExtentBuffer) (base : Nat) (m : Member) : CheckM Nat :=
  readLe F eb (base + m.off) m.width.size

/-- `read_extent_buffer(eb, dst, start, len)`: copy `len` bytes out of the
buffer, one logged access. -/
def readExtentBuffer (F : Format) (eb : ExtentBuffer) (start len : Nat) : CheckM (List UInt8) :=
  ⟨byteRange (eb.image F.page) start len, [.read start len]⟩

/-- A stack accessor `apfs_stack_<struct>_<member>` on a copy of the struct's
bytes.  Bytes past the end of the copy read as zero, as in a zero-initialised
stack struct. -/
def stackMember (bytes : List UInt8) (m : Member) : Nat :=
  leValue ((List.range m.width.size).map fun j => bytes.getD (m.off + j) 0)

/-- `apfs_dir_item_key_to_cpu(eb, item, key)`: the location key of the
directory entry at `di`. -/
def dirItemKeyToCpu (F : Format) (eb : ExtentBuffer) (di : Nat) : CheckM Key :=
  diskKeyToCpu F eb (di + F.diLocation)

/-! ## Bit operations -/

/-- `~m` in a `w`-bit unsigned type. -/
def complementBits (w m : Nat) : Nat :=
  (2 ^ w - 1) ^^^ m

/-- The kernel's `is_power_of_2(n)`: `n` is nonzero and `n & (n - 1)` is
zero. -/
def isPowerOf2 (n : Nat) : Bool :=
  n != 0 && n &&& (n - 1) == 0

/-- `has_single_bit_set(n)`, the same test as `is_power_of_2`. -/
def hasSingleBitSet (n : Nat) : Bool :=
  isPowerOf2 n

/-- The kernel's `hweight64(x)`: the number of set bits of a `u64`. -/
def hweight64 (x : Nat) : Nat :=
  ((List.range 64).filter x.testBit).length

/-- The kernel's `ALIGN(x, a)` on a `u64`: `x + (a - 1)` wraps modulo
`2 ^ 64`, then the bits of `a - 1` are cleared. -/
def alignUp (x a : Nat) : Nat :=
  (x + (a - 1)) % 2 ^ 64 &&& complementBits 64 (a - 1)

end Apfs
