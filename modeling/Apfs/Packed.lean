import Apfs.Ctree

/-!
# A concrete format

The sources leave the values of `ctree.h` open, and the results of the model
hold for every {lit}`Format`.  Witnesses and counterexamples need one
instance: {lit}`packedFormat` has 4 KiB pages, the constants of the on-disk
format, and every struct packed in the order of its members.
`apfs_name_hash` is not among the sources either; the instance hashes a name
to the sum of its bytes, and no result depends on that choice.

Concrete buffers are built by {lit}`ExtentBuffer.ofFields` from the members
they hold, each written little-endian at its offset, and blocks with a table
of many rows by {lit}`ExtentBuffer.table`, whose loads
{lit}`ExtentBuffer.table_load` and {lit}`ExtentBuffer.table_diskKey` read off
row by row.
-/

namespace Apfs

/-- The on-disk format with packed structs and 4 KiB pages. -/
def packedFormat : Format where
  page := ⟨12, le_refl 12⟩
  headerSize := 101
  bytenrOff := 48
  flagsOff := 56
  ownerOff := 88
  nritemsOff := 96
  levelOff := 100
  bytenr_le := by decide
  flags_le := by decide
  owner_le := by decide
  nritems_le := by decide
  level_le := by decide
  maxLevel := 8
  headerFlagReloc := 2
  rootTreeObjectid := 1
  chunkTreeObjectid := 3
  extentTreeObjectid := 2
  devTreeObjectid := 4
  fsTreeObjectid := 5
  dataRelocTreeObjectid := 2 ^ 64 - 9
  extentCsumObjectid := 2 ^ 64 - 10
  firstFreeObjectid := 256
  lastFreeObjectid := 2 ^ 64 - 256
  rootTreeDirObjectid := 6
  freeInoObjectid := 2 ^ 64 - 12
  treeRelocObjectid := 2 ^ 64 - 8
  firstChunkTreeObjectid := 256
  devItemsObjectid := 1
  isFstree o := o == 5 || (256 ≤ o && o < 2 ^ 48)
  superInfoOffset := 65536
  inodeItemKey := 1
  inodeRefKey := 12
  xattrItemKey := 24
  dirItemKey := 84
  dirIndexKey := 96
  extentDataKey := 108
  extentCsumKey := 128
  rootItemKey := 132
  extentItemKey := 168
  metadataItemKey := 169
  treeBlockRefKey := 176
  extentDataRefKey := 178
  sharedBlockRefKey := 182
  sharedDataRefKey := 184
  blockGroupItemKey := 192
  devItemKey := 216
  chunkItemKey := 228
  fileExtentItemSize := 53
  fileExtentInlineDataStart := 21
  feRamBytes := ⟨8, .w64⟩
  feCompression := ⟨16, .w8⟩
  feEncryption := ⟨17, .w8⟩
  feType := ⟨20, .w8⟩
  feDiskBytenr := ⟨21, .w64⟩
  feDiskNumBytes := ⟨29, .w64⟩
  feOffset := ⟨37, .w64⟩
  feNumBytes := ⟨45, .w64⟩
  fileExtentInline := 0
  nrFileExtentTypes := 3
  nrCompressTypes := 4
  compressNone := 0
  dirItemSize := 30
  dirItemSize_pos := by decide
  diLocation := 0
  diType := ⟨29, .w8⟩
  diNameLen := ⟨27, .w16⟩
  diDataLen := ⟨25, .w16⟩
  ftMax := 9
  ftXattr := 8
  nameLen := 255
  nameHash name _ := (name.map UInt8.toNat).sum
  inodeRefSize := 10
  inodeRefSize_pos := by decide
  irefNameLen := ⟨8, .w16⟩
  blockGroupItemSize := 24
  bgUsed := ⟨0, .w64⟩
  bgChunkObjectid := ⟨8, .w64⟩
  bgFlags := ⟨16, .w64⟩
  blockGroupData := 1
  blockGroupSystem := 2
  blockGroupMetadata := 4
  blockGroupRaid1 := 16
  blockGroupDup := 32
  blockGroupRaid10 := 64
  blockGroupRaid5 := 128
  blockGroupRaid6 := 256
  blockGroupTypeMask := 7
  blockGroupProfileMask := 2040
  chunkSize := 80
  chunkLength := ⟨0, .w64⟩
  chunkStripeLen := ⟨16, .w64⟩
  chunkType := ⟨24, .w64⟩
  chunkSectorSize := ⟨40, .w32⟩
  chunkNumStripes := ⟨44, .w16⟩
  chunkSubStripes := ⟨46, .w16⟩
  chunkItemSize n := 80 + 32 * (n - 1)
  stripeLen := 65536
  bgFlagsToRaidIndex f :=
    if f &&& 64 ≠ 0 then 0 else if f &&& 16 ≠ 0 then 1 else if f &&& 32 ≠ 0 then 2
    else if f &&& 8 ≠ 0 then 3 else if f &&& 128 ≠ 0 then 5 else if f &&& 256 ≠ 0 then 6
    else if f &&& 512 ≠ 0 then 7 else if f &&& 1024 ≠ 0 then 8 else 4
  raidNcopies i := [2, 2, 2, 1, 1, 1, 1, 3, 4].getD i 0
  raidNparity i := [0, 0, 0, 0, 0, 1, 2, 0, 0].getD i 0
  featureIncompatMixedGroups := 4
  devId := ⟨0, .w64⟩
  devTotalBytes := ⟨8, .w64⟩
  devBytesUsed := ⟨16, .w64⟩
  inodeGeneration := ⟨0, .w64⟩
  inodeTransid := ⟨8, .w64⟩
  inodeNlink := ⟨40, .w32⟩
  inodeMode := ⟨52, .w32⟩
  inodeFlags := ⟨64, .w64⟩
  inodeFlagMask := 0x80000FFF
  rootItemSize := 439
  legacyRootItemSize := 239
  riGeneration := ⟨160, .w64⟩
  riBytenr := ⟨176, .w64⟩
  riLastSnapshot := ⟨200, .w64⟩
  riFlags := ⟨208, .w64⟩
  riDropLevel := ⟨237, .w8⟩
  riLevel := ⟨238, .w8⟩
  riGenerationV2 := ⟨239, .w64⟩
  rootSubvolRdonly := 1
  rootSubvolDead := 2 ^ 48
  extentItemSize := 24
  eiRefs := ⟨0, .w64⟩
  eiGeneration := ⟨8, .w64⟩
  eiFlags := ⟨16, .w64⟩
  treeBlockInfoSize := 18
  tbiLevel := ⟨17, .w8⟩
  extentInlineRefSize := 9
  irType := ⟨0, .w8⟩
  irOffset := ⟨1, .w64⟩
  extentDataRefSize := 28
  extentDataRefSize_pos := by decide
  edrOffset := ⟨16, .w64⟩
  edrCount := ⟨24, .w32⟩
  sharedDataRefSize := 4
  sdrCount := ⟨0, .w32⟩
  inlineRefSize t :=
    if t = 176 ∨ t = 182 then 9 else if t = 184 then 13 else if t = 178 then 29 else 0
  inlineRefSize_pos := by
    rintro t (rfl | rfl | rfl | rfl) <;> decide
  extentFlagData := 1
  extentFlagTreeBlock := 2
  blockFlagFullBackref := 256
  featureIncompatSkinnyMetadata := 256

/-- A file system of {lit}`packedFormat` with 4 KiB nodes and sectors, at
generation 1 with no incompatible features. -/
def packedFs : FsInfo packedFormat where
  nodesize := 4096
  sectorsize := 4096
  sectorsize_pow := ⟨12, rfl⟩
  header_lt_nodesize := by decide
  nodesize_lt := by decide
  csumSize := 4
  csumSize_pos := by decide
  superGeneration := 1
  incompatFlags := 0
  caseInsensitive := false
  maxXattrSize := 3940

/-- A buffer at `start` of `len` bytes on pages of `pg` whose linear image
holds each field `(off, width, value)` little-endian at `off`, the first field
listed winning, and zero elsewhere. -/
def ExtentBuffer.ofFields (pg : PageGeom) (start len : Nat) (fields : List (Nat × Nat × Nat)) :
    ExtentBuffer where
  start := start
  len := len
  pages p o :=
    let j := p * pg.size + o
    match fields.find? fun f => f.1 ≤ j && j < f.1 + f.2.1 with
    | some (off, _, v) => UInt8.ofNat (v / 256 ^ (j - off))
    | none => 0

/-- A buffer at address 0 of 4 KiB pages, one page long, holding a block of
{lit}`packedFormat` whose header declares `n` items at level `level` and whose
table has `n` rows of `stride` bytes after the header, byte `r` of row `i`
being `row i r`; every other byte is 0. -/
def ExtentBuffer.table (level stride n : Nat) (row : Nat → Nat → UInt8) : ExtentBuffer where
  start := 0
  len := 4096
  pages p o :=
    let j := p * 4096 + o
    if 96 ≤ j ∧ j < 100 then leByte n (j - 96)
    else if j = 100 then leByte level 0
    else if 101 ≤ j ∧ (j - 101) / stride < n then row ((j - 101) / stride) ((j - 101) % stride)
    else 0

section Table

variable (level stride n : Nat) (row : Nat → Nat → UInt8)

theorem ExtentBuffer.table_image (j : Nat) :
    (ExtentBuffer.table level stride n row).image packedFormat.page j =
      if 96 ≤ j ∧ j < 100 then leByte n (j - 96)
      else if j = 100 then leByte level 0
      else if 101 ≤ j ∧ (j - 101) / stride < n then row ((j - 101) / stride) ((j - 101) % stride)
      else 0 := by
  show (ExtentBuffer.table level stride n row).pages (j / 4096) (j % 4096) = _
  simp only [ExtentBuffer.table, Nat.div_add_mod']

/-- The header declares `n` items, in `u32`. -/
theorem ExtentBuffer.table_nritems :
    leValue (byteRange ((ExtentBuffer.table level stride n row).image packedFormat.page) 96 4) =
      n % 256 ^ 4 :=
  leValue_byteRange_of_leByte fun j hj => by
    rw [table_image, if_pos (by omega), Nat.add_sub_cancel_left]

/-- The header's level byte. -/
theorem ExtentBuffer.table_level :
    leValue (byteRange ((ExtentBuffer.table level stride n row).image packedFormat.page) 100 1) =
      level % 256 ^ 1 :=
  leValue_byteRange_of_leByte fun j hj => by
    obtain rfl : j = 0 := by omega
    rw [table_image, if_neg (by omega), if_pos rfl]

/-- A member of row `i` at `off` of `w` bytes holds `v` when its bytes are
those of `v`. -/
theorem ExtentBuffer.table_load {i : Nat} (hi : i < n) (off w v : Nat) (hw : off + w ≤ stride)
    (h : ∀ j < w, row i (off + j) = leByte v j) :
    leValue (byteRange ((ExtentBuffer.table level stride n row).image packedFormat.page)
      (101 + stride * i + off) w) = v % 256 ^ w :=
  leValue_byteRange_of_leByte fun j hj => by
    have hpos : 0 < stride := by omega
    have hrow : (101 + stride * i + off + j - 101) / stride = i := by
      rw [show 101 + stride * i + off + j - 101 = stride * i + (off + j) by omega,
        Nat.mul_add_div hpos, Nat.div_eq_of_lt (by omega), Nat.add_zero]
    have hcol : (101 + stride * i + off + j - 101) % stride = off + j := by
      rw [show 101 + stride * i + off + j - 101 = stride * i + (off + j) by omega,
        Nat.mul_add_mod, Nat.mod_eq_of_lt (by omega)]
    rw [table_image, if_neg (by omega), if_neg (by omega), if_pos ⟨by omega, by rw [hrow]; exact hi⟩,
      hrow, hcol, h j hj]

/-- A row whose first 17 bytes hold the disk key `(v, 0, 0)` is read back as
that key. -/
theorem ExtentBuffer.table_diskKey {i v : Nat} (hi : i < n) (hv : v < 256 ^ 8)
    (hstride : 17 ≤ stride) (hrow : ∀ j < 17, row i j = if j < 8 then leByte v j else 0) :
    (diskKeyToCpu packedFormat (ExtentBuffer.table level stride n row) (101 + stride * i)).val =
      ⟨v, 0, 0⟩ := by
  have hobj := table_load level stride n row hi 0 8 v (by omega) fun j hj => by
    rw [hrow _ (by omega), if_pos (by omega), Nat.zero_add]
  have htype := table_load level stride n row hi 8 1 0 (by omega) fun j hj => by
    rw [hrow _ (by omega), if_neg (by omega), leByte_zero]
  have hoff := table_load level stride n row hi 9 8 0 (by omega) fun j hj => by
    rw [hrow _ (by omega), if_neg (by omega), leByte_zero]
  show Key.mk (leValue (byteRange _ (101 + stride * i + 0) 8))
    (leValue (byteRange _ (101 + stride * i + 8) 1))
    (leValue (byteRange _ (101 + stride * i + 9) 8)) = _
  rw [hobj, htype, hoff]
  simp only [Nat.zero_mod, Nat.mod_eq_of_lt hv]

end Table

end Apfs
