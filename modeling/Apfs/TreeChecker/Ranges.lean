import Apfs.TreeChecker.Layout

/-!
# File ranges of extents and checksum items

`check_extent_data_item` compares `file_extent_end` of the previous file extent
of the same inode with the file offset of the next, and `check_csum_item`
compares the end of the range the previous checksum item covers with the start
of the next.  Both ends are `u64` sums, and the end of an inline extent is
rounded up to the sector size with the `u64` `ALIGN`; only consecutive slots
are compared.

{lit}`fileExtentExactEnd` and {lit}`csumExactEnd` are the ends in exact
arithmetic.  The end `file_extent_end` computes is the exact end modulo
`2 ^ 64`, so a range that reaches `2 ^ 64` ends, for the check, near 0.  The
walk's keys increase, so the comparisons of consecutive slots order every
pair of ranges as long as no end wraps; two leaves show what the full walk
accepts once one does.

Main results:

- Theorem {lit}`fileExtentEnd_val`: `file_extent_end` is the exact end modulo
  `2 ^ 64`.
- Theorem {lit}`checkLeafWalk_file_extents_disjoint`: in a leaf the full walk
  accepts, the file extents of each inode occupy pairwise disjoint ranges as
  long as no exact end reaches `2 ^ 64`.
- Theorem {lit}`checkLeafWalk_csum_ranges_disjoint`: the same for the ranges of
  checksum items, as long as no length or end wraps.
- Theorem {lit}`check_leaf_walk_accepts_wrapped_inline_extent`: the full walk
  accepts a compressed inline extent whose exact end is `2 ^ 64`, followed by a
  regular extent of the same inode inside that range.
- Theorem {lit}`check_leaf_walk_accepts_wrapped_csum_range`: the full walk
  accepts two checksum items whose exact ranges overlap past `2 ^ 64`.
-/

namespace Apfs

variable {F : Format}

/-! ## Exact ends -/

/-- `x` rounded up to a multiple of `a`, in exact arithmetic. -/
def roundUp (x a : Nat) : Nat :=
  (x + (a - 1)) / a * a

/-- The end that the non-overlap rule means, against which the code's `u64`
{lit}`fileExtentEnd` is compared: where the file extent at `fi` keyed `key`
ends in the file, in exact arithmetic: `key.offset + num_bytes` for a regular or
preallocated extent, `key.offset + ram_bytes` rounded up to the sector size for
an inline one. -/
def fileExtentExactEnd (fs : FsInfo F) (leaf : ExtentBuffer) (key : Key) (fi : Nat) : Nat :=
  if (readMember F leaf fi F.feType).val = F.fileExtentInline then
    roundUp (key.offset + (readMember F leaf fi F.feRamBytes).val) fs.sectorsize
  else key.offset + (readMember F leaf fi F.feNumBytes).val

/-- The end that the non-overlap rule means, against which the code's `u32`
and `u64` sums are compared: the end of the byte range checksum item `slot`
covers, in exact arithmetic, one sector for each checksum of `csum_size`
bytes. -/
def csumExactEnd (fs : FsInfo F) (leaf : ExtentBuffer) (slot : Nat) : Nat :=
  (keyAt F leaf slot).offset + sizeAt F leaf slot / fs.csumSize * fs.sectorsize

/-- Clearing the low `k` bits keeps the bits from `k` up. -/
theorem testBit_div_mul_two_pow (z k i : Nat) :
    (z / 2 ^ k * 2 ^ k).testBit i = (decide (k ≤ i) && z.testBit i) := by
  rw [← Nat.shiftRight_eq_div_pow, ← Nat.shiftLeft_eq, Nat.testBit_shiftLeft,
    Nat.testBit_shiftRight]
  by_cases h : k ≤ i
  · simp [h, Nat.sub_add_cancel h]
  · simp [h]

/-- The `u64` `ALIGN` to a power of two of a `u64` value is the exact rounding
up modulo `2 ^ 64`. -/
theorem alignUp_two_pow (x k : Nat) :
    alignUp (x % 2 ^ 64) (2 ^ k) = roundUp x (2 ^ k) % 2 ^ 64 := by
  apply Nat.eq_of_testBit_eq
  intro i
  rw [alignUp, roundUp, Nat.mod_add_mod, complementBits, Nat.testBit_and, Nat.testBit_xor,
    Nat.testBit_mod_two_pow, Nat.testBit_mod_two_pow, Nat.testBit_two_pow_sub_one,
    Nat.testBit_two_pow_sub_one, testBit_div_mul_two_pow]
  by_cases hi : i < 64 <;> by_cases hk : i < k <;> simp [hi, hk, Nat.not_le.2, Nat.le_of_not_lt]

/-- `file_extent_end` is the exact end modulo `2 ^ 64`. -/
theorem fileExtentEnd_val (fs : FsInfo F) (leaf : ExtentBuffer) (key : Key) (fi : Nat) :
    (fileExtentEnd fs leaf key fi).val = fileExtentExactEnd fs leaf key fi % 2 ^ 64 := by
  obtain ⟨k, hk⟩ := fs.sectorsize_pow
  unfold fileExtentEnd fileExtentExactEnd
  simp only [CheckM.bind_val, CheckM.pure_val, CheckM.ite_val]
  split_ifs
  · rw [hk, alignUp_two_pow]
  · rfl

/-- Rounding up never lowers a value. -/
theorem le_roundUp (x : Nat) {a : Nat} (ha : 0 < a) : x ≤ roundUp x a := by
  unfold roundUp
  have h1 := Nat.div_add_mod (x + (a - 1)) a
  have h2 := Nat.mod_lt (x + (a - 1)) ha
  rw [Nat.mul_comm] at h1
  omega

/-- A power-of-two sector size is positive. -/
theorem FsInfo.sectorsize_pos (fs : FsInfo F) : 0 < fs.sectorsize := by
  obtain ⟨k, hk⟩ := fs.sectorsize_pow
  exact hk ▸ Nat.two_pow_pos k

/-- A file extent ends no earlier than it starts. -/
theorem offset_le_fileExtentExactEnd (fs : FsInfo F) (leaf : ExtentBuffer) (key : Key)
    (fi : Nat) : key.offset ≤ fileExtentExactEnd fs leaf key fi := by
  unfold fileExtentExactEnd
  split
  · exact (Nat.le_add_right _ _).trans (le_roundUp _ fs.sectorsize_pos)
  · exact Nat.le_add_right _ _

/-! ## What the full walk guarantees

The walk compares each file extent with the one in the slot before when both
belong to one inode, and each checksum item with the one before.  Its keys
increase, so the items of one inode, or all checksum items, lie in
consecutive slots, and as long as no end wraps past `2 ^ 64` the
comparisons of consecutive slots order every pair. -/

section Walk

variable {fs : FsInfo F} {leaf : ExtentBuffer}

/-- A check that returns `-EUCLEAN` when `c` holds gives a nonnegative result
only when `c` fails. -/
theorem val_nonneg_of_ite {c : Prop} [Decidable c] {x m : CheckM Int}
    (h : 0 ≤ (if c then x else m).val) (hx : x.val = -EUCLEAN) : ¬c ∧ 0 ≤ m.val := by
  split at h
  · exact absurd (hx ▸ h) (by decide)
  · exact ⟨‹_›, h⟩

/-- Every slot of a leaf the full walk accepts has a key above the one before
and an item check that returns a nonnegative value. -/
theorem checkLeafWalk_slot (h : (checkLeafWalk fs leaf true).val = 0) {i : Nat}
    (hi : i < nritemsAt F leaf) :
    (prevKeyAt F leaf i).Lt (keyAt F leaf i) ∧
      0 ≤ (checkLeafItem fs leaf (keyAt F leaf i) i (prevKeyAt F leaf i)).val := by
  have hlevel : levelAt F leaf = 0 := by
    by_contra hl
    rw [checkLeafWalk, leafWalk_val_of_level_ne_zero fs leaf true _ hl] at h
    exact absurd h (by decide)
  rw [checkLeafWalk, leafWalk_val_of_items fs leaf true _ hlevel (by omega),
    leafSlots_val_eq_zero_iff] at h
  have hp := h i hi
  rw [Nat.zero_add] at hp
  obtain ⟨-, hlt, -, -, hitem⟩ := leafSlot_val_ok fs leaf true _ hp
  exact ⟨hlt, hitem rfl⟩

/-- The keys of a leaf the full walk accepts increase from slot to slot. -/
theorem keyAt_lt_of_lt (h : (checkLeafWalk fs leaf true).val = 0) {i j : Nat} (hij : i < j)
    (hj : j < nritemsAt F leaf) : (keyAt F leaf i).Lt (keyAt F leaf j) := by
  induction j, hij using Nat.le_induction with
  | base => exact (checkLeafWalk_slot h hj).1
  | succ j hij ih => exact (ih (by omega)).trans (checkLeafWalk_slot h hj).1

/-- What an item `check_extent_data_item` does not reject satisfies: it holds
the inline header; an inline extent starts at file offset 0; and a regular or
preallocated one is a whole `struct apfs_file_extent_item`, ends below
`2 ^ 64` and starts no earlier than `file_extent_end` of a previous extent of
the same inode. -/
theorem checkExtentDataItem_nonneg {key prevKey : Key} {slot : Nat}
    (h : 0 ≤ (checkExtentDataItem fs leaf key slot prevKey).val) :
    F.fileExtentInlineDataStart ≤ sizeAt F leaf slot ∧
      ((readMember F leaf (itemPtrOffset F leaf slot).val F.feType).val = F.fileExtentInline →
        key.offset = 0) ∧
      ((readMember F leaf (itemPtrOffset F leaf slot).val F.feType).val ≠ F.fileExtentInline →
        sizeAt F leaf slot = F.fileExtentItemSize ∧
        (readMember F leaf (itemPtrOffset F leaf slot).val F.feNumBytes).val + key.offset < 2 ^ 64 ∧
        (0 < slot → prevKey.objectid = key.objectid → prevKey.type = F.extentDataKey →
          (fileExtentEnd fs leaf prevKey (itemPtrOffset F leaf (slot - 1)).val).val ≤ key.offset)) := by
  simp only [checkExtentDataItem, CheckM.bind_val] at h
  obtain ⟨-, h⟩ := val_nonneg_of_ite h rfl
  simp only [CheckM.bind_val, CheckM.pure_val] at h
  obtain ⟨-, h⟩ := val_nonneg_of_ite h rfl
  simp only [CheckM.bind_val, CheckM.pure_val] at h
  obtain ⟨hsize, h⟩ := val_nonneg_of_ite h rfl
  simp only [CheckM.bind_val, CheckM.pure_val] at h
  obtain ⟨-, h⟩ := val_nonneg_of_ite h rfl
  simp only [CheckM.bind_val, CheckM.pure_val] at h
  obtain ⟨-, h⟩ := val_nonneg_of_ite h rfl
  simp only [CheckM.bind_val, CheckM.pure_val] at h
  obtain ⟨-, h⟩ := val_nonneg_of_ite h rfl
  simp only [CheckM.bind_val, CheckM.pure_val] at h
  by_cases hinline : (readMember F leaf (itemPtrOffset F leaf slot).val F.feType).val =
      F.fileExtentInline
  · rw [if_pos hinline] at h
    exact ⟨Nat.le_of_not_lt hsize, fun _ => not_not.1 (val_nonneg_of_ite h rfl).1,
      fun h' => absurd hinline h'⟩
  rw [if_neg hinline] at h
  simp only [CheckM.bind_val, CheckM.pure_val] at h
  obtain ⟨hregular, h⟩ := val_nonneg_of_ite h rfl
  simp only [CheckM.bind_val, CheckM.pure_val] at h
  obtain ⟨-, h⟩ := val_nonneg_of_ite h rfl
  simp only [CheckM.bind_val, CheckM.pure_val] at h
  obtain ⟨hover, h⟩ := val_nonneg_of_ite h rfl
  simp only [CheckM.bind_val, CheckM.pure_val] at h
  refine ⟨Nat.le_of_not_lt hsize, fun h' => absurd h' hinline,
    fun _ => ⟨not_not.1 hregular, Nat.lt_of_not_le hover, fun hs ho ht => ?_⟩⟩
  rw [if_pos ⟨hs, ho, ht⟩] at h
  simp only [CheckM.bind_val] at h
  exact Nat.le_of_not_lt (val_nonneg_of_ite h rfl).1

/-- What an item `check_csum_item` does not reject satisfies: its objectid is
`EXTENT_CSUM_OBJECTID`, and it starts no earlier than the `u64` end of the
range of a previous checksum item. -/
theorem checkCsumItem_nonneg {key prevKey : Key} {slot : Nat}
    (h : 0 ≤ (checkCsumItem fs leaf key slot prevKey).val) :
    key.objectid = F.extentCsumObjectid ∧
      (0 < slot → prevKey.type = F.extentCsumKey →
        ((itemSizeNr F leaf (slot - 1)).val / fs.csumSize * fs.sectorsize % 2 ^ 32 +
          prevKey.offset) % 2 ^ 64 ≤ key.offset) := by
  simp only [checkCsumItem, CheckM.bind_val] at h
  obtain ⟨hobj, h⟩ := val_nonneg_of_ite h rfl
  simp only [CheckM.bind_val, CheckM.pure_val] at h
  obtain ⟨-, h⟩ := val_nonneg_of_ite h rfl
  simp only [CheckM.bind_val, CheckM.pure_val] at h
  obtain ⟨-, h⟩ := val_nonneg_of_ite h rfl
  simp only [CheckM.bind_val, CheckM.pure_val] at h
  refine ⟨not_not.1 hobj, fun hs ht => ?_⟩
  rw [if_pos ⟨hs, ht⟩] at h
  simp only [CheckM.bind_val] at h
  exact Nat.le_of_not_lt (val_nonneg_of_ite h rfl).1

/-- Slots between two slots of one objectid and key type have that objectid
and key type, the keys of a leaf the full walk accepts being increasing. -/
theorem keyAt_between (h : (checkLeafWalk fs leaf true).val = 0) {i m j : Nat} (him : i ≤ m)
    (hmj : m ≤ j) (hj : j < nritemsAt F leaf)
    (hobj : (keyAt F leaf i).objectid = (keyAt F leaf j).objectid)
    (htype : (keyAt F leaf i).type = (keyAt F leaf j).type) :
    (keyAt F leaf m).objectid = (keyAt F leaf i).objectid ∧
      (keyAt F leaf m).type = (keyAt F leaf i).type := by
  rcases Nat.eq_or_lt_of_le him with rfl | him
  · exact ⟨rfl, rfl⟩
  rcases Nat.eq_or_lt_of_le hmj with rfl | hmj
  · exact ⟨hobj.symm, htype.symm⟩
  have h1 := keyAt_lt_of_lt h him (by omega)
  have h2 := keyAt_lt_of_lt h hmj hj
  unfold Key.Lt at h1 h2
  omega

/-- Consecutive comparisons give order between any two slots: when each slot
of a run ends no earlier than it starts and no later than the next starts, the
first ends no later than the last starts. -/
theorem end_le_start_of_succ (start stop : Nat → Nat) {i j : Nat} (hij : i < j)
    (hsucc : ∀ m, i ≤ m → m < j → stop m ≤ start (m + 1))
    (hle : ∀ m, i < m → m < j → start m ≤ stop m) : stop i ≤ start j := by
  induction j, hij using Nat.le_induction with
  | base => exact hsucc i le_rfl (Nat.lt_succ_self i)
  | succ j hij ih =>
    calc stop i ≤ start j :=
          ih (fun m h1 h2 => hsucc m h1 (by omega)) fun m h1 h2 => hle m h1 (by omega)
      _ ≤ stop j := hle j hij (Nat.lt_succ_self j)
      _ ≤ start (j + 1) := hsucc j (by omega) (Nat.lt_succ_self j)

/-- In a leaf the full walk accepts, a file extent in the slot after one of the
same inode starts no earlier than the previous one's exact end modulo
`2 ^ 64`. -/
theorem checkLeafWalk_fileExtent_succ (h : (checkLeafWalk fs leaf true).val = 0) {i : Nat}
    (hi : i + 1 < nritemsAt F leaf) (htype : (keyAt F leaf i).type = F.extentDataKey)
    (htype' : (keyAt F leaf (i + 1)).type = F.extentDataKey)
    (hobj : (keyAt F leaf i).objectid = (keyAt F leaf (i + 1)).objectid) :
    fileExtentExactEnd fs leaf (keyAt F leaf i) (itemPtrOffset F leaf i).val % 2 ^ 64 ≤
      (keyAt F leaf (i + 1)).offset := by
  obtain ⟨hlt, hitem⟩ := checkLeafWalk_slot h hi
  rw [prevKeyAt_succ] at hlt hitem
  rw [checkLeafItem, if_pos htype'] at hitem
  obtain ⟨-, hinline, hregular⟩ := checkExtentDataItem_nonneg hitem
  by_cases hin : (readMember F leaf (itemPtrOffset F leaf (i + 1)).val F.feType).val =
      F.fileExtentInline
  · have h0 := hinline hin
    unfold Key.Lt at hlt
    omega
  · rw [← fileExtentEnd_val]
    exact (hregular hin).2.2 (Nat.succ_pos i) hobj htype

/-- In a leaf the full walk accepts, the file extents of one inode occupy
pairwise disjoint ranges of the file as long as no exact end reaches
`2 ^ 64`: an extent in an earlier slot ends, in exact arithmetic, no later
than one in a later slot starts. -/
theorem checkLeafWalk_file_extents_disjoint (h : (checkLeafWalk fs leaf true).val = 0)
    (hnowrap : ∀ m < nritemsAt F leaf, (keyAt F leaf m).type = F.extentDataKey →
      fileExtentExactEnd fs leaf (keyAt F leaf m) (itemPtrOffset F leaf m).val < 2 ^ 64)
    {i j : Nat} (hij : i < j) (hj : j < nritemsAt F leaf)
    (hi : (keyAt F leaf i).type = F.extentDataKey) (hj' : (keyAt F leaf j).type = F.extentDataKey)
    (hobj : (keyAt F leaf i).objectid = (keyAt F leaf j).objectid) :
    fileExtentExactEnd fs leaf (keyAt F leaf i) (itemPtrOffset F leaf i).val ≤
      (keyAt F leaf j).offset := by
  have hsame : ∀ m, i ≤ m → m ≤ j → (keyAt F leaf m).objectid = (keyAt F leaf i).objectid ∧
      (keyAt F leaf m).type = F.extentDataKey := fun m h1 h2 => by
    obtain ⟨ho, ht⟩ := keyAt_between h h1 h2 hj hobj (hi.trans hj'.symm)
    exact ⟨ho, ht.trans hi⟩
  refine end_le_start_of_succ (fun m => (keyAt F leaf m).offset)
    (fun m => fileExtentExactEnd fs leaf (keyAt F leaf m) (itemPtrOffset F leaf m).val) hij
    (fun m h1 h2 => ?_) fun m _ _ => offset_le_fileExtentExactEnd ..
  obtain ⟨ho, ht⟩ := hsame m h1 h2.le
  obtain ⟨ho', ht'⟩ := hsame (m + 1) (by omega) h2
  have hsucc := checkLeafWalk_fileExtent_succ h (by omega) ht ht' (ho.trans ho'.symm)
  rwa [Nat.mod_eq_of_lt (hnowrap m (by omega) ht)] at hsucc

/-- {lit}`inlineWrapLeaf` with the inline extent's `ram_bytes` set to 22: its
range ends at 4096, where the regular extent starts. -/
def inlineExtentLeaf : ExtentBuffer :=
  ExtentBuffer.ofFields packedFormat.page 0 4096
    [(88, 8, 5), (96, 4, 2), (101, 8, 257), (109, 1, 108), (110, 8, 0), (118, 4, 3973),
      (122, 4, 22), (126, 8, 257), (134, 1, 108), (135, 8, 4096), (143, 4, 3920), (147, 4, 53),
      (4029, 8, 4096), (4041, 1, 1), (4050, 8, 4096), (4066, 8, 4096), (4082, 8, 22),
      (4090, 1, 1)]

theorem checkLeafWalk_file_extents_disjoint_sample :
    fileExtentExactEnd packedFs inlineExtentLeaf (keyAt packedFormat inlineExtentLeaf 0)
        (itemPtrOffset packedFormat inlineExtentLeaf 0).val ≤
      (keyAt packedFormat inlineExtentLeaf 1).offset :=
  checkLeafWalk_file_extents_disjoint (by decide) (by decide) Nat.zero_lt_one (by decide) (by decide)
    (by decide) (by decide)

/-- In a leaf the full walk accepts, a checksum item in the slot after another
starts no earlier than the `u64` end of the previous one's range. -/
theorem checkLeafWalk_csum_succ (hkeys : F.extentCsumKey ≠ F.extentDataKey)
    (h : (checkLeafWalk fs leaf true).val = 0) {i : Nat} (hi : i + 1 < nritemsAt F leaf)
    (htype : (keyAt F leaf i).type = F.extentCsumKey)
    (htype' : (keyAt F leaf (i + 1)).type = F.extentCsumKey) :
    (sizeAt F leaf i / fs.csumSize * fs.sectorsize % 2 ^ 32 + (keyAt F leaf i).offset) % 2 ^ 64 ≤
      (keyAt F leaf (i + 1)).offset := by
  have hitem := (checkLeafWalk_slot h hi).2
  rw [prevKeyAt_succ, checkLeafItem, if_neg (htype' ▸ hkeys), if_pos htype'] at hitem
  exact (checkCsumItem_nonneg hitem).2 (Nat.succ_pos i) htype

/-- Every checksum item of a leaf the full walk accepts has objectid
`EXTENT_CSUM_OBJECTID`. -/
theorem checkLeafWalk_csum_objectid (hkeys : F.extentCsumKey ≠ F.extentDataKey)
    (h : (checkLeafWalk fs leaf true).val = 0) {i : Nat} (hi : i < nritemsAt F leaf)
    (htype : (keyAt F leaf i).type = F.extentCsumKey) :
    (keyAt F leaf i).objectid = F.extentCsumObjectid := by
  have hitem := (checkLeafWalk_slot h hi).2
  rw [checkLeafItem, if_neg (htype ▸ hkeys), if_pos htype] at hitem
  exact (checkCsumItem_nonneg hitem).1

/-- In a leaf the full walk accepts, the checksum items cover pairwise
disjoint byte ranges as long as no range's `u32` length or exact end wraps:
an item in an earlier slot covers, in exact arithmetic, bytes below the start
of one in a later slot. -/
theorem checkLeafWalk_csum_ranges_disjoint (hkeys : F.extentCsumKey ≠ F.extentDataKey)
    (h : (checkLeafWalk fs leaf true).val = 0)
    (hnowrap : ∀ m < nritemsAt F leaf, (keyAt F leaf m).type = F.extentCsumKey →
      sizeAt F leaf m / fs.csumSize * fs.sectorsize < 2 ^ 32 ∧ csumExactEnd fs leaf m < 2 ^ 64)
    {i j : Nat} (hij : i < j) (hj : j < nritemsAt F leaf)
    (hi : (keyAt F leaf i).type = F.extentCsumKey) (hj' : (keyAt F leaf j).type = F.extentCsumKey) :
    csumExactEnd fs leaf i ≤ (keyAt F leaf j).offset := by
  have hobj := (checkLeafWalk_csum_objectid hkeys h (by omega) hi).trans
    (checkLeafWalk_csum_objectid hkeys h hj hj').symm
  refine end_le_start_of_succ (fun m => (keyAt F leaf m).offset) (csumExactEnd fs leaf) hij
    (fun m h1 h2 => ?_) fun m _ _ => Nat.le_add_right _ _
  have ht := (keyAt_between h h1 h2.le hj hobj (hi.trans hj'.symm)).2.trans hi
  have ht' := (keyAt_between h (Nat.le_succ_of_le h1) h2 hj hobj (hi.trans hj'.symm)).2.trans hi
  have hsucc := checkLeafWalk_csum_succ hkeys h (by omega) ht ht'
  obtain ⟨hlen, hend⟩ := hnowrap m (by omega) ht
  unfold csumExactEnd at hend ⊢
  rwa [Nat.mod_eq_of_lt hlen, Nat.add_comm, Nat.mod_eq_of_lt hend] at hsucc

/-- A leaf of the checksum tree holding two checksum items of three 4-byte
checksums each, at 8192 and 20480, where the first range ends. -/
def csumLeaf : ExtentBuffer :=
  ExtentBuffer.ofFields packedFormat.page 0 4096
    [(96, 4, 2), (101, 8, 2 ^ 64 - 10), (109, 1, 128), (110, 8, 8192), (118, 4, 3983),
      (122, 4, 12), (126, 8, 2 ^ 64 - 10), (134, 1, 128), (135, 8, 20480), (143, 4, 3971),
      (147, 4, 12)]

theorem checkLeafWalk_csum_ranges_disjoint_sample :
    csumExactEnd packedFs csumLeaf 0 ≤ (keyAt packedFormat csumLeaf 1).offset :=
  checkLeafWalk_csum_ranges_disjoint (by decide) (by decide) (by decide) Nat.zero_lt_one (by decide)
    (by decide) (by decide)

end Walk

/-! ## Ranges that wrap -/

/-- A leaf of the file system tree holding two file extents of inode 257: a
zlib-compressed inline extent at file offset 0 of 22 bytes whose `ram_bytes`
is `2 ^ 64 - 1`, then a regular extent of one sector at file offset 4096. -/
def inlineWrapLeaf : ExtentBuffer :=
  ExtentBuffer.ofFields packedFormat.page 0 4096
    [(88, 8, 5), (96, 4, 2), (101, 8, 257), (109, 1, 108), (110, 8, 0), (118, 4, 3973),
      (122, 4, 22), (126, 8, 257), (134, 1, 108), (135, 8, 4096), (143, 4, 3920), (147, 4, 53),
      (4029, 8, 4096), (4041, 1, 1), (4050, 8, 4096), (4066, 8, 4096), (4082, 8, 2 ^ 64 - 1),
      (4090, 1, 1)]

/-- The full walk accepts {lit}`inlineWrapLeaf`: the `u64` end of the inline
extent wraps to 0, below the next extent's offset, while in exact arithmetic
the inline extent ends at `2 ^ 64` and the two ranges overlap. -/
theorem check_leaf_walk_accepts_wrapped_inline_extent :
    (checkLeafWalk packedFs inlineWrapLeaf true).val = 0 ∧
      keyAt packedFormat inlineWrapLeaf 0 = ⟨257, packedFormat.extentDataKey, 0⟩ ∧
      keyAt packedFormat inlineWrapLeaf 1 = ⟨257, packedFormat.extentDataKey, 4096⟩ ∧
      (fileExtentEnd packedFs inlineWrapLeaf (keyAt packedFormat inlineWrapLeaf 0)
        (itemPtrOffset packedFormat inlineWrapLeaf 0).val).val = 0 ∧
      fileExtentExactEnd packedFs inlineWrapLeaf (keyAt packedFormat inlineWrapLeaf 0)
        (itemPtrOffset packedFormat inlineWrapLeaf 0).val = 2 ^ 64 ∧
      fileExtentExactEnd packedFs inlineWrapLeaf (keyAt packedFormat inlineWrapLeaf 1)
        (itemPtrOffset packedFormat inlineWrapLeaf 1).val = 8192 := by
  decide

/-- A leaf of the checksum tree holding two checksum items of three 4-byte
checksums each, at `2 ^ 64 - 8192` and `2 ^ 64 - 4096`. -/
def csumWrapLeaf : ExtentBuffer :=
  ExtentBuffer.ofFields packedFormat.page 0 4096
    [(96, 4, 2), (101, 8, 2 ^ 64 - 10), (109, 1, 128), (110, 8, 2 ^ 64 - 8192), (118, 4, 3983),
      (122, 4, 12), (126, 8, 2 ^ 64 - 10), (134, 1, 128), (135, 8, 2 ^ 64 - 4096), (143, 4, 3971),
      (147, 4, 12)]

/-- The full walk accepts {lit}`csumWrapLeaf`: the `u64` end of the first
item's range wraps to 4096, below the second item's offset, while in exact
arithmetic the first range runs past the second's start. -/
theorem check_leaf_walk_accepts_wrapped_csum_range :
    (checkLeafWalk packedFs csumWrapLeaf true).val = 0 ∧
      keyAt packedFormat csumWrapLeaf 0 =
        ⟨packedFormat.extentCsumObjectid, packedFormat.extentCsumKey, 2 ^ 64 - 8192⟩ ∧
      keyAt packedFormat csumWrapLeaf 1 =
        ⟨packedFormat.extentCsumObjectid, packedFormat.extentCsumKey, 2 ^ 64 - 4096⟩ ∧
      csumExactEnd packedFs csumWrapLeaf 0 = 2 ^ 64 + 4096 ∧
      csumExactEnd packedFs csumWrapLeaf 0 % 2 ^ 64 = 4096 ∧
      csumExactEnd packedFs csumWrapLeaf 1 = 2 ^ 64 + 8192 := by
  decide

end Apfs
