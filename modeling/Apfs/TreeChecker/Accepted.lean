import Apfs.Packed
import Apfs.TreeChecker.Extents

/-!
# What an accepted item satisfies

The validators of {lit}`Apfs.TreeChecker.Items` and
{lit}`Apfs.TreeChecker.Extents` return `0` only after every check has passed.
This module reads off, from a result of `0`, what the checks establish of the
item: for a chunk, the conditions of `apfs_check_chunk_valid`; for the items
that hold a sequence of records (directory entries, inode refs, the inline
refs of an extent item), that the records lie back to back and fill the
payload exactly, each satisfying its own checks.

A validator's result is a cascade of checks, each returning `-EUCLEAN` on
failure; {lit}`val_eq_zero_of_ite` peels one check off a computation whose
result is `0`, and {lit}`val_ite_of_not` lets a check that does not fire
through.
The record loops are well-founded recursions on the bytes left, and each
tiling result is proved by induction on that count.

Main results:

- Theorem {lit}`check_leaf_chunk_item_accepts_valid_chunks`: an accepted chunk
  item holds exactly its stripes and satisfies every condition of
  {lit}`ChunkValid`.
- Theorem {lit}`check_inode_ref_fills_payload`: the records of an accepted
  inode ref item lie back to back and fill the item.
- Theorem {lit}`check_dir_item_accepts_xattr_with_root_location`: an xattr
  entry whose location key has the type of a root item escapes the rule that
  an xattr's location key is zero.
- Theorems {lit}`checkExtentItem_passes` and {lit}`checkExtentItem_of_passes`:
  `check_extent_item` accepts exactly the items that pass each of its checks,
  {lit}`ExtentItemPasses`.
- Theorem {lit}`check_extent_item_fills_payload`: an accepted extent item has
  exactly one of the data and tree block flags, the header its kind prescribes
  and inline refs of known types to its end, which count, exactly, at most the
  extent's references.
- Theorem {lit}`check_extent_item_accepts_tree_block_ref_in_data_extent`: the
  kind of an inline ref is never checked against the extent's flags.
-/

namespace Apfs

variable {F : Format}

/-- A check that returns `-EUCLEAN` when `c` holds passes a result of `0` on
only when `c` fails. -/
theorem eq_zero_of_ite_euclean {c : Prop} [Decidable c] {r : Int}
    (h : (if c then -EUCLEAN else r) = 0) : ¬c ∧ r = 0 := by
  split at h
  · exact absurd h (by decide)
  · exact ⟨‹_›, h⟩

/-- A check made only under a guard `c`, with the rest of the function after
it on both paths, passes a result of `0` on only when the guard or the check
fails. -/
theorem eq_zero_of_guarded_ite_euclean {c d : Prop} [Decidable c] [Decidable d] {r : Int}
    (h : (if c then (if d then -EUCLEAN else r) else r) = 0) : (c → ¬d) ∧ r = 0 := by
  split at h
  · exact ⟨fun _ => (eq_zero_of_ite_euclean h).1, (eq_zero_of_ite_euclean h).2⟩
  · exact ⟨fun hc => absurd hc ‹_›, h⟩

/-- The same on a computation: a check whose failing branch `x` (a report,
perhaps after loads, then `return -EUCLEAN`) results in `-EUCLEAN`. -/
theorem val_eq_zero_of_ite {c : Prop} [Decidable c] {x m : CheckM Int}
    (h : (if c then x else m).val = 0) (hx : x.val = -EUCLEAN) : ¬c ∧ m.val = 0 := by
  split at h
  · exact absurd (hx.symm.trans h) (by decide)
  · exact ⟨‹_›, h⟩

/-- A check of the inline-ref loop, whose failing branch `x` results in the
error `e`: the loop's result is that error, or the check did not fire and the
result is the rest's. -/
theorem val_of_ite_error {α β : Type} {c : Prop} [Decidable c] {x m : CheckM (Except α β)}
    {r : Except α β} {e : α} (h : (if c then x else m).val = r) (hx : x.val = .error e) :
    r = .error e ∨ ¬c ∧ m.val = r := by
  split at h
  · exact .inl (h.symm.trans hx)
  · exact .inr ⟨‹_›, h⟩

/-- A check of a pass whose result is `.ok p` or an error: its failing branch
`x` results in an error, so a pass that ends in `.ok` did not fire it. -/
theorem val_eq_ok_of_ite {α β : Type} {c : Prop} [Decidable c] {x m : CheckM (Except α β)}
    {p : β} {e : α} (h : (if c then x else m).val = .ok p) (hx : x.val = .error e) :
    ¬c ∧ m.val = .ok p := by
  split at h
  · exact absurd (hx.symm.trans h) nofun
  · exact ⟨‹_›, h⟩

/-- A check of a pass whose failing branch results in `-EUCLEAN`: the pass's
error is that one or the rest's. -/
theorem val_error_of_ite {β : Type} {c : Prop} [Decidable c] {x m : CheckM (Except Int β)}
    {r : Int} (h : (if c then x else m).val = .error r) (hx : x.val = .error (-EUCLEAN)) :
    r < 0 ∨ m.val = .error r := by
  split at h
  · rw [hx] at h
    cases h
    exact .inl (by decide)
  · exact .inr h

/-- A key check of a pass that dispatches on `c` and `c'` to one of two
sub-checks, each of whose negative results is returned as the pass's error,
and otherwise reports and fails: a pass that ends in `.ok` passed the sub-check
it took and went on with `m`. -/
theorem val_eq_ok_of_key_check {β : Type} {c c' : Prop} [Decidable c] [Decidable c']
    {k k' : CheckM Int} {e : CheckM Unit} {m : CheckM (Except Int β)} {p : β}
    (h : (if c then k >>= (fun ret => if ret < 0 then pure (.error ret) else m)
      else if c' then k' >>= (fun ret => if ret < 0 then pure (.error ret) else m)
      else e >>= fun _ => pure (.error (-EUCLEAN))).val = .ok p) :
    (c ∧ 0 ≤ k.val ∨ ¬c ∧ c' ∧ 0 ≤ k'.val) ∧ m.val = .ok p := by
  simp only [CheckM.ite_val, CheckM.bind_val, CheckM.pure_val] at h
  split_ifs at h with hc hk hc' hk'
  · exact ⟨.inl ⟨hc, by omega⟩, h⟩
  · exact ⟨.inr ⟨hc, hc', by omega⟩, h⟩

/-- The errors of such a key check are negative. -/
theorem val_error_of_key_check {β : Type} {c c' : Prop} [Decidable c] [Decidable c']
    {k k' : CheckM Int} {e : CheckM Unit} {m : CheckM (Except Int β)} {r : Int}
    (h : (if c then k >>= (fun ret => if ret < 0 then pure (.error ret) else m)
      else if c' then k' >>= (fun ret => if ret < 0 then pure (.error ret) else m)
      else e >>= fun _ => pure (.error (-EUCLEAN))).val = .error r) :
    r < 0 ∨ m.val = .error r := by
  simp only [CheckM.ite_val, CheckM.bind_val, CheckM.pure_val] at h
  split_ifs at h with hc hk hc' hk' <;> first | exact .inr h | (cases h; first | exact .inl hk | exact .inl hk' | exact .inl (by decide))

/-- A check of a pass under a guard `c` of a value `r` loads, which fails
when `d` holds of the value: a pass that ends in `.ok` did not fire it. -/
theorem val_eq_ok_of_guarded_read_check {α β γ : Type} {c : Prop} [Decidable c] {r : CheckM α}
    {d : α → Prop} [∀ x, Decidable (d x)] {e : CheckM Unit} {m : CheckM (Except γ β)}
    {p : β} {err : γ}
    (h : (if c then r >>= (fun x => if d x then e >>= (fun _ => pure (.error err)) else m)
      else m).val = .ok p) : (c → ¬d r.val) ∧ m.val = .ok p := by
  simp only [CheckM.ite_val, CheckM.bind_val, CheckM.pure_val] at h
  split_ifs at h with hc hd
  · exact ⟨fun _ => hd, h⟩
  · exact ⟨fun h' => absurd h' hc, h⟩

/-- The errors of such a check are its own or the rest's. -/
theorem val_error_of_guarded_read_check {α β γ : Type} {c : Prop} [Decidable c] {r : CheckM α}
    {d : α → Prop} [∀ x, Decidable (d x)] {e : CheckM Unit} {m : CheckM (Except γ β)}
    {err r' : γ}
    (h : (if c then r >>= (fun x => if d x then e >>= (fun _ => pure (.error err)) else m)
      else m).val = .error r') : r' = err ∨ m.val = .error r' := by
  simp only [CheckM.ite_val, CheckM.bind_val, CheckM.pure_val] at h
  split_ifs at h
  · cases h
    exact .inl rfl
  all_goals exact .inr h

/-- Conversely, a check that fails to fire hands on to the rest. -/
theorem val_ite_of_not {α : Type} {c : Prop} [Decidable c] {x m : CheckM α} (hc : ¬c) :
    (if c then x else m).val = m.val := by
  rw [if_neg hc]

/-- A failed alignment test `!IS_ALIGNED(..)` of an aligned value. -/
theorem not_not_eq_true {b : Bool} (h : b = true) : ¬(!b) = true := by
  simp [h]

/-- A key check whose sub-check passes hands on to the rest. -/
theorem val_key_check {α : Type} {c c' : Prop} [Decidable c] [Decidable c'] {k k' : CheckM Int}
    {g : Int → CheckM α} {e m : CheckM α} (hk : c → 0 ≤ k.val) (hk' : ¬c → c' ∧ 0 ≤ k'.val) :
    (if c then k >>= (fun ret => if ret < 0 then g ret else m)
      else if c' then k' >>= (fun ret => if ret < 0 then g ret else m) else e).val = m.val := by
  by_cases hc : c
  · simp only [if_pos hc, CheckM.bind_val, if_neg (Int.not_lt.2 (hk hc))]
  · obtain ⟨hc', hk'⟩ := hk' hc
    simp only [if_neg hc, if_pos hc', CheckM.bind_val, if_neg (Int.not_lt.2 hk')]

/-! ## Records back to back -/

/-- The records at the linear offsets `rs` lie back to back from `p` to `q`:
the first starts at `p`, each next one where the one before ends, `size r`
bytes after its start `r`, and the last ends at `q`; each satisfies `ok` at
its start. -/
def RecordsTile (size : Nat → Nat) (ok : Nat → Prop) : Nat → List Nat → Nat → Prop
  | p, [], q => p = q
  | p, r :: rs, q => r = p ∧ ok p ∧ RecordsTile size ok (p + size p) rs q

/-- Records that tile a range add up to its length. -/
theorem RecordsTile.sum_size {size : Nat → Nat} {ok : Nat → Prop} :
    ∀ {p : Nat} {rs : List Nat} {q : Nat}, RecordsTile size ok p rs q → p + (rs.map size).sum = q
  | _, [], _, h => by simpa using h
  | p, r :: rs, q, ⟨hr, _, h⟩ => by
    subst hr
    have := RecordsTile.sum_size h
    simp only [List.map_cons, List.sum_cons]
    omega

/-- Records that each count at most `c` per byte count at most `c` times the
length of the range they tile. -/
theorem RecordsTile.sum_le {size count : Nat → Nat} {ok : Nat → Prop} {c : Nat}
    (hc : ∀ p, ok p → count p ≤ c * size p) :
    ∀ {p : Nat} {rs : List Nat} {q : Nat}, RecordsTile size ok p rs q → (rs.map count).sum ≤ c * (q - p)
  | _, [], _, _ => Nat.zero_le _
  | p, r :: rs, q, ⟨hr, hok, h⟩ => by
    subst hr
    have hend := RecordsTile.sum_size h
    calc count r + (rs.map count).sum ≤ c * size r + c * (q - (r + size r)) :=
          Nat.add_le_add (hc r hok) (RecordsTile.sum_le hc h)
      _ = c * (q - r) := by rw [← Nat.mul_add]; congr 1; omega

/-! ## Chunks -/

/-- The members of a chunk that `apfs_check_chunk_valid` loads. -/
structure ChunkFields where
  length : Nat
  stripeLen : Nat
  numStripes : Nat
  subStripes : Nat
  type : Nat
  sectorSize : Nat

/-- The members of the chunk at linear offset `chunk`, as loaded. -/
def chunkFields (F : Format) (leaf : ExtentBuffer) (chunk : Nat) : ChunkFields where
  length := (readMember F leaf chunk F.chunkLength).val
  stripeLen := (readMember F leaf chunk F.chunkStripeLen).val
  numStripes := (readMember F leaf chunk F.chunkNumStripes).val
  subStripes := (readMember F leaf chunk F.chunkSubStripes).val
  type := (readMember F leaf chunk F.chunkType).val
  sectorSize := (readMember F leaf chunk F.chunkSectorSize).val

/-- A chunk starting at `logical` that `apfs_check_chunk_valid` accepts: it
has stripes; its range is sector-aligned, nonempty and within `u64`; its type
has only known bits, at most one profile bit and at least one type bit,
combined as the file system allows; and its stripe counts fit its profile. -/
structure ChunkValid (fs : FsInfo F) (logical : Nat) (c : ChunkFields) : Prop where
  numStripes_pos : 1 ≤ c.numStripes
  length_pos : 0 < c.length
  logical_aligned : fs.sectorsize ∣ logical
  length_aligned : fs.sectorsize ∣ c.length
  end_lt : logical + c.length < 2 ^ 64
  stripeLen_eq : c.stripeLen = F.stripeLen
  sectorSize_eq : c.sectorSize = fs.sectorsize
  type_known : c.type &&& complementBits 64 (F.blockGroupTypeMask ||| F.blockGroupProfileMask) = 0
  profile_single : c.type &&& F.blockGroupProfileMask = 0 ∨
    hasSingleBitSet (c.type &&& F.blockGroupProfileMask) = true
  type_some : c.type &&& F.blockGroupTypeMask ≠ 0
  system_alone : c.type &&& F.blockGroupSystem ≠ 0 →
    c.type &&& (F.blockGroupMetadata ||| F.blockGroupData) = 0
  mixed_enabled : c.type &&& F.blockGroupMetadata ≠ 0 → c.type &&& F.blockGroupData ≠ 0 →
    fs.incompatFlags &&& F.featureIncompatMixedGroups ≠ 0
  single_stripes : c.type &&& F.blockGroupProfileMask = 0 → c.numStripes = 1
  raid1_stripes : c.type &&& F.blockGroupRaid1 ≠ 0 → c.numStripes = 2
  dup_stripes : c.type &&& F.blockGroupDup ≠ 0 → c.numStripes = 2
  raid10_subStripes : c.type &&& F.blockGroupRaid10 ≠ 0 → c.subStripes = 2
  raid5_stripes : c.type &&& F.blockGroupRaid5 ≠ 0 → 2 ≤ c.numStripes
  raid6_stripes : c.type &&& F.blockGroupRaid6 ≠ 0 → 3 ≤ c.numStripes

/-- `apfs_check_chunk_valid` accepts only valid chunks. -/
theorem apfsCheckChunkValid_valid {fs : FsInfo F} {leaf : ExtentBuffer} {chunk logical : Nat}
    (h : (apfsCheckChunkValid fs leaf chunk logical).val = 0) :
    ChunkValid fs logical (chunkFields F leaf chunk) := by
  simp only [apfsCheckChunkValid, CheckM.bind_val, CheckM.pure_val, CheckM.ite_val] at h
  obtain ⟨hnum, h⟩ := eq_zero_of_ite_euclean h
  obtain ⟨-, h⟩ := eq_zero_of_ite_euclean h
  obtain ⟨-, h⟩ := eq_zero_of_ite_euclean h
  obtain ⟨hlogical, h⟩ := eq_zero_of_ite_euclean h
  obtain ⟨hsector, h⟩ := eq_zero_of_ite_euclean h
  obtain ⟨hlength, h⟩ := eq_zero_of_ite_euclean h
  obtain ⟨hend, h⟩ := eq_zero_of_ite_euclean h
  obtain ⟨hstripe, h⟩ := eq_zero_of_ite_euclean h
  obtain ⟨hknown, h⟩ := eq_zero_of_ite_euclean h
  obtain ⟨hprofile, h⟩ := eq_zero_of_ite_euclean h
  obtain ⟨htype, h⟩ := eq_zero_of_ite_euclean h
  obtain ⟨hsystem, h⟩ := eq_zero_of_ite_euclean h
  obtain ⟨hmixed, h⟩ := eq_zero_of_guarded_ite_euclean h
  obtain ⟨hraid, -⟩ := eq_zero_of_ite_euclean h
  simp only [not_or, not_and, not_lt, Decidable.not_not, ne_eq, Bool.not_eq_true', Bool.not_eq_false,
    Bool.not_eq_false', decide_eq_false_iff_not] at hlogical hlength hstripe hprofile hsystem
  simp only [not_or, not_and, not_lt, Decidable.not_not, ne_eq, Bool.not_eq_true',
    decide_eq_false_iff_not] at hmixed hraid
  have hsize := fs.sectorsize_pow
  exact ⟨Nat.one_le_iff_ne_zero.2 hnum, Nat.pos_of_ne_zero hlength.1,
    (isAligned_iff hsize).1 hlogical, (isAligned_iff hsize).1 hlength.2, Nat.lt_of_not_le hend,
    hstripe.2, not_not.1 hsector, not_not.1 hknown,
    (Bool.eq_false_or_eq_true _).elim .inr fun hf => .inl (hprofile hf), htype, hsystem,
    fun hm hd hz => hd (hmixed hz hm),
    hraid.2.2.2.2.2, hraid.2.1, hraid.2.2.2.2.1, hraid.1, hraid.2.2.1, hraid.2.2.2.1⟩

/-- `check_leaf_chunk_item` accepts a chunk item only when the item holds
exactly its stripes, so that, with the layout `apfs_chunk_item_size` gives
(the chunk with its first stripe, then one stripe after another), every stripe
lies inside the item; and only a valid chunk at the key's offset, including
one whose stripe count of 0 skipped the size check. -/
theorem check_leaf_chunk_item_accepts_valid_chunks (fs : FsInfo F) (leaf : ExtentBuffer)
    (chunk : Nat) (key : Key) (slot : Nat) (h : (checkLeafChunkItem fs leaf chunk key slot).val = 0) :
    (itemSizeNr F leaf slot).val = F.chunkItemSize (chunkFields F leaf chunk).numStripes ∧
      (∀ stripeSize, (∀ n, F.chunkItemSize n = F.chunkSize + stripeSize * (n - 1)) →
        ∀ i < (chunkFields F leaf chunk).numStripes,
          F.chunkSize + stripeSize * i ≤ (itemSizeNr F leaf slot).val) ∧
      ChunkValid fs key.offset (chunkFields F leaf chunk) := by
  simp only [checkLeafChunkItem, CheckM.bind_val, CheckM.pure_val, CheckM.ite_val] at h
  obtain ⟨-, h⟩ := eq_zero_of_ite_euclean h
  obtain ⟨hsize, h⟩ := eq_zero_of_guarded_ite_euclean h
  have hvalid := apfsCheckChunkValid_valid h
  have hitem : (itemSizeNr F leaf slot).val = F.chunkItemSize (chunkFields F leaf chunk).numStripes :=
    (not_not.1 (hsize (Nat.one_le_iff_ne_zero.1 hvalid.numStripes_pos))).symm
  refine ⟨hitem, fun s hs i hi => ?_, hvalid⟩
  rw [hitem, hs]
  exact Nat.add_le_add_left (Nat.mul_le_mul_left s (by omega)) _

/-- A leaf whose one item, keyed `(256, CHUNK_ITEM, 1 MiB)`, is a data chunk
of 8 MiB with one stripe. -/
def singleChunkLeaf : ExtentBuffer :=
  ExtentBuffer.ofFields packedFormat.page 0 4096
    [(96, 4, 1), (101, 8, 256), (109, 1, 228), (110, 8, 1048576), (118, 4, 3915), (122, 4, 80),
      (4016, 8, 8388608), (4032, 8, 65536), (4040, 8, 1), (4056, 4, 4096), (4060, 2, 1),
      (4062, 2, 1)]

theorem check_leaf_chunk_item_accepts_single_chunk :
    (checkLeafChunkItem packedFs singleChunkLeaf 4016 ⟨256, 228, 1048576⟩ 0).val = 0 ∧
      (itemSizeNr packedFormat singleChunkLeaf 0).val =
        packedFormat.chunkItemSize (chunkFields packedFormat singleChunkLeaf 4016).numStripes ∧
      (∀ stripeSize, (∀ n, packedFormat.chunkItemSize n =
          packedFormat.chunkSize + stripeSize * (n - 1)) →
        ∀ i < (chunkFields packedFormat singleChunkLeaf 4016).numStripes,
          packedFormat.chunkSize + stripeSize * i ≤ (itemSizeNr packedFormat singleChunkLeaf 0).val) ∧
      ChunkValid packedFs 1048576 (chunkFields packedFormat singleChunkLeaf 4016) :=
  have h : (checkLeafChunkItem packedFs singleChunkLeaf 4016 ⟨256, 228, 1048576⟩ 0).val = 0 := by
    decide
  ⟨h, check_leaf_chunk_item_accepts_valid_chunks packedFs singleChunkLeaf 4016 _ 0 h⟩

/-! ## Directory entries -/

/-- The members of a directory entry that `check_dir_item` loads: the location
key, the type, the name and data lengths, and the name. -/
structure DirEntry where
  location : Key
  dirType : Nat
  nameLen : Nat
  dataLen : Nat
  name : List UInt8

/-- The directory entry at linear offset `di`, as loaded. -/
def dirEntryAt (F : Format) (leaf : ExtentBuffer) (di : Nat) : DirEntry where
  location := (dirItemKeyToCpu F leaf di).val
  dirType := (readMember F leaf di F.diType).val
  nameLen := (readMember F leaf di F.diNameLen).val
  dataLen := (readMember F leaf di F.diDataLen).val
  name := (readExtentBuffer F leaf (di + F.dirItemSize) (readMember F leaf di F.diNameLen).val).val

/-- The bytes an entry occupies: `sizeof(struct apfs_dir_item)`, then the name
and the data. -/
def DirEntry.size (F : Format) (e : DirEntry) : Nat :=
  F.dirItemSize + e.nameLen + e.dataLen

/-- An entry of an item keyed `key` that `check_dir_item` accepts: its
location key has a known type, its type is known and is `FT_XATTR` exactly in
an xattr item, its name and data fit their bounds, only an xattr carries
data, and in a `DIR_ITEM` or `XATTR_ITEM` the key offset is the hash of the
name. -/
structure DirEntryValid (fs : FsInfo F) (key : Key) (e : DirEntry) : Prop where
  location_type : e.location.type = 0 ∨ e.location.type = F.inodeItemKey ∨
    e.location.type = F.rootItemKey
  dirType_lt : e.dirType < F.ftMax
  xattr_iff : e.dirType = F.ftXattr ↔ key.type = F.xattrItemKey
  nameLen_le : e.nameLen ≤ if e.dirType = F.ftXattr then xattrNameMax else F.nameLen
  nameData_le : e.nameLen + e.dataLen ≤ fs.maxXattrSize
  data_of_xattr : e.dataLen ≠ 0 → e.dirType = F.ftXattr
  name_hash : key.type = F.dirItemKey ∨ key.type = F.xattrItemKey →
    key.offset = F.nameHash e.name fs.caseInsensitive % 2 ^ 32

section DirItem

variable {fs : FsInfo F} {leaf : ExtentBuffer} {key : Key} {slot itemSize : Nat}

/-- The entry checks that end in `.ok` hand on the entry's lengths: its
header fits, and it is accepted but for the name hash, checked after. -/
theorem checkDirEntry_ok {di cur : Nat} {p : Nat × Nat}
    (h : (checkDirEntry fs leaf key slot itemSize di cur).val = .ok p) :
    p = ((dirEntryAt F leaf di).nameLen, (dirEntryAt F leaf di).dataLen) ∧
      cur + F.dirItemSize ≤ itemSize ∧
      (dirEntryAt F leaf di).nameLen + (dirEntryAt F leaf di).dataLen ≤ fs.maxXattrSize ∧
      ((key.type = F.dirItemKey ∨ key.type = F.xattrItemKey →
        key.offset = F.nameHash (dirEntryAt F leaf di).name fs.caseInsensitive % 2 ^ 32) →
        DirEntryValid fs key (dirEntryAt F leaf di)) := by
  simp only [checkDirEntry, CheckM.bind_val] at h
  obtain ⟨hhdr, h⟩ := val_eq_ok_of_ite h rfl
  simp only [CheckM.bind_val, CheckM.pure_val] at h
  obtain ⟨hloc, h⟩ := val_eq_ok_of_key_check h
  simp only [CheckM.bind_val, CheckM.pure_val] at h
  obtain ⟨htype, h⟩ := val_eq_ok_of_ite h rfl
  obtain ⟨hx1, h⟩ := val_eq_ok_of_ite h rfl
  obtain ⟨hx2, h⟩ := val_eq_ok_of_ite h rfl
  simp only [CheckM.bind_val, CheckM.pure_val] at h
  obtain ⟨hname, h⟩ := val_eq_ok_of_ite h rfl
  obtain ⟨hnd, h⟩ := val_eq_ok_of_ite h rfl
  obtain ⟨hdata, h⟩ := val_eq_ok_of_ite h rfl
  refine ⟨(Except.ok.inj h).symm, by simpa using hhdr, by simpa using hnd, fun hhash =>
    ⟨?_, by simpa using htype, ?_, by simpa using hname, by simpa using hnd, ?_, hhash⟩⟩
  · rcases hloc with ⟨h1, -⟩ | ⟨-, h2 | h2, -⟩
    · exact .inr (.inr h1)
    · exact .inr (.inl h2)
    · exact .inl h2
  · constructor
    · intro hx
      by_contra hk
      exact hx2 ⟨hx, hk⟩
    · intro hk
      by_contra hx
      exact hx1 ⟨hk, hx⟩
  · intro hd
    by_contra hx
    exact hdata ⟨hd, hx⟩

/-- Every error of the entry checks is negative. -/
theorem checkDirEntry_error {di cur : Nat} {r : Int}
    (h : (checkDirEntry fs leaf key slot itemSize di cur).val = .error r) : r < 0 := by
  simp only [checkDirEntry, CheckM.bind_val] at h
  refine (val_error_of_ite h rfl).elim id fun h => ?_
  simp only [CheckM.bind_val, CheckM.pure_val] at h
  refine (val_error_of_key_check h).elim id fun h => ?_
  simp only [CheckM.bind_val, CheckM.pure_val] at h
  refine (val_error_of_ite h rfl).elim id fun h => ?_
  refine (val_error_of_ite h rfl).elim id fun h => ?_
  refine (val_error_of_ite h rfl).elim id fun h => ?_
  simp only [CheckM.bind_val, CheckM.pure_val] at h
  refine (val_error_of_ite h rfl).elim id fun h => ?_
  refine (val_error_of_ite h rfl).elim id fun h => ?_
  refine (val_error_of_ite h rfl).elim id fun h => ?_
  cases h

/-- A pass that ends in `.ok` accepted the entry under the cursor, which fits
in the item by the pass's own sum `add`. -/
theorem checkDirItemPass_ok {add : Nat → Nat → Nat} {di cur : Nat} {p : Nat × Nat}
    (h : (checkDirItemPass fs leaf key slot itemSize add di cur).val = .ok p) :
    p = ((dirEntryAt F leaf di).nameLen, (dirEntryAt F leaf di).dataLen) ∧
      DirEntryValid fs key (dirEntryAt F leaf di) ∧ cur + F.dirItemSize ≤ itemSize ∧
      add cur ((dirEntryAt F leaf di).size F) ≤ itemSize := by
  simp only [checkDirItemPass, CheckM.bind_val] at h
  split at h
  · cases h
  · rename_i nameLen dataLen he
    obtain ⟨hp, hhdr, -, hvalid⟩ := checkDirEntry_ok he
    obtain ⟨rfl, rfl⟩ := Prod.mk.inj hp
    obtain ⟨hfit, h⟩ := val_eq_ok_of_ite h rfl
    obtain ⟨hhash, h⟩ := val_eq_ok_of_guarded_read_check h
    exact ⟨(Except.ok.inj h).symm, hvalid fun hk => not_not.1 (hhash hk), hhdr, Nat.not_lt.1 hfit⟩

/-- Every error of a pass is negative. -/
theorem checkDirItemPass_error {add : Nat → Nat → Nat} {di cur : Nat} {r : Int}
    (h : (checkDirItemPass fs leaf key slot itemSize add di cur).val = .error r) : r < 0 := by
  simp only [checkDirItemPass, CheckM.bind_val] at h
  split at h
  · cases h
    exact checkDirEntry_error ‹_›
  · refine (val_error_of_ite h rfl).elim id fun h => ?_
    refine (val_error_of_guarded_read_check h).elim (fun h => h ▸ by decide) fun h => ?_
    cases h

/-- Conversely, the entry checks pass an accepted entry whose header fits and
whose location key passes `check_root_key` or `check_inode_key`. -/
theorem checkDirEntry_of_valid {di cur : Nat} (hhdr : cur + F.dirItemSize ≤ itemSize)
    (hok : DirEntryValid fs key (dirEntryAt F leaf di))
    (hroot : (dirEntryAt F leaf di).location.type = F.rootItemKey →
      0 ≤ (checkRootKey F leaf (dirEntryAt F leaf di).location slot).val)
    (hinode : (dirEntryAt F leaf di).location.type ≠ F.rootItemKey →
      0 ≤ (checkInodeKey F leaf (dirEntryAt F leaf di).location slot).val) :
    (checkDirEntry fs leaf key slot itemSize di cur).val =
      .ok ((dirEntryAt F leaf di).nameLen, (dirEntryAt F leaf di).dataLen) := by
  obtain ⟨hloc, htype, hx, hname, hnd, hdata, -⟩ := hok
  dsimp only [dirEntryAt] at *
  have hother : (dirItemKeyToCpu F leaf di).val.type ≠ F.rootItemKey →
      ((dirItemKeyToCpu F leaf di).val.type = F.inodeItemKey ∨
        (dirItemKeyToCpu F leaf di).val.type = 0) ∧
      0 ≤ (checkInodeKey F leaf (dirItemKeyToCpu F leaf di).val slot).val := by
    intro hr
    refine ⟨?_, hinode hr⟩
    rcases hloc with h | h | h
    · exact .inr h
    · exact .inl h
    · exact absurd h hr
  have h1 : ¬(readMember F leaf di F.diType).val ≥ F.ftMax := Nat.not_le.2 htype
  have h2 : ¬(key.type = F.xattrItemKey ∧ (readMember F leaf di F.diType).val ≠ F.ftXattr) :=
    fun h => h.2 (hx.2 h.1)
  have h3 : ¬((readMember F leaf di F.diType).val = F.ftXattr ∧ key.type ≠ F.xattrItemKey) :=
    fun h => h.2 (hx.1 h.1)
  have h4 : ¬(readMember F leaf di F.diNameLen).val >
      if (readMember F leaf di F.diType).val = F.ftXattr then xattrNameMax else F.nameLen :=
    Nat.not_lt.2 hname
  have h5 : ¬(readMember F leaf di F.diNameLen).val + (readMember F leaf di F.diDataLen).val >
      fs.maxXattrSize := Nat.not_lt.2 hnd
  have h6 : ¬((readMember F leaf di F.diDataLen).val ≠ 0 ∧
      (readMember F leaf di F.diType).val ≠ F.ftXattr) := fun h => h.2 (hdata h.1)
  simp only [checkDirEntry, CheckM.bind_val, val_ite_of_not (Nat.not_lt.2 hhdr),
    CheckM.pure_val, val_key_check hroot hother, val_ite_of_not h1, val_ite_of_not h2,
    val_ite_of_not h3, val_ite_of_not h4, val_ite_of_not h5, val_ite_of_not h6]

/-- A pass accepts such an entry when it fits by the pass's own sum `add`. -/
theorem checkDirItemPass_of_valid {add : Nat → Nat → Nat} {di cur : Nat}
    (hhdr : cur + F.dirItemSize ≤ itemSize) (hok : DirEntryValid fs key (dirEntryAt F leaf di))
    (hroot : (dirEntryAt F leaf di).location.type = F.rootItemKey →
      0 ≤ (checkRootKey F leaf (dirEntryAt F leaf di).location slot).val)
    (hinode : (dirEntryAt F leaf di).location.type ≠ F.rootItemKey →
      0 ≤ (checkInodeKey F leaf (dirEntryAt F leaf di).location slot).val)
    (hfit : add cur ((dirEntryAt F leaf di).size F) ≤ itemSize) :
    (checkDirItemPass fs leaf key slot itemSize add di cur).val =
      .ok ((dirEntryAt F leaf di).nameLen, (dirEntryAt F leaf di).dataLen) := by
  simp only [checkDirItemPass, CheckM.bind_val, checkDirEntry_of_valid hhdr hok hroot hinode]
  rw [val_ite_of_not (Nat.not_lt.2 (show add cur (F.dirItemSize + _ + _) ≤ itemSize from hfit))]
  simp only [CheckM.ite_val, CheckM.bind_val, CheckM.pure_val]
  split_ifs with hk hne
  · exact absurd (hok.name_hash hk) hne
  all_goals rfl

/-- Two sums `cur + total_size` that agree on every size an entry can have
give the same pass: an entry of more bytes fails before the sum is taken. -/
theorem checkDirItemPass_congr {add add' : Nat → Nat → Nat} {di cur : Nat}
    (hadd : ∀ t, t ≤ F.dirItemSize + fs.maxXattrSize → add cur t = add' cur t) :
    checkDirItemPass fs leaf key slot itemSize add di cur =
      checkDirItemPass fs leaf key slot itemSize add' di cur := by
  unfold checkDirItemPass
  refine CheckM.bind_congr ?_
  split
  · rfl
  · rename_i nameLen dataLen he
    obtain ⟨hp, -, hnd, -⟩ := checkDirEntry_ok he
    obtain ⟨rfl, rfl⟩ := Prod.mk.inj hp
    dsimp only
    rw [hadd _ (by omega)]

/-- One pass of `check_dir_item`'s loop that ends in `0` accepts the entry
under the cursor, which fits in the item, and the loop goes on after it. -/
theorem checkDirItemLoop_step {di cur : Nat} (hlt : cur < itemSize)
    (h : (checkDirItemLoop fs leaf key slot itemSize di cur).val = 0) :
    DirEntryValid fs key (dirEntryAt F leaf di) ∧ cur + (dirEntryAt F leaf di).size F ≤ itemSize ∧
      (checkDirItemLoop fs leaf key slot itemSize (di + (dirEntryAt F leaf di).size F)
        (cur + (dirEntryAt F leaf di).size F)).val = 0 := by
  rw [checkDirItemLoop, if_pos hlt] at h
  simp only [CheckM.bind_val] at h
  split at h
  · exact absurd h (Int.ne_of_lt (checkDirItemPass_error ‹_›))
  · obtain ⟨hp, hok, -, hfit⟩ := checkDirItemPass_ok ‹_›
    obtain ⟨rfl, rfl⟩ := Prod.mk.inj hp
    exact ⟨hok, hfit, h⟩

/-- Conversely, an accepted entry that fits, and whose location key passes
`check_root_key` or `check_inode_key`, hands the loop on to the next entry. -/
theorem checkDirItemLoop_of_valid {di cur : Nat} (hlt : cur < itemSize)
    (hok : DirEntryValid fs key (dirEntryAt F leaf di))
    (hroot : (dirEntryAt F leaf di).location.type = F.rootItemKey →
      0 ≤ (checkRootKey F leaf (dirEntryAt F leaf di).location slot).val)
    (hinode : (dirEntryAt F leaf di).location.type ≠ F.rootItemKey →
      0 ≤ (checkInodeKey F leaf (dirEntryAt F leaf di).location slot).val)
    (hfit : cur + (dirEntryAt F leaf di).size F ≤ itemSize) :
    (checkDirItemLoop fs leaf key slot itemSize di cur).val =
      (checkDirItemLoop fs leaf key slot itemSize (di + (dirEntryAt F leaf di).size F)
        (cur + (dirEntryAt F leaf di).size F)).val := by
  have hhdr : cur + F.dirItemSize ≤ itemSize := by
    unfold DirEntry.size at hfit
    omega
  rw [checkDirItemLoop, if_pos hlt]
  simp only [CheckM.bind_val, checkDirItemPass_of_valid hhdr hok hroot hinode hfit]
  rfl

/-- From a cursor `cur` at most `itemSize`, a loop that ends in `0` has run
over entries that lie back to back up to the item's end, each accepted. -/
theorem checkDirItemLoop_tile :
    ∀ (n di cur : Nat), itemSize - cur ≤ n → cur ≤ itemSize →
      (checkDirItemLoop fs leaf key slot itemSize di cur).val = 0 →
      ∃ es, RecordsTile (fun d => (dirEntryAt F leaf d).size F)
        (fun d => DirEntryValid fs key (dirEntryAt F leaf d)) di es (di + (itemSize - cur))
  | 0, di, cur, hn, _, _ => ⟨[], by show di = di + (itemSize - cur); omega⟩
  | n + 1, di, cur, hn, hcur, h => by
    by_cases hlt : cur < itemSize
    · obtain ⟨hok, hfit, hnext⟩ := checkDirItemLoop_step hlt h
      have hpos : 0 < (dirEntryAt F leaf di).size F := by
        have := F.dirItemSize_pos
        unfold DirEntry.size
        omega
      obtain ⟨es, hes⟩ := checkDirItemLoop_tile n _ _ (by omega) hfit hnext
      refine ⟨di :: es, rfl, hok, ?_⟩
      rwa [show di + (dirEntryAt F leaf di).size F +
          (itemSize - (cur + (dirEntryAt F leaf di).size F)) = di + (itemSize - cur) by omega] at hes
    · exact ⟨[], by show di = di + (itemSize - cur); omega⟩

/-- An accepted directory, index or xattr item is a sequence of accepted
entries that fills its data exactly. -/
theorem checkDirItem_tile {prevKey : Key} (h : (checkDirItem fs leaf key prevKey slot).val = 0) :
    ∃ es, RecordsTile (fun d => (dirEntryAt F leaf d).size F)
      (fun d => DirEntryValid fs key (dirEntryAt F leaf d)) (itemPtrOffset F leaf slot).val es
      ((itemPtrOffset F leaf slot).val + (itemSizeNr F leaf slot).val) := by
  simp only [checkDirItem, CheckM.bind_val] at h
  obtain ⟨-, h⟩ := val_eq_zero_of_ite h rfl
  simpa using checkDirItemLoop_tile _ _ 0 le_rfl (Nat.zero_le _) h

theorem checkDirItemLoop_of_ge {di cur : Nat} (h : ¬cur < itemSize) :
    (checkDirItemLoop fs leaf key slot itemSize di cur).val = 0 := by
  rw [checkDirItemLoop, if_neg h]
  rfl

/-- An item whose key passes `check_prev_ino` is accepted exactly when the
loop over its entries is. -/
theorem checkDirItem_val {prevKey : Key} (hprev : (checkPrevIno F leaf key slot prevKey).val = true) :
    (checkDirItem fs leaf key prevKey slot).val =
      (checkDirItemLoop fs leaf key slot (itemSizeNr F leaf slot).val (itemPtrOffset F leaf slot).val
        0).val := by
  simp [checkDirItem, hprev]

end DirItem

/-! ## Inode refs -/

/-- The bytes the inode ref record at `ptr` occupies:
`sizeof(struct apfs_inode_ref)`, then the name. -/
def inodeRefSizeAt (F : Format) (leaf : ExtentBuffer) (ptr : Nat) : Nat :=
  F.inodeRefSize + (readMember F leaf ptr F.irefNameLen).val

section InodeRef

variable {leaf : ExtentBuffer} {slot : Nat}

/-- One pass of `check_inode_ref`'s loop that ends in `0` finds the record
under the cursor inside the item, and the loop goes on after it. -/
theorem checkInodeRefLoop_step {ptr end_ : Nat} (hlt : ptr < end_)
    (h : (checkInodeRefLoop F leaf slot ptr end_).val = 0) :
    ptr + inodeRefSizeAt F leaf ptr ≤ end_ ∧
      (checkInodeRefLoop F leaf slot (ptr + inodeRefSizeAt F leaf ptr) end_).val = 0 := by
  rw [checkInodeRefLoop, if_pos hlt] at h
  simp only [CheckM.bind_val] at h
  obtain ⟨-, h⟩ := val_eq_zero_of_ite h rfl
  simp only [CheckM.bind_val, CheckM.pure_val] at h
  obtain ⟨hfit, h⟩ := val_eq_zero_of_ite h rfl
  simp only [inodeRefSizeAt, ← Nat.add_assoc]
  exact ⟨Nat.le_of_not_lt hfit, h⟩

/-- A loop from `ptr` that ends in `0` has run over records that lie back to
back up to the item's end. -/
theorem checkInodeRefLoop_tile {end_ : Nat} :
    ∀ (n ptr : Nat), end_ - ptr ≤ n → ptr ≤ end_ → (checkInodeRefLoop F leaf slot ptr end_).val = 0 →
      ∃ rs, RecordsTile (inodeRefSizeAt F leaf) (fun _ => True) ptr rs end_
  | 0, ptr, hn, hptr, _ => ⟨[], by show ptr = end_; omega⟩
  | n + 1, ptr, hn, hptr, h => by
    by_cases hlt : ptr < end_
    · obtain ⟨hfit, hnext⟩ := checkInodeRefLoop_step hlt h
      have hpos : 0 < inodeRefSizeAt F leaf ptr := by
        have := F.inodeRefSize_pos
        unfold inodeRefSizeAt
        omega
      obtain ⟨rs, hrs⟩ := checkInodeRefLoop_tile n _ (by omega) hfit hnext
      exact ⟨ptr :: rs, rfl, trivial, hrs⟩
    · exact ⟨[], by show ptr = end_; omega⟩

/-- Conversely, a record that fits hands the loop on to the next one. -/
theorem checkInodeRefLoop_of_fits {ptr end_ : Nat} (hlt : ptr < end_)
    (hptr : ptr + pointerSize ≤ end_) (hfit : ptr + inodeRefSizeAt F leaf ptr ≤ end_) :
    (checkInodeRefLoop F leaf slot ptr end_).val =
      (checkInodeRefLoop F leaf slot (ptr + inodeRefSizeAt F leaf ptr) end_).val := by
  unfold inodeRefSizeAt at hfit ⊢
  rw [checkInodeRefLoop, if_pos hlt]
  simp only [CheckM.bind_val, CheckM.pure_val, val_ite_of_not (Nat.not_lt.2 hptr), Nat.add_assoc,
    val_ite_of_not (Nat.not_lt.2 hfit)]

theorem checkInodeRefLoop_of_ge {ptr end_ : Nat} (h : ¬ptr < end_) :
    (checkInodeRefLoop F leaf slot ptr end_).val = 0 := by
  rw [checkInodeRefLoop, if_neg h]
  rfl

/-- An item whose key passes `check_prev_ino` and that is longer than one
record header is accepted exactly when the loop over its records is. -/
theorem checkInodeRef_val {key prevKey : Key}
    (hprev : (checkPrevIno F leaf key slot prevKey).val = true)
    (hsize : F.inodeRefSize < (itemSizeNr F leaf slot).val) :
    (checkInodeRef F leaf key prevKey slot).val =
      (checkInodeRefLoop F leaf slot (itemPtrOffset F leaf slot).val
        ((itemPtrOffset F leaf slot).val + (itemSizeNr F leaf slot).val)).val := by
  simp [checkInodeRef, hprev, Nat.not_le.2 hsize]

/-- An accepted inode ref item is a sequence of at least one record that fills
its data exactly. -/
theorem checkInodeRef_tile {key prevKey : Key} (h : (checkInodeRef F leaf key prevKey slot).val = 0) :
    ∃ rs, rs ≠ [] ∧ RecordsTile (inodeRefSizeAt F leaf) (fun _ => True)
      (itemPtrOffset F leaf slot).val rs
      ((itemPtrOffset F leaf slot).val + (itemSizeNr F leaf slot).val) := by
  simp only [checkInodeRef, CheckM.bind_val] at h
  obtain ⟨-, h⟩ := val_eq_zero_of_ite h rfl
  simp only [CheckM.bind_val, CheckM.pure_val] at h
  obtain ⟨hsize, h⟩ := val_eq_zero_of_ite h rfl
  simp only [CheckM.bind_val, CheckM.pure_val] at h
  obtain ⟨rs, hrs⟩ := checkInodeRefLoop_tile _ _ le_rfl (Nat.le_add_right _ _) h
  refine ⟨rs, ?_, hrs⟩
  rintro rfl
  have hend : (itemPtrOffset F leaf slot).val =
      (itemPtrOffset F leaf slot).val + (itemSizeNr F leaf slot).val := hrs
  have : F.inodeRefSize < (itemSizeNr F leaf slot).val := Nat.lt_of_not_le hsize
  omega

end InodeRef

/-! ## Inode ref items fill their data -/

/-- For every inode ref item `check_inode_ref` accepts: it is a sequence of
at least one record, each `sizeof(struct apfs_inode_ref)` bytes and its name,
starting where the one before ends, and their sizes add up to the item's
size. -/
theorem check_inode_ref_fills_payload {leaf : ExtentBuffer} {key prevKey : Key} {slot : Nat}
    (h : (checkInodeRef F leaf key prevKey slot).val = 0) :
    ∃ rs, rs ≠ [] ∧ RecordsTile (inodeRefSizeAt F leaf) (fun _ => True)
        (itemPtrOffset F leaf slot).val rs
        ((itemPtrOffset F leaf slot).val + (itemSizeNr F leaf slot).val) ∧
      (rs.map (inodeRefSizeAt F leaf)).sum = (itemSizeNr F leaf slot).val := by
  obtain ⟨rs, hne, hrs⟩ := checkInodeRef_tile h
  have := hrs.sum_size
  exact ⟨rs, hne, hrs, by omega⟩

/-- A leaf whose one item, keyed `(257, INODE_REF, 256)`, holds the record
naming inode 257 "a" in directory 256. -/
def inodeRefLeaf : ExtentBuffer :=
  ExtentBuffer.ofFields packedFormat.page 0 4096
    [(96, 4, 1), (101, 8, 257), (109, 1, 12), (110, 8, 256), (118, 4, 3984), (122, 4, 11),
      (4093, 2, 1), (4095, 1, 97)]

theorem inodeRefLeaf_accepted :
    (checkInodeRef packedFormat inodeRefLeaf ⟨257, 12, 256⟩ Key.zero 0).val = 0 := by
  rw [checkInodeRef_val, checkInodeRefLoop_of_fits, checkInodeRefLoop_of_ge]
  all_goals decide

theorem check_inode_ref_fills_payload_sample :
    ∃ rs, rs ≠ [] ∧ RecordsTile (inodeRefSizeAt packedFormat inodeRefLeaf) (fun _ => True)
        (itemPtrOffset packedFormat inodeRefLeaf 0).val rs
        ((itemPtrOffset packedFormat inodeRefLeaf 0).val +
          (itemSizeNr packedFormat inodeRefLeaf 0).val) ∧
      (rs.map (inodeRefSizeAt packedFormat inodeRefLeaf)).sum =
        (itemSizeNr packedFormat inodeRefLeaf 0).val :=
  check_inode_ref_fills_payload inodeRefLeaf_accepted

/-- A leaf whose one item, keyed `(256, DIR_ITEM, 97)`, holds the entry named
"a" for inode 257. -/
def dirItemLeaf : ExtentBuffer :=
  ExtentBuffer.ofFields packedFormat.page 0 4096
    [(96, 4, 1), (101, 8, 256), (109, 1, 84), (110, 8, 97), (118, 4, 3964), (122, 4, 31),
      (4065, 8, 257), (4073, 1, 1), (4092, 2, 1), (4094, 1, 1), (4095, 1, 97)]

theorem dirItemLeaf_accepted :
    (checkDirItem packedFs dirItemLeaf ⟨256, 84, 97⟩ Key.zero 0).val = 0 := by
  rw [checkDirItem_val, checkDirItemLoop_of_valid, checkDirItemLoop_of_ge]
  all_goals first
    | decide
    | exact ⟨by decide, by decide, by decide, by decide, by decide, by decide, by decide⟩

/-! ## Location keys of xattr entries -/

/-- A leaf whose one item, keyed `(257, XATTR_ITEM, 97)`, holds one xattr
entry named "a" with the one-byte value "b", whose location key is
`(FS_TREE, ROOT_ITEM, 0)`. -/
def xattrRootLocationLeaf : ExtentBuffer :=
  ExtentBuffer.ofFields packedFormat.page 0 4096
    [(96, 4, 1), (101, 8, 257), (109, 1, 24), (110, 8, 97), (118, 4, 3963), (122, 4, 32),
      (4064, 8, 5), (4072, 1, 132), (4089, 2, 1), (4091, 2, 1), (4093, 1, 8), (4094, 1, 97),
      (4095, 1, 98)]

/-- The xattr entry's location key has the type of a root item, so
`check_dir_item` checks it with `check_root_key`, which accepts the file
system tree's id, and never with `check_inode_key`, whose rule for xattr
items is that the location key is zero: the item is accepted with a nonzero
location key. -/
theorem check_dir_item_accepts_xattr_with_root_location :
    (itemKeyToCpu packedFormat xattrRootLocationLeaf 0).val = ⟨257, packedFormat.xattrItemKey, 97⟩ ∧
      (checkDirItem packedFs xattrRootLocationLeaf ⟨257, packedFormat.xattrItemKey, 97⟩ Key.zero
        0).val = 0 ∧
      (itemPtrOffset packedFormat xattrRootLocationLeaf 0).val = 4064 ∧
      (dirEntryAt packedFormat xattrRootLocationLeaf 4064).location = ⟨5, 132, 0⟩ := by
  refine ⟨by decide, ?_, by decide, by decide⟩
  rw [checkDirItem_val, checkDirItemLoop_of_valid, checkDirItemLoop_of_ge]
  all_goals first
    | decide
    | exact ⟨by decide, by decide, by decide, by decide, by decide, by decide, by decide⟩

/-! ## Inline refs of extent items -/

/-- The type byte of the inline ref at `ptr`. -/
def inlineTypeAt (F : Format) (leaf : ExtentBuffer) (ptr : Nat) : Nat :=
  (readMember F leaf ptr F.irType).val

/-- The bytes the inline ref at `ptr` occupies, `apfs_extent_inline_ref_size`
of its type. -/
def inlineRefSizeAt (F : Format) (leaf : ExtentBuffer) (ptr : Nat) : Nat :=
  F.inlineRefSize (inlineTypeAt F leaf ptr)

/-- The references the inline ref at `ptr` counts, as the `switch` of
`check_extent_item` adds them up: one for a block ref, the count of an
`apfs_extent_data_ref` or an `apfs_shared_data_ref`. -/
def inlineRefCountAt (F : Format) (leaf : ExtentBuffer) (ptr : Nat) : Nat :=
  let t := inlineTypeAt F leaf ptr
  if t = F.treeBlockRefKey then 1
  else if t = F.sharedBlockRefKey then 1
  else if t = F.extentDataRefKey then (readMember F leaf (ptr + F.irOffset.off) F.edrCount).val
  else if t = F.sharedDataRefKey then (readMember F leaf (ptr + F.extentInlineRefSize) F.sdrCount).val
  else 0

/-- The four inline ref types. -/
def IsInlineRefType (F : Format) (t : Nat) : Prop :=
  t = F.treeBlockRefKey ∨ t = F.sharedBlockRefKey ∨ t = F.extentDataRefKey ∨ t = F.sharedDataRefKey

instance (F : Format) (t : Nat) : Decidable (IsInlineRefType F t) :=
  inferInstanceAs (Decidable (_ ∨ _ ∨ _ ∨ _))

/-- An inline ref the loop lets through: its header and its whole record lie
inside the item, its type is one of the four, and the offsets the loop checks
for the types that hold one are aligned to the sector size. -/
structure InlineRefPasses (fs : FsInfo F) (leaf : ExtentBuffer) (end_ ptr : Nat) : Prop where
  header_fits : ptr + F.extentInlineRefSize ≤ end_
  fits : ptr + inlineRefSizeAt F leaf ptr ≤ end_
  known : IsInlineRefType F (inlineTypeAt F leaf ptr)
  shared_block_aligned : inlineTypeAt F leaf ptr = F.sharedBlockRefKey →
    isAligned (readMember F leaf ptr F.irOffset).val fs.sectorsize = true
  data_aligned : inlineTypeAt F leaf ptr = F.extentDataRefKey →
    isAligned (readMember F leaf (ptr + F.irOffset.off) F.edrOffset).val fs.sectorsize = true
  shared_data_aligned : inlineTypeAt F leaf ptr = F.sharedDataRefKey →
    isAligned (readMember F leaf ptr F.irOffset).val fs.sectorsize = true

section InlineRefs

variable {fs : FsInfo F} {leaf : ExtentBuffer} {slot end_ : Nat}

/-- One pass of the inline-ref loop either fails with `-EUCLEAN` or finds an
inline ref of a known type under the cursor, inside the item, counts it and
goes on after it. -/
theorem extentInlineRefsLoop_step {ptr acc : Nat} {r : Except Int (Nat × Nat)} (hlt : ptr < end_)
    (h : (extentInlineRefsLoop fs leaf slot end_ ptr acc).val = r) :
    r = .error (-EUCLEAN) ∨
      IsInlineRefType F (inlineTypeAt F leaf ptr) ∧ ptr + inlineRefSizeAt F leaf ptr ≤ end_ ∧
        (extentInlineRefsLoop fs leaf slot end_ (ptr + inlineRefSizeAt F leaf ptr)
          ((acc + inlineRefCountAt F leaf ptr) % 2 ^ 64)).val = r := by
  rw [extentInlineRefsLoop, if_pos hlt] at h
  simp only [CheckM.bind_val] at h
  rcases val_of_ite_error h rfl with hr | ⟨-, h⟩
  · exact .inl hr
  simp only [CheckM.bind_val, CheckM.pure_val] at h
  rcases val_of_ite_error h rfl with hr | ⟨hfit, h⟩
  · exact .inl hr
  simp only [CheckM.bind_val, CheckM.pure_val] at h
  replace hfit := Nat.le_of_not_lt hfit
  unfold IsInlineRefType inlineRefSizeAt inlineRefCountAt inlineTypeAt
  by_cases h1 : (readMember F leaf ptr F.irType).val = F.treeBlockRefKey
  · rw [if_pos h1] at h
    rw [if_pos h1]
    exact .inr ⟨.inl h1, hfit, h⟩
  rw [if_neg h1] at h
  rw [if_neg h1]
  by_cases h2 : (readMember F leaf ptr F.irType).val = F.sharedBlockRefKey
  · rw [if_pos h2] at h
    rw [if_pos h2]
    rcases val_of_ite_error h rfl with hr | ⟨-, h⟩
    · exact .inl hr
    · exact .inr ⟨.inr (.inl h2), hfit, h⟩
  rw [if_neg h2] at h
  rw [if_neg h2]
  by_cases h3 : (readMember F leaf ptr F.irType).val = F.extentDataRefKey
  · rw [if_pos h3] at h
    rw [if_pos h3]
    simp only [CheckM.bind_val] at h
    rcases val_of_ite_error h rfl with hr | ⟨-, h⟩
    · exact .inl hr
    simp only [CheckM.bind_val, CheckM.pure_val] at h
    exact .inr ⟨.inr (.inr (.inl h3)), hfit, h⟩
  rw [if_neg h3] at h
  rw [if_neg h3]
  by_cases h4 : (readMember F leaf ptr F.irType).val = F.sharedDataRefKey
  · rw [if_pos h4] at h
    rw [if_pos h4]
    rcases val_of_ite_error h rfl with hr | ⟨-, h⟩
    · exact .inl hr
    simp only [CheckM.bind_val, CheckM.pure_val] at h
    exact .inr ⟨.inr (.inr (.inr h4)), hfit, h⟩
  rw [if_neg h4] at h
  exact .inl h.symm

/-- The loop stops at the item's end with the count it has. -/
theorem extentInlineRefsLoop_of_ge {ptr acc : Nat} (hge : ¬ptr < end_) :
    (extentInlineRefsLoop fs leaf slot end_ ptr acc).val = .ok (ptr, acc) := by
  rw [extentInlineRefsLoop, if_neg hge]
  rfl

/-- Every error the inline-ref loop returns is `-EUCLEAN`. -/
theorem extentInlineRefsLoop_error :
    ∀ (k ptr acc : Nat) (e : Int), end_ - ptr ≤ k →
      (extentInlineRefsLoop fs leaf slot end_ ptr acc).val = .error e → e = -EUCLEAN
  | 0, ptr, acc, e, hk, h => nomatch (extentInlineRefsLoop_of_ge (by omega)).symm.trans h
  | k + 1, ptr, acc, e, hk, h => by
    by_cases hlt : ptr < end_
    · rcases extentInlineRefsLoop_step hlt h with he | ⟨htype, -, hnext⟩
      · exact Except.error.inj he
      · have hpos : 0 < inlineRefSizeAt F leaf ptr := F.inlineRefSize_pos _ htype
        exact extentInlineRefsLoop_error k _ _ e (by omega) hnext
    · exact nomatch (extentInlineRefsLoop_of_ge hlt).symm.trans h

/-- A loop from `ptr` with a count below `2 ^ 64` that stops at `p` with
count `n` has run over inline refs of known types that lie back to back from
`ptr` to `p`, and `n` is the `u64` sum of what they count. -/
theorem extentInlineRefsLoop_tile :
    ∀ (k ptr acc p n : Nat), end_ - ptr ≤ k → acc < 2 ^ 64 →
      (extentInlineRefsLoop fs leaf slot end_ ptr acc).val = .ok (p, n) →
      ∃ rs, RecordsTile (inlineRefSizeAt F leaf) (fun r => IsInlineRefType F (inlineTypeAt F leaf r))
          ptr rs p ∧
        n = (acc + (rs.map (inlineRefCountAt F leaf)).sum) % 2 ^ 64
  | k, ptr, acc, p, n, hk, hacc, h => by
    by_cases hlt : ptr < end_
    · obtain he | ⟨htype, hfit, hnext⟩ := extentInlineRefsLoop_step hlt h
      · cases he
      have hpos : 0 < inlineRefSizeAt F leaf ptr := F.inlineRefSize_pos _ htype
      match k, hk with
      | 0, hk => exact absurd hk (by omega)
      | k + 1, hk =>
        obtain ⟨rs, hrs, hn⟩ :=
          extentInlineRefsLoop_tile k _ _ _ _ (by omega) (Nat.mod_lt _ (by decide)) hnext
        refine ⟨ptr :: rs, ⟨rfl, htype, hrs⟩, ?_⟩
        rw [hn, List.map_cons, List.sum_cons, Nat.mod_add_mod, Nat.add_assoc]
    · obtain ⟨rfl, rfl⟩ : ptr = p ∧ acc = n := by
        simpa using (extentInlineRefsLoop_of_ge hlt).symm.trans h
      exact ⟨[], rfl, by rw [List.map_nil, List.sum_nil, Nat.add_zero, Nat.mod_eq_of_lt hacc]⟩

/-- The loop goes past every inline ref that passes, counting it. -/
theorem extentInlineRefsLoop_of_passes {ptr acc : Nat} (hlt : ptr < end_)
    (hp : InlineRefPasses fs leaf end_ ptr) :
    (extentInlineRefsLoop fs leaf slot end_ ptr acc).val =
      (extentInlineRefsLoop fs leaf slot end_ (ptr + inlineRefSizeAt F leaf ptr)
        ((acc + inlineRefCountAt F leaf ptr) % 2 ^ 64)).val := by
  obtain ⟨hhead, hfit, hknown, hsb, hedr, hsdr⟩ := hp
  unfold IsInlineRefType inlineRefSizeAt inlineRefCountAt inlineTypeAt at *
  rw [extentInlineRefsLoop, if_pos hlt]
  simp only [CheckM.bind_val, CheckM.pure_val, val_ite_of_not (Nat.not_lt.2 hhead),
    val_ite_of_not (Nat.not_lt.2 hfit)]
  by_cases h1 : (readMember F leaf ptr F.irType).val = F.treeBlockRefKey
  · rw [if_pos h1, if_pos h1]
  rw [if_neg h1, if_neg h1]
  by_cases h2 : (readMember F leaf ptr F.irType).val = F.sharedBlockRefKey
  · rw [if_pos h2, if_pos h2, val_ite_of_not (not_not_eq_true (hsb h2))]
    rfl
  rw [if_neg h2, if_neg h2]
  by_cases h3 : (readMember F leaf ptr F.irType).val = F.extentDataRefKey
  · rw [if_pos h3, if_pos h3]
    simp only [CheckM.bind_val, val_ite_of_not (not_not_eq_true (hedr h3))]
  rw [if_neg h3, if_neg h3]
  have h4 := ((hknown.resolve_left h1).resolve_left h2).resolve_left h3
  rw [if_pos h4, if_pos h4, val_ite_of_not (not_not_eq_true (hsdr h4))]
  rfl

end InlineRefs

/-! ## Extent items -/

/-- A member of a struct loaded from the buffer is below `2 ^ (8 * width)`. -/
theorem readMember_val_lt (F : Format) (eb : ExtentBuffer) (base : Nat) (m : Member) :
    (readMember F eb base m).val < 2 ^ (8 * m.width.size) :=
  leValue_lt_two_pow (length_byteRange _ _ _).le

/-- Of the two low bits of `flags`, exactly one is set when the masked flags
have a single bit set. -/
theorem single_flag_iff {flags d t : Nat} (hd : d = 1) (ht : t = 2)
    (h : hasSingleBitSet (flags &&& (d ||| t)) = true) : (flags &&& d ≠ 0 ↔ ¬flags &&& t ≠ 0) := by
  subst hd ht
  rw [show flags &&& 1 = (flags &&& (1 ||| 2)) &&& 1 by rw [Nat.and_assoc]; rfl,
    show flags &&& 2 = (flags &&& (1 ||| 2)) &&& 2 by rw [Nat.and_assoc]; rfl]
  have hx : flags &&& (1 ||| 2) ≤ 3 := Nat.and_le_right
  generalize flags &&& (1 ||| 2) = x at hx h ⊢
  obtain rfl | rfl | rfl | rfl : x = 0 ∨ x = 1 ∨ x = 2 ∨ x = 3 := by omega
  all_goals revert h; decide

section ExtentItem

variable {fs : FsInfo F} {leaf : ExtentBuffer} {slot : Nat}

/-- The end of `check_extent_item` after a loop that stopped: it accepts only
if the loop stopped at the item's end, having counted at most `refs`. -/
theorem extentItem_tail {S E refs stop n : Nat} {x y : CheckM Int}
    (hloop : (extentInlineRefsLoop fs leaf slot E S 0).val = .ok (stop, n))
    (h : (if stop ≠ E then x else pure PUnit.unit >>= fun _ =>
      if n > refs then y else pure PUnit.unit >>= fun _ => pure 0).val = 0)
    (hx : x.val = -EUCLEAN) (hy : y.val = -EUCLEAN) :
    ∃ n, (extentInlineRefsLoop fs leaf slot E S 0).val = .ok (E, n) ∧ n ≤ refs := by
  obtain ⟨hstop, h⟩ := val_eq_zero_of_ite h hx
  obtain ⟨hn, -⟩ := val_eq_zero_of_ite h hy
  exact ⟨n, not_not.1 hstop ▸ hloop, Nat.le_of_not_lt hn⟩

/-- The tail of `check_extent_item` after an inline-ref loop that failed:
its error, `-EUCLEAN`, is not acceptance. -/
theorem extentItem_tail_error {S E : Nat} {ret : Int}
    (hloop : (extentInlineRefsLoop fs leaf slot E S 0).val = .error ret)
    (h : (pure ret : CheckM Int).val = 0) : False := by
  have := extentInlineRefsLoop_error _ S 0 ret le_rfl hloop
  rw [CheckM.pure_val] at h
  rw [h] at this
  exact absurd this (by decide)

/-- What `check_extent_item` checks, in the code's terms, with the item's
offset, size, flags, reference count and generation read as the code reads
them: the key against the features and the sector size, the header, the
single-flag test, the key checks of the extent's kind, the level in the tree
block info, and an inline-ref loop from after the header that stops at the
item's end having counted at most the extent's references. -/
structure ExtentItemPasses (fs : FsInfo F) (leaf : ExtentBuffer) (key : Key) (slot : Nat) :
    Prop where
  skinny_enabled : key.type = F.metadataItemKey →
    fs.incompatFlags &&& F.featureIncompatSkinnyMetadata ≠ 0
  objectid_aligned : isAligned key.objectid fs.sectorsize = true
  level_lt : key.type = F.metadataItemKey → key.offset < F.maxLevel
  size_ge : F.extentItemSize ≤ (itemSizeNr F leaf slot).val
  generation_le : (readMember F leaf (itemPtrOffset F leaf slot).val F.eiGeneration).val ≤
    (fs.superGeneration + 1) % 2 ^ 64
  single_flag : hasSingleBitSet ((readMember F leaf (itemPtrOffset F leaf slot).val F.eiFlags).val &&&
    (F.extentFlagData ||| F.extentFlagTreeBlock)) = true
  tree_length : (readMember F leaf (itemPtrOffset F leaf slot).val F.eiFlags).val &&&
    F.extentFlagTreeBlock ≠ 0 → key.type = F.extentItemKey → key.offset = fs.nodesize
  data_key : (readMember F leaf (itemPtrOffset F leaf slot).val F.eiFlags).val &&&
    F.extentFlagTreeBlock = 0 → key.type = F.extentItemKey ∧
      isAligned key.offset fs.sectorsize = true ∧
      (readMember F leaf (itemPtrOffset F leaf slot).val F.eiFlags).val &&&
        F.blockFlagFullBackref = 0
  info_level : (readMember F leaf (itemPtrOffset F leaf slot).val F.eiFlags).val &&&
    F.extentFlagTreeBlock ≠ 0 → key.type ≠ F.metadataItemKey →
      (readMember F leaf ((itemPtrOffset F leaf slot).val + F.extentItemSize) F.tbiLevel).val <
        F.maxLevel
  refs_fill : ∃ n, (extentInlineRefsLoop fs leaf slot
      ((itemSizeNr F leaf slot).val + (itemPtrOffset F leaf slot).val)
      ((itemPtrOffset F leaf slot).val + F.extentItemSize +
        if (readMember F leaf (itemPtrOffset F leaf slot).val F.eiFlags).val &&&
            F.extentFlagTreeBlock ≠ 0 ∧ key.type ≠ F.metadataItemKey then
          F.treeBlockInfoSize else 0) 0).val =
        .ok ((itemSizeNr F leaf slot).val + (itemPtrOffset F leaf slot).val, n) ∧
    n ≤ (readMember F leaf (itemPtrOffset F leaf slot).val F.eiRefs).val

/-- An accepted extent item passed every check. -/
theorem checkExtentItem_passes {key : Key} (h : (checkExtentItem fs leaf key slot).val = 0) :
    ExtentItemPasses fs leaf key slot := by
  simp only [checkExtentItem, CheckM.bind_val] at h
  obtain ⟨hskinny, h⟩ := val_eq_zero_of_ite h rfl
  simp only [CheckM.bind_val, CheckM.pure_val] at h
  obtain ⟨hobj, h⟩ := val_eq_zero_of_ite h rfl
  simp only [CheckM.bind_val, CheckM.pure_val] at h
  obtain ⟨hlevel, h⟩ := val_eq_zero_of_ite h rfl
  simp only [CheckM.bind_val, CheckM.pure_val] at h
  obtain ⟨hmin, h⟩ := val_eq_zero_of_ite h rfl
  simp only [CheckM.bind_val, CheckM.pure_val] at h
  obtain ⟨hgen, h⟩ := val_eq_zero_of_ite h rfl
  simp only [CheckM.bind_val, CheckM.pure_val] at h
  obtain ⟨hflag, h⟩ := val_eq_zero_of_ite h rfl
  simp only [CheckM.bind_val, CheckM.pure_val] at h
  have passes := ExtentItemPasses.mk (fun hm hz => hskinny ⟨hm, hz⟩) (by simpa using hobj)
    (fun hm => Nat.lt_of_not_le fun hge => hlevel ⟨hm, hge⟩) (Nat.le_of_not_lt hmin)
    (Nat.le_of_not_lt hgen) (by simpa using hflag)
  by_cases htree : (readMember F leaf (itemPtrOffset F leaf slot).val F.eiFlags).val &&&
      F.extentFlagTreeBlock ≠ 0
  · rw [if_pos htree] at h
    obtain ⟨hlen, h⟩ := val_eq_zero_of_ite h rfl
    simp only [CheckM.bind_val, CheckM.pure_val] at h
    have passes := passes (fun _ ht => not_not.1 (not_and.1 hlen ht)) (fun h0 => absurd h0 htree)
    by_cases hmeta : key.type = F.metadataItemKey
    · rw [if_neg (fun h' => h'.2 hmeta)] at h
      refine passes (fun _ h' => absurd hmeta h') ?_
      rw [if_neg (fun h' => h'.2 hmeta)]
      simp only [CheckM.bind_val, CheckM.pure_val, Nat.add_zero] at h ⊢
      split at h
      · exact (extentItem_tail_error ‹_› h).elim
      · exact extentItem_tail ‹_› h rfl rfl
    · rw [if_pos ⟨htree, hmeta⟩] at h
      simp only [CheckM.bind_val] at h
      obtain ⟨hinfo, h⟩ := val_eq_zero_of_ite h rfl
      refine passes (fun _ _ => Nat.lt_of_not_le hinfo) ?_
      rw [if_pos ⟨htree, hmeta⟩]
      simp only [CheckM.bind_val, CheckM.pure_val] at h
      split at h
      · exact (extentItem_tail_error ‹_› h).elim
      · exact extentItem_tail ‹_› h rfl rfl
  · rw [if_neg htree] at h
    obtain ⟨htype, h⟩ := val_eq_zero_of_ite h rfl
    simp only [CheckM.bind_val, CheckM.pure_val] at h
    obtain ⟨haligned, h⟩ := val_eq_zero_of_ite h rfl
    simp only [CheckM.bind_val, CheckM.pure_val] at h
    obtain ⟨hbackref, h⟩ := val_eq_zero_of_ite h rfl
    simp only [CheckM.bind_val, CheckM.pure_val] at h
    refine passes (fun h0 => absurd h0 htree) (fun _ => ⟨not_not.1 htype, by simpa using haligned,
      not_not.1 hbackref⟩) (fun h0 => absurd h0 htree) ?_
    rw [if_neg (fun h' => htree h'.1)] at h ⊢
    simp only [CheckM.bind_val, CheckM.pure_val, Nat.add_zero] at h ⊢
    split at h
    · exact (extentItem_tail_error ‹_› h).elim
    · exact extentItem_tail ‹_› h rfl rfl

/-- The end of `check_extent_item` after a loop that stopped at the item's
end with at most `refs` references accepts. -/
theorem extentItem_tail_of_le {E n refs : Nat} {x y : CheckM Int} (hn : n ≤ refs) :
    (if E ≠ E then x else pure PUnit.unit >>= fun _ =>
      if n > refs then y else pure PUnit.unit >>= fun _ => pure 0).val = 0 := by
  rw [if_neg (not_not.2 rfl)]
  simp only [CheckM.bind_val, CheckM.pure_val, if_neg (Nat.not_lt.2 hn)]

/-- An extent item that passes every check is accepted. -/
theorem checkExtentItem_of_passes {key : Key} (hp : ExtentItemPasses fs leaf key slot) :
    (checkExtentItem fs leaf key slot).val = 0 := by
  obtain ⟨hskinny, hobj, hlevel, hmin, hgen, hflag, hlen, hdata, hinfo, n, hloop, hn⟩ := hp
  have h1 : ¬(key.type = F.metadataItemKey ∧
      fs.incompatFlags &&& F.featureIncompatSkinnyMetadata = 0) := fun h => hskinny h.1 h.2
  have h2 : ¬(!isAligned key.objectid fs.sectorsize) = true := by simpa using hobj
  have h3 : ¬(key.type = F.metadataItemKey ∧ key.offset ≥ F.maxLevel) :=
    fun h => Nat.not_le.2 (hlevel h.1) h.2
  have h6 : ¬(!hasSingleBitSet ((readMember F leaf (itemPtrOffset F leaf slot).val F.eiFlags).val &&&
      (F.extentFlagData ||| F.extentFlagTreeBlock))) = true := by simpa using hflag
  simp only [checkExtentItem, CheckM.bind_val, CheckM.pure_val, val_ite_of_not h1,
    val_ite_of_not h2, val_ite_of_not h3, val_ite_of_not (Nat.not_lt.2 hmin),
    val_ite_of_not (Nat.not_lt.2 hgen), val_ite_of_not h6]
  by_cases htree : (readMember F leaf (itemPtrOffset F leaf slot).val F.eiFlags).val &&&
      F.extentFlagTreeBlock ≠ 0
  · rw [if_pos htree, val_ite_of_not fun h => h.2 (hlen htree h.1)]
    by_cases hmeta : key.type = F.metadataItemKey
    · rw [if_neg (fun h' => h'.2 hmeta)] at hloop
      rw [if_neg (fun h' => h'.2 hmeta)]
      simp only [CheckM.bind_val, CheckM.pure_val, Nat.add_zero] at hloop ⊢
      rw [hloop]
      exact extentItem_tail_of_le hn
    · rw [if_pos ⟨htree, hmeta⟩] at hloop
      rw [if_pos ⟨htree, hmeta⟩]
      simp only [CheckM.bind_val, CheckM.pure_val,
        val_ite_of_not (Nat.not_le.2 (hinfo htree hmeta))]
      rw [hloop]
      exact extentItem_tail_of_le hn
  · obtain ⟨htype, haligned, hbackref⟩ := hdata (not_not.1 htree)
    have h7 : ¬(!isAligned key.offset fs.sectorsize) = true := by simpa using haligned
    rw [if_neg htree]
    simp only [CheckM.bind_val, CheckM.pure_val, val_ite_of_not (not_not.2 htype),
      val_ite_of_not h7, val_ite_of_not (not_not.2 hbackref)]
    rw [if_neg (fun h' => htree h'.1)] at hloop
    rw [if_neg (fun h' => htree h'.1)]
    simp only [CheckM.bind_val, CheckM.pure_val, Nat.add_zero] at hloop ⊢
    rw [hloop]
    exact extentItem_tail_of_le hn

end ExtentItem

/-- The constants of `ctree.h` the extent-item law rests on:
`APFS_EXTENT_FLAG_DATA` and `APFS_EXTENT_FLAG_TREE_BLOCK` are the two low
bits, the two extent key types differ, and the counts of the two data refs
are `__le32`. -/
structure ExtentFormatFacts (F : Format) : Prop where
  flagData : F.extentFlagData = 1
  flagTreeBlock : F.extentFlagTreeBlock = 2
  extentItemKey_ne : F.extentItemKey ≠ F.metadataItemKey
  edrCount_le : F.edrCount.width.size ≤ 4
  sdrCount_le : F.sdrCount.width.size ≤ 4

theorem packedFormat_extentFormatFacts : ExtentFormatFacts packedFormat :=
  ⟨rfl, rfl, by decide, by decide, by decide⟩

/-- An inline ref counts fewer than `2 ^ 32` references: one, or a `__le32`
count. -/
theorem inlineRefCountAt_lt (hF : ExtentFormatFacts F) (leaf : ExtentBuffer) (p : Nat) :
    inlineRefCountAt F leaf p < 2 ^ 32 := by
  have hread : ∀ (m : Member) b, m.width.size ≤ 4 → (readMember F leaf b m).val < 2 ^ 32 :=
    fun m b hm => Nat.lt_of_lt_of_le (readMember_val_lt F leaf b m)
      (Nat.pow_le_pow_right (by decide) (by omega))
  dsimp only [inlineRefCountAt]
  split_ifs
  · decide
  · decide
  · exact hread _ _ hF.edrCount_le
  · exact hread _ _ hF.sdrCount_le
  · decide

/-- Inline refs that tile a range of an item, which is below `2 ^ 32` bytes,
count fewer than `2 ^ 64` references, so the `u64` sum of the loop is exact. -/
theorem inlineRefs_sum_lt (hF : ExtentFormatFacts F) {leaf : ExtentBuffer} {p q : Nat}
    {rs : List Nat} (htile : RecordsTile (inlineRefSizeAt F leaf)
      (fun r => IsInlineRefType F (inlineTypeAt F leaf r)) p rs q) (hspan : q - p < 2 ^ 32) :
    (rs.map (inlineRefCountAt F leaf)).sum < 2 ^ 64 := by
  have hcount : ∀ r, IsInlineRefType F (inlineTypeAt F leaf r) →
      inlineRefCountAt F leaf r ≤ (2 ^ 32 - 1) * inlineRefSizeAt F leaf r := fun r hr =>
    calc inlineRefCountAt F leaf r ≤ 2 ^ 32 - 1 := Nat.le_pred_of_lt (inlineRefCountAt_lt hF leaf r)
      _ ≤ (2 ^ 32 - 1) * inlineRefSizeAt F leaf r :=
        Nat.le_mul_of_pos_right _ (F.inlineRefSize_pos _ hr)
  calc (rs.map (inlineRefCountAt F leaf)).sum ≤ (2 ^ 32 - 1) * (q - p) := RecordsTile.sum_le hcount htile
    _ ≤ (2 ^ 32 - 1) * (2 ^ 32 - 1) := Nat.mul_le_mul_left _ (Nat.le_pred_of_lt hspan)
    _ < 2 ^ 64 := by decide

/-- An accepted extent item is the extent item struct, then the tree block
info exactly for a tree block with an `EXTENT_ITEM` key, then inline refs of
the four types back to back to the item's end, which count, in exact
arithmetic, at most the extent's references; exactly one of the data and tree
block flags is set, with the key checks of that kind. -/
theorem check_extent_item_fills_payload (hF : ExtentFormatFacts F) (fs : FsInfo F)
    (leaf : ExtentBuffer) (key : Key) (slot : Nat)
    (hkey : key.type = F.extentItemKey ∨ key.type = F.metadataItemKey)
    (h : (checkExtentItem fs leaf key slot).val = 0) :
    let ei := (itemPtrOffset F leaf slot).val
    let itemSize := (itemSizeNr F leaf slot).val
    let flags := (readMember F leaf ei F.eiFlags).val
    let tree := flags &&& F.extentFlagTreeBlock ≠ 0
    let tbi := if tree ∧ key.type = F.extentItemKey then F.treeBlockInfoSize else 0
    (flags &&& F.extentFlagData ≠ 0 ↔ ¬tree) ∧
      (¬tree → key.type = F.extentItemKey ∧ fs.sectorsize ∣ key.offset ∧
        flags &&& F.blockFlagFullBackref = 0) ∧
      (tree → key.type = F.extentItemKey → key.offset = fs.nodesize) ∧
      ∃ rs, RecordsTile (inlineRefSizeAt F leaf)
          (fun p => IsInlineRefType F (inlineTypeAt F leaf p))
          (ei + F.extentItemSize + tbi) rs (ei + itemSize) ∧
        F.extentItemSize + tbi + (rs.map (inlineRefSizeAt F leaf)).sum = itemSize ∧
        (rs.map (inlineRefCountAt F leaf)).sum ≤ (readMember F leaf ei F.eiRefs).val := by
  dsimp only
  obtain ⟨-, -, -, hmin, -, hflag, hlen, hdata, -, n, hloop, hn⟩ := checkExtentItem_passes h
  have hextent : key.type ≠ F.metadataItemKey ↔ key.type = F.extentItemKey :=
    ⟨hkey.resolve_right, fun he hm => hF.extentItemKey_ne (he ▸ hm)⟩
  simp only [hextent] at hloop
  obtain ⟨rs, htile, hsum⟩ := extentInlineRefsLoop_tile _ _ _ _ _ le_rfl (by decide) hloop
  have hspan := htile.sum_size
  have hsize : (itemSizeNr F leaf slot).val < 2 ^ 32 := leValue_lt_two_pow (length_byteRange _ _ _).le
  rw [Nat.zero_add, Nat.mod_eq_of_lt (inlineRefs_sum_lt hF htile (by omega))] at hsum
  refine ⟨single_flag_iff hF.flagData hF.flagTreeBlock hflag, fun ht => ?_, hlen, rs, ?_, by omega, hsum ▸ hn⟩
  · obtain ⟨htype, haligned, hbackref⟩ := hdata (not_not.1 ht)
    exact ⟨htype, (isAligned_iff fs.sectorsize_pow).1 haligned, hbackref⟩
  · rwa [Nat.add_comm (itemSizeNr F leaf slot).val] at htile

/-- A leaf whose one item, keyed `(4096, EXTENT_ITEM, 4096)`, is a data extent
of one reference at generation 1, held by one `EXTENT_DATA_REF` inline ref
with count 1. -/
def dataExtentLeaf : ExtentBuffer :=
  ExtentBuffer.ofFields packedFormat.page 0 4096
    [(96, 4, 1), (101, 8, 4096), (109, 1, 168), (110, 8, 4096), (118, 4, 3942), (122, 4, 53),
      (4043, 8, 1), (4051, 8, 1), (4059, 8, 1), (4067, 1, 178), (4092, 4, 1)]

theorem dataExtentLeaf_accepted : (checkExtentItem packedFs dataExtentLeaf ⟨4096, 168, 4096⟩ 0).val = 0 := by
  refine checkExtentItem_of_passes ⟨by decide, by decide, by decide, by decide, by decide, by decide,
    by decide, by decide, by decide, 1, ?_, by decide⟩
  show (extentInlineRefsLoop packedFs dataExtentLeaf 0 4096 4067 0).val = .ok (4096, 1)
  rw [extentInlineRefsLoop_of_passes (by decide)
    ⟨by decide, by decide, by decide, by decide, by decide, by decide⟩,
    extentInlineRefsLoop_of_ge (by decide)]
  rfl



/-- The data extent of {lit}`dataExtentLeaf`: it is accepted, and it is one
extent item struct followed by one inline ref. -/
theorem check_extent_item_fills_data_extent :
    ExtentFormatFacts packedFormat ∧
      (168 = packedFormat.extentItemKey ∨ 168 = packedFormat.metadataItemKey) ∧
      (checkExtentItem packedFs dataExtentLeaf ⟨4096, 168, 4096⟩ 0).val = 0 ∧
      let ei := (itemPtrOffset packedFormat dataExtentLeaf 0).val
      let itemSize := (itemSizeNr packedFormat dataExtentLeaf 0).val
      let flags := (readMember packedFormat dataExtentLeaf ei packedFormat.eiFlags).val
      let tree := flags &&& packedFormat.extentFlagTreeBlock ≠ 0
      let tbi := if tree ∧ 168 = packedFormat.extentItemKey then packedFormat.treeBlockInfoSize else 0
      (flags &&& packedFormat.extentFlagData ≠ 0 ↔ ¬tree) ∧
        (¬tree → 168 = packedFormat.extentItemKey ∧ packedFs.sectorsize ∣ 4096 ∧
          flags &&& packedFormat.blockFlagFullBackref = 0) ∧
        (tree → 168 = packedFormat.extentItemKey → 4096 = packedFs.nodesize) ∧
        ∃ rs, RecordsTile (inlineRefSizeAt packedFormat dataExtentLeaf)
            (fun p => IsInlineRefType packedFormat (inlineTypeAt packedFormat dataExtentLeaf p))
            (ei + packedFormat.extentItemSize + tbi) rs (ei + itemSize) ∧
          packedFormat.extentItemSize + tbi +
              (rs.map (inlineRefSizeAt packedFormat dataExtentLeaf)).sum = itemSize ∧
          (rs.map (inlineRefCountAt packedFormat dataExtentLeaf)).sum ≤
            (readMember packedFormat dataExtentLeaf ei packedFormat.eiRefs).val :=
  ⟨packedFormat_extentFormatFacts, .inl rfl, dataExtentLeaf_accepted,
    check_extent_item_fills_payload packedFormat_extentFormatFacts packedFs dataExtentLeaf
      ⟨4096, 168, 4096⟩ 0 (.inl rfl) dataExtentLeaf_accepted⟩

/-! ## Kinds of inline refs -/

/-- A leaf whose one item, keyed `(4096, EXTENT_ITEM, 4096)`, is a data extent
of one reference at generation 1 whose one inline ref is a `TREE_BLOCK_REF`
of root 5. -/
def dataExtentTreeRefLeaf : ExtentBuffer :=
  ExtentBuffer.ofFields packedFormat.page 0 4096
    [(96, 4, 1), (101, 8, 4096), (109, 1, 168), (110, 8, 4096), (118, 4, 3962), (122, 4, 33),
      (4063, 8, 1), (4071, 8, 1), (4079, 8, 1), (4087, 1, 176), (4088, 8, 5)]

/-- The inline-ref loop never reads the extent's flags: a data extent whose
one inline ref is a `TREE_BLOCK_REF`, a kind the format comment of
`check_extent_item` reserves for tree blocks, is accepted. -/
theorem check_extent_item_accepts_tree_block_ref_in_data_extent :
    (checkExtentItem packedFs dataExtentTreeRefLeaf ⟨4096, 168, 4096⟩ 0).val = 0 ∧
      (itemPtrOffset packedFormat dataExtentTreeRefLeaf 0).val = 4063 ∧
      (readMember packedFormat dataExtentTreeRefLeaf 4063 packedFormat.eiFlags).val =
        packedFormat.extentFlagData ∧
      inlineTypeAt packedFormat dataExtentTreeRefLeaf (4063 + packedFormat.extentItemSize) =
        packedFormat.treeBlockRefKey := by
  refine ⟨checkExtentItem_of_passes ⟨by decide, by decide, by decide, by decide, by decide,
    by decide, by decide, by decide, by decide, 1, ?_, by decide⟩, by decide, by decide, by decide⟩
  show (extentInlineRefsLoop packedFs dataExtentTreeRefLeaf 0 4096 4087 0).val = .ok (4096, 1)
  rw [extentInlineRefsLoop_of_passes (by decide)
    ⟨by decide, by decide, by decide, by decide, by decide, by decide⟩,
    extentInlineRefsLoop_of_ge (by decide)]
  rfl

end Apfs
