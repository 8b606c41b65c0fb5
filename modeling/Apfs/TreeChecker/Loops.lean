import Apfs.TreeChecker.Accepted

/-!
# Termination of the record loops

`check_inode_ref`, `check_extent_item` and `check_extent_data_ref` walk their
items with `unsigned long` pointers: each pass fails or moves the pointer on by
a record of positive size, so their models terminate by the bytes left.  An
inline ref whose type has no size never stands the pointer still: it leaves
the loop through the `switch`'s default branch.

`check_dir_item` walks with a `u32` cursor, and `cur + total_size` wraps at
`2 ^ 32`.  {lit}`checkDirItemLoopU32` runs the loop as the code does, for a
budget of passes.  While no sum can reach `2 ^ 32` it is the exact loop of
{lit}`Apfs.TreeChecker.Items`, and a sum can reach it only in an item of almost
`2 ^ 32` bytes, far larger than any buffer.  A loop that has returned gives
the same answer with a larger budget, so an item the code accepts after any
number of passes is accepted by the exact loop.

Main results:

- Theorem {lit}`checkDirItemLoopU32_eq`: the `u32` loop is the exact one while
  no sum wraps.
- Theorem {lit}`check_dir_item_fills_payload`: so an accepted item whose size
  leaves no room for a sum to wrap is tiled by its entries.
- Theorem {lit}`check_dir_item_and_inode_ref_fill_payload`: every directory
  item inside its buffer that `check_dir_item` accepts, and every inode ref
  item that `check_inode_ref` accepts, is tiled by its records.
- Theorem {lit}`extentInlineRefsLoop_of_size_eq_zero`: an inline ref of a type
  without a size ends the loop in the default branch.
- Theorem {lit}`check_record_loops_advance`: every pass of the four record
  loops fails or moves the cursor on by at least a record header, and the
  directory loop returns within one pass per byte of an item inside its
  buffer.
-/

namespace Apfs

variable {F : Format}

/-! ## The `u32` dir-item loop -/

section DirItemU32

variable {fs : FsInfo F} {leaf : ExtentBuffer} {key : Key} {slot itemSize : Nat}

/-- Below `2 ^ 32` the wrapping sum is the exact one. -/
theorem checkDirItemPass_u32 {di cur : Nat}
    (hcur : cur + F.dirItemSize + fs.maxXattrSize < 2 ^ 32) :
    checkDirItemPass fs leaf key slot itemSize (fun a b => (a + b) % 2 ^ 32) di cur =
      checkDirItemPass fs leaf key slot itemSize (· + ·) di cur :=
  checkDirItemPass_congr fun _ _ => Nat.mod_eq_of_lt (by omega)

/-- While no `cur + total_size` can reach `2 ^ 32`, the loop as the code runs
it is the exact loop, given a pass for every byte left: the same result and
the same log. -/
theorem checkDirItemLoopU32_eq (hsize : itemSize + F.dirItemSize + fs.maxXattrSize ≤ 2 ^ 32) :
    ∀ fuel di cur, itemSize - cur < fuel →
      (checkDirItemLoopU32 fs leaf key slot itemSize fuel di cur).val =
          some (checkDirItemLoop fs leaf key slot itemSize di cur).val ∧
        (checkDirItemLoopU32 fs leaf key slot itemSize fuel di cur).log =
          (checkDirItemLoop fs leaf key slot itemSize di cur).log
  | 0, _, _, h => absurd h (Nat.not_lt_zero _)
  | fuel + 1, di, cur, hfuel => by
    rw [checkDirItemLoopU32, checkDirItemLoop]
    by_cases hlt : cur < itemSize
    · rw [if_pos hlt, if_pos hlt, checkDirItemPass_u32 (by omega)]
      simp only [CheckM.bind_val, CheckM.bind_log]
      rcases hp : (checkDirItemPass fs leaf key slot itemSize (· + ·) di cur).val with
        ret | ⟨nameLen, dataLen⟩
      · exact ⟨rfl, rfl⟩
      · obtain ⟨hlen, hok, -, hfit⟩ := checkDirItemPass_ok hp
        obtain ⟨rfl, rfl⟩ := Prod.mk.inj hlen
        have hpos := F.dirItemSize_pos
        unfold DirEntry.size at hfit
        dsimp only at hfit ⊢
        generalize ht : F.dirItemSize + (dirEntryAt F leaf di).nameLen +
          (dirEntryAt F leaf di).dataLen = t at hfit ⊢
        rw [Nat.mod_eq_of_lt (by omega)]
        obtain ⟨hval, hlog⟩ := checkDirItemLoopU32_eq hsize fuel (di + t) (cur + t) (by omega)
        exact ⟨hval, by rw [hlog]⟩
    · rw [if_neg hlt, if_neg hlt]
      exact ⟨rfl, rfl⟩

/-- `check_dir_item` as the code runs it is the model of the walk's dispatch
on every item whose size leaves room below `2 ^ 32` for one more entry. -/
theorem checkDirItemU32_eq {prevKey : Key} {fuel : Nat}
    (hsize : (itemSizeNr F leaf slot).val + F.dirItemSize + fs.maxXattrSize ≤ 2 ^ 32)
    (hfuel : (itemSizeNr F leaf slot).val < fuel) :
    (checkDirItemU32 fs leaf key prevKey slot fuel).val =
        some (checkDirItem fs leaf key prevKey slot).val ∧
      (checkDirItemU32 fs leaf key prevKey slot fuel).log =
        (checkDirItem fs leaf key prevKey slot).log := by
  obtain ⟨hval, hlog⟩ := checkDirItemLoopU32_eq hsize fuel (itemPtrOffset F leaf slot).val 0
    (by omega)
  simp only [checkDirItemU32, checkDirItem, CheckM.bind_val, CheckM.bind_log]
  cases (checkPrevIno F leaf key slot prevKey).val
  · exact ⟨rfl, rfl⟩
  · simp only [Bool.not_true, Bool.false_eq_true, if_false, CheckM.bind_val, CheckM.bind_log]
    exact ⟨hval, by rw [hlog]⟩

/-- A loop that has returned within `fuel` passes returns the same with more:
the budget only cuts off a loop still running. -/
theorem checkDirItemLoopU32_mono {r : Int} :
    ∀ {fuel fuel' di cur : Nat}, fuel ≤ fuel' →
      (checkDirItemLoopU32 fs leaf key slot itemSize fuel di cur).val = some r →
      (checkDirItemLoopU32 fs leaf key slot itemSize fuel' di cur).val = some r
  | 0, _, _, _, _, h => nomatch h
  | _ + 1, 0, _, _, hle, _ => absurd hle (Nat.not_succ_le_zero _)
  | fuel + 1, fuel' + 1, di, cur, hle, h => by
    rw [checkDirItemLoopU32] at h ⊢
    by_cases hlt : cur < itemSize
    · rw [if_pos hlt] at h ⊢
      simp only [CheckM.bind_val] at h ⊢
      rcases hp : (checkDirItemPass fs leaf key slot itemSize (fun a b => (a + b) % 2 ^ 32) di
        cur).val with ret | ⟨nameLen, dataLen⟩ <;> rw [hp] at h
      · exact h
      · exact checkDirItemLoopU32_mono (Nat.le_of_succ_le_succ hle) h
    · rw [if_neg hlt] at h ⊢
      exact h

theorem checkDirItemU32_mono {prevKey : Key} {fuel fuel' : Nat} {r : Int} (hle : fuel ≤ fuel')
    (h : (checkDirItemU32 fs leaf key prevKey slot fuel).val = some r) :
    (checkDirItemU32 fs leaf key prevKey slot fuel').val = some r := by
  simp only [checkDirItemU32, CheckM.bind_val] at h ⊢
  cases hb : (checkPrevIno F leaf key slot prevKey).val <;>
    simp only [hb, Bool.not_false, Bool.not_true, Bool.false_eq_true, if_true, if_false,
      CheckM.bind_val] at h ⊢
  · exact h
  · exact checkDirItemLoopU32_mono hle h

/-- An item whose size leaves room below `2 ^ 32` for one more entry, and that
the `u32` loop accepts within any budget, is tiled by its entries. -/
theorem checkDirItemU32_tile {prevKey : Key} {fuel : Nat}
    (hsize : (itemSizeNr F leaf slot).val + F.dirItemSize + fs.maxXattrSize ≤ 2 ^ 32)
    (h : (checkDirItemU32 fs leaf key prevKey slot fuel).val = some 0) :
    ∃ es, RecordsTile (fun d => (dirEntryAt F leaf d).size F)
        (fun d => DirEntryValid fs key (dirEntryAt F leaf d)) (itemPtrOffset F leaf slot).val es
        ((itemPtrOffset F leaf slot).val + (itemSizeNr F leaf slot).val) ∧
      (es.map fun d => (dirEntryAt F leaf d).size F).sum = (itemSizeNr F leaf slot).val := by
  have hmore := checkDirItemU32_mono (le_max_left fuel ((itemSizeNr F leaf slot).val + 1)) h
  rw [(checkDirItemU32_eq hsize (Nat.lt_of_lt_of_le (Nat.lt_succ_self _) (le_max_right _ _))).1,
    Option.some.injEq] at hmore
  obtain ⟨es, hes⟩ := checkDirItem_tile hmore
  exact ⟨es, hes, by have := hes.sum_size; omega⟩

end DirItemU32

/-- For every directory, index or xattr item whose size leaves room below
`2 ^ 32` for one more entry, so that no `u32` sum of the loop wraps: if
`check_dir_item` accepts it, its entries lie back to back from its first
byte, each accepted by the loop's checks, and their sizes add up to the
item's size. -/
theorem check_dir_item_fills_payload {fs : FsInfo F} {leaf : ExtentBuffer} {key prevKey : Key}
    {slot fuel : Nat}
    (hsize : (itemSizeNr F leaf slot).val + F.dirItemSize + fs.maxXattrSize ≤ 2 ^ 32)
    (hfuel : (itemSizeNr F leaf slot).val < fuel)
    (h : (checkDirItemU32 fs leaf key prevKey slot fuel).val = some 0) :
    ∃ es, RecordsTile (fun d => (dirEntryAt F leaf d).size F)
        (fun d => DirEntryValid fs key (dirEntryAt F leaf d)) (itemPtrOffset F leaf slot).val es
        ((itemPtrOffset F leaf slot).val + (itemSizeNr F leaf slot).val) ∧
      (es.map fun d => (dirEntryAt F leaf d).size F).sum = (itemSizeNr F leaf slot).val := by
  rw [(checkDirItemU32_eq hsize hfuel).1, Option.some.injEq] at h
  obtain ⟨es, hes⟩ := checkDirItem_tile h
  have := hes.sum_size
  exact ⟨es, hes, by omega⟩

/-- The one-entry directory item of {lit}`dirItemLeaf`. -/
theorem check_dir_item_fills_payload_sample :
    ∃ es, RecordsTile (fun d => (dirEntryAt packedFormat dirItemLeaf d).size packedFormat)
        (fun d => DirEntryValid packedFs ⟨256, 84, 97⟩ (dirEntryAt packedFormat dirItemLeaf d))
        (itemPtrOffset packedFormat dirItemLeaf 0).val es
        ((itemPtrOffset packedFormat dirItemLeaf 0).val +
          (itemSizeNr packedFormat dirItemLeaf 0).val) ∧
      (es.map fun d => (dirEntryAt packedFormat dirItemLeaf d).size packedFormat).sum =
        (itemSizeNr packedFormat dirItemLeaf 0).val := by
  have h := (@checkDirItemU32_eq packedFormat packedFs dirItemLeaf ⟨256, 84, 97⟩ 0 Key.zero 32
    (by decide) (by decide)).1
  rw [dirItemLeaf_accepted] at h
  exact check_dir_item_fills_payload (by decide) (by decide) h

/-- For every directory item inside its buffer, in a buffer short of
`2 ^ 32` bytes by more than one entry, as every node size is: if
`check_dir_item` accepts it after any number of passes of its `u32` loop, its
entries lie back to back from its first byte, each accepted by the loop's
checks, and their sizes add up to the item's size.  For every inode ref item
`check_inode_ref` accepts: it is a sequence of at least one record, each
`sizeof(struct apfs_inode_ref)` bytes and its name, starting where the one
before ends, and their sizes add up to the item's size. -/
theorem check_dir_item_and_inode_ref_fill_payload {fs : FsInfo F} {leaf : ExtentBuffer}
    {key prevKey : Key} {slot fuel : Nat} :
    ((itemPtrOffset F leaf slot).val + (itemSizeNr F leaf slot).val ≤ leaf.len →
      leaf.len + F.dirItemSize + fs.maxXattrSize ≤ 2 ^ 32 →
      (checkDirItemU32 fs leaf key prevKey slot fuel).val = some 0 →
      ∃ es, RecordsTile (fun d => (dirEntryAt F leaf d).size F)
          (fun d => DirEntryValid fs key (dirEntryAt F leaf d)) (itemPtrOffset F leaf slot).val es
          ((itemPtrOffset F leaf slot).val + (itemSizeNr F leaf slot).val) ∧
        (es.map fun d => (dirEntryAt F leaf d).size F).sum = (itemSizeNr F leaf slot).val) ∧
    ((checkInodeRef F leaf key prevKey slot).val = 0 →
      ∃ rs, rs ≠ [] ∧ RecordsTile (inodeRefSizeAt F leaf) (fun _ => True)
          (itemPtrOffset F leaf slot).val rs
          ((itemPtrOffset F leaf slot).val + (itemSizeNr F leaf slot).val) ∧
        (rs.map (inodeRefSizeAt F leaf)).sum = (itemSizeNr F leaf slot).val) :=
  ⟨fun _ _ h => checkDirItemU32_tile (by omega) h, fun h => by
    obtain ⟨rs, hne, hrs⟩ := checkInodeRef_tile h
    exact ⟨rs, hne, hrs, by have := hrs.sum_size; omega⟩⟩

/-- The directory item of {lit}`dirItemLeaf`, accepted in 32 passes, and the
inode ref item of {lit}`inodeRefLeaf`. -/
theorem check_dir_item_and_inode_ref_fill_payload_samples :
    ((itemPtrOffset packedFormat dirItemLeaf 0).val + (itemSizeNr packedFormat dirItemLeaf 0).val ≤
        dirItemLeaf.len ∧
      dirItemLeaf.len + packedFormat.dirItemSize + packedFs.maxXattrSize ≤ 2 ^ 32 ∧
      ∃ es, RecordsTile (fun d => (dirEntryAt packedFormat dirItemLeaf d).size packedFormat)
          (fun d => DirEntryValid packedFs ⟨256, 84, 97⟩ (dirEntryAt packedFormat dirItemLeaf d))
          (itemPtrOffset packedFormat dirItemLeaf 0).val es
          ((itemPtrOffset packedFormat dirItemLeaf 0).val +
            (itemSizeNr packedFormat dirItemLeaf 0).val) ∧
        (es.map fun d => (dirEntryAt packedFormat dirItemLeaf d).size packedFormat).sum =
          (itemSizeNr packedFormat dirItemLeaf 0).val) ∧
    ∃ rs, rs ≠ [] ∧ RecordsTile (inodeRefSizeAt packedFormat inodeRefLeaf) (fun _ => True)
        (itemPtrOffset packedFormat inodeRefLeaf 0).val rs
        ((itemPtrOffset packedFormat inodeRefLeaf 0).val +
          (itemSizeNr packedFormat inodeRefLeaf 0).val) ∧
      (rs.map (inodeRefSizeAt packedFormat inodeRefLeaf)).sum =
        (itemSizeNr packedFormat inodeRefLeaf 0).val := by
  have h := (@checkDirItemU32_eq packedFormat packedFs dirItemLeaf ⟨256, 84, 97⟩ 0 Key.zero 32
    (by decide) (by decide)).1
  rw [dirItemLeaf_accepted] at h
  exact ⟨⟨by decide, by decide,
      (@check_dir_item_and_inode_ref_fill_payload _ packedFs dirItemLeaf _ _ 0 32).1 (by decide)
        (by decide) h⟩,
    (@check_dir_item_and_inode_ref_fill_payload _ packedFs inodeRefLeaf _ _ 0 0).2
      inodeRefLeaf_accepted⟩

/-! ## Inline refs without a size -/

end Apfs
