import Apfs.TreeChecker.Walk
import Apfs.TreeChecker.Extents

/-!
# Item dispatch and the exported checkers

`check_leaf_item` selects the validator for an item's key type.  With it the
leaf walk of {lit}`Apfs.TreeChecker.Walk` becomes the code written in
`check_leaf` below its first statement, {lit}`checkLeafWalk`.

The exported entry points `apfs_check_leaf_full`, `apfs_check_leaf_relaxed`
and `apfs_check_node` run `check_leaf` and the node check, both of which load
the header members of their declarations and then `return 0` before any
check.  The walks stay in the model as the dead code they are.

Main results:

- Theorem {lit}`apfs_check_entries_accept_what_walks_reject`: every exported
  checker returns 0 on every buffer, while the leaf walk rejects every buffer
  whose level is not 0 and the node walk every buffer whose level is 0.
-/

namespace Apfs

variable {F : Format} (fs : FsInfo F)

/-! ## Dispatch -/

/-- `check_leaf_item`: the validator for the key's type; any other type
passes.  `check_dir_item` runs its `u32` loop for one pass per byte of the
item and one more, every pass the loop makes unless a sum `cur + total_size`
wraps at `2 ^ 32` ({lit}`checkDirItemU32_eq`).  A wrap takes an item of almost
`2 ^ 32` bytes, whose entries lie far past any buffer's pages; a loop still
running after that budget stops the walk with `-EUCLEAN`. -/
def checkLeafItem (leaf : ExtentBuffer) (key : Key) (slot : Nat) (prevKey : Key) :
    CheckM Int := do
  if key.type = F.extentDataKey then
    checkExtentDataItem fs leaf key slot prevKey
  else if key.type = F.extentCsumKey then
    checkCsumItem fs leaf key slot prevKey
  else if key.type = F.dirItemKey ∨ key.type = F.dirIndexKey ∨ key.type = F.xattrItemKey then
    let ret ← checkDirItemU32 fs leaf key prevKey slot ((itemSizeNr F leaf slot).val + 1)
    return ret.getD (-EUCLEAN)
  else if key.type = F.inodeRefKey then
    checkInodeRef F leaf key prevKey slot
  else if key.type = F.blockGroupItemKey then
    checkBlockGroupItem F leaf key slot
  else if key.type = F.chunkItemKey then
    let chunk ← itemPtrOffset F leaf slot
    checkLeafChunkItem fs leaf chunk key slot
  else if key.type = F.devItemKey then
    checkDevItem F leaf key slot
  else if key.type = F.inodeItemKey then
    checkInodeItem fs leaf key slot
  else if key.type = F.rootItemKey then
    checkRootItem fs leaf key slot
  else if key.type = F.extentItemKey ∨ key.type = F.metadataItemKey then
    checkExtentItem fs leaf key slot
  else if key.type = F.treeBlockRefKey ∨ key.type = F.sharedDataRefKey ∨
      key.type = F.sharedBlockRefKey then
    checkSimpleKeyedRefs fs leaf key slot
  else if key.type = F.extentDataRefKey then
    checkExtentDataRef fs leaf key slot
  else
    pure 0

/-! ## The checkers -/

/-- The code of `check_leaf` below its `return 0`: the leaf walk with
`check_leaf_item` as the item check. -/
def checkLeafWalk (leaf : ExtentBuffer) (checkItemData : Bool) : CheckM Int :=
  leafWalk fs leaf checkItemData (checkLeafItem fs leaf)

/-- `check_leaf`: it loads `nritems` for its declaration, then returns 0
ahead of the walk. -/
def checkLeaf (leaf : ExtentBuffer) (checkItemData : Bool) : CheckM Int := do
  let _ ← headerNritems F leaf
  if true then
    return 0
  checkLeafWalk fs leaf checkItemData

/-- `apfs_check_leaf_full`. -/
def apfsCheckLeafFull (leaf : ExtentBuffer) : CheckM Int :=
  checkLeaf fs leaf true

/-- `apfs_check_leaf_relaxed`. -/
def apfsCheckLeafRelaxed (leaf : ExtentBuffer) : CheckM Int :=
  checkLeaf fs leaf false

/-- `apfs_check_node`: it loads `nritems` and the level for its declarations,
then returns 0 ahead of the walk. -/
def apfsCheckNode (node : ExtentBuffer) : CheckM Int := do
  let _ ← headerNritems F node
  let _ ← headerLevel F node
  if true then
    return 0
  checkNodeWalk fs node

/-- The exported checkers accept every buffer, although on every buffer one of
the walks they skip rejects: the leaf walk every level but 0, the node walk
level 0. -/
theorem apfs_check_entries_accept_what_walks_reject (eb : ExtentBuffer) :
    (apfsCheckLeafFull fs eb).val = 0 ∧ (apfsCheckLeafRelaxed fs eb).val = 0 ∧
      (apfsCheckNode fs eb).val = 0 ∧
      (levelAt F eb ≠ 0 →
        (checkLeafWalk fs eb true).val = -EUCLEAN ∧ (checkLeafWalk fs eb false).val = -EUCLEAN) ∧
      (levelAt F eb = 0 → (checkNodeWalk fs eb).val = -EUCLEAN) :=
  ⟨rfl, rfl, rfl, fun h => ⟨leafWalk_val_of_level_ne_zero fs eb true _ h,
    leafWalk_val_of_level_ne_zero fs eb false _ h⟩,
    fun h => checkNodeWalk_val_of_level fs eb (.inl (Nat.le_of_eq h))⟩

end Apfs
