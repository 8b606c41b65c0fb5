import Apfs.TreeChecker.Leaf
import Apfs.Packed

/-!
# What the walks accept

The relaxed leaf walk checks each slot's key against the previous one and the
slot's data end, summed in `u32`, against the previous slot's data offset.
The node walk checks every key pointer but the last against the next.  Here
these per-slot conditions are lifted to whole blocks.

A {lit}`WellFormedLeaf` has its item data packed back to back from the end of
the data area in exact arithmetic, and a {lit}`WellFormedNode` has increasing
keys and sound child pointers.  Both walks accept every such block.  The
converse fails on two counts for leaves: the `u32` end of an item can wrap to
the expected value, and nothing compares the last item's data with the item
table in front of it.  For nodes, the last child pointer is never examined.

Main results:

- Theorem {lit}`checkLeafWalk_relaxed_eq_zero_iff`: the relaxed walk accepts a
  leaf of level 0 with items exactly when every slot passes.
- Theorem {lit}`check_walks_accept_well_formed`: both walks accept every
  well-formed block.
- Theorem {lit}`check_leaf_walk_packs_unwrapped_items`: a leaf the relaxed
  walk accepts, whose item ends do not wrap, is well formed, with keys
  increasing and item data disjoint across the whole leaf.
- Theorem {lit}`check_leaf_walk_full_is_relaxed_and_items`: the full walk
  accepts exactly what the relaxed walk accepts and every item validator
  passes.
- Theorem {lit}`check_node_walk_sorts_keys`: a node the walk accepts has its
  keys increasing across the whole node and sound child pointers but the last.
- Theorem {lit}`check_node_walk_ignores_last_pointer`: the node walk decides
  without the last child pointer.
- Theorem {lit}`check_leaf_walk_accepts_overlap_and_wrap`: two leaves the walk
  accepts that are not tiled in exact arithmetic.
-/

namespace Apfs

variable {F : Format} (fs : FsInfo F)

/-! ## One slot -/

theorem offsetAt_lt (F : Format) (leaf : ExtentBuffer) (slot : Nat) :
    offsetAt F leaf slot < 2 ^ 32 :=
  leValue_lt_two_pow (length_byteRange _ _ _).le

/-- Without item checks a slot passes on its key order and its data end. -/
theorem leafSlotPasses_false_iff (leaf : ExtentBuffer) (checkItem : Key → Nat → Key → CheckM Int)
    (slot : Nat) (prevKey : Key) :
    LeafSlotPasses fs leaf false checkItem slot prevKey ↔
      prevKey.Lt (keyAt F leaf slot) ∧ endAt F leaf slot = expectedEnd fs leaf slot ∧
        endAt F leaf slot ≤ fs.leafDataSize := by
  refine ⟨fun h => ?_, fun ⟨h1, h2, h3⟩ => ?_⟩
  · obtain ⟨-, h1, h2, h3, -⟩ := leafSlot_val_ok fs leaf false checkItem h
    exact ⟨h1, h2, h3⟩
  · rw [LeafSlotPasses, leafSlot_val]
    simp [h1, h2, Nat.not_lt.2 (h2 ▸ h3)]

/-- The relaxed walk on a leaf of level 0 with items: it accepts exactly when
every slot is above the previous key, ends, in `u32` arithmetic, where the
previous slot's data starts (the end of the data area for slot 0), and ends
inside the data area. -/
theorem checkLeafWalk_relaxed_eq_zero_iff (leaf : ExtentBuffer) (hlevel : levelAt F leaf = 0)
    (hn : nritemsAt F leaf ≠ 0) :
    (checkLeafWalk fs leaf false).val = 0 ↔
      ∀ i < nritemsAt F leaf, (prevKeyAt F leaf i).Lt (keyAt F leaf i) ∧
        endAt F leaf i = expectedEnd fs leaf i ∧ endAt F leaf i ≤ fs.leafDataSize := by
  rw [checkLeafWalk, leafWalk_val_of_items fs leaf false _ hlevel hn,
    leafSlots_val_eq_zero_iff]
  simp only [Nat.zero_add, leafSlotPasses_false_iff]
  rfl

/-! ## Well-formed blocks -/

/-- A leaf laid out as the format intends: level 0, at least one item, keys
strictly increasing from above the zero key, and item data packed back to back
from the end of the data area, in exact arithmetic. -/
structure WellFormedLeaf (leaf : ExtentBuffer) : Prop where
  level_eq : levelAt F leaf = 0
  nritems_pos : 0 < nritemsAt F leaf
  zero_lt_key : Key.zero.Lt (keyAt F leaf 0)
  keys_lt : ∀ i < nritemsAt F leaf, 0 < i → (keyAt F leaf (i - 1)).Lt (keyAt F leaf i)
  first_end : offsetAt F leaf 0 + sizeAt F leaf 0 = fs.leafDataSize
  packed : ∀ i < nritemsAt F leaf, 0 < i →
    offsetAt F leaf i + sizeAt F leaf i = offsetAt F leaf (i - 1)

/-- A node as the format intends: level in `[1, APFS_MAX_LEVEL - 1]`, at least
one key pointer, keys strictly increasing, and every child address nonzero and
a multiple of the sector size. -/
structure WellFormedNode (node : ExtentBuffer) : Prop where
  level_pos : 1 ≤ levelAt F node
  level_lt : levelAt F node < F.maxLevel
  nritems_pos : 0 < nritemsAt F node
  keys_lt : ∀ s < nritemsAt F node, 0 < s → (nodeKeyAt F node (s - 1)).Lt (nodeKeyAt F node s)
  blockptr_ne_zero : ∀ s < nritemsAt F node, blockptrAt F node s ≠ 0
  blockptr_aligned : ∀ s < nritemsAt F node, fs.sectorsize ∣ blockptrAt F node s

namespace WellFormedLeaf

variable {fs} {leaf : ExtentBuffer} (h : WellFormedLeaf fs leaf)
include h

/-- Every item's data starts inside the data area. -/
theorem offsetAt_le : ∀ i < nritemsAt F leaf, offsetAt F leaf i ≤ fs.leafDataSize
  | 0, _ => h.first_end ▸ Nat.le_add_right _ _
  | i + 1, hi => by
    have := h.packed (i + 1) hi (Nat.succ_pos i)
    have := offsetAt_le i (Nat.lt_of_succ_lt hi)
    simp only [Nat.add_sub_cancel] at *
    omega

/-- Every slot of a well-formed leaf passes the relaxed walk's checks. -/
theorem slot_passes (i : Nat) (hi : i < nritemsAt F leaf) :
    (prevKeyAt F leaf i).Lt (keyAt F leaf i) ∧
      endAt F leaf i = expectedEnd fs leaf i ∧ endAt F leaf i ≤ fs.leafDataSize := by
  rcases i with _ | i
  · have hend : endAt F leaf 0 = fs.leafDataSize := by
      rw [endAt, h.first_end, Nat.mod_eq_of_lt fs.leafDataSize_lt]
    rw [prevKeyAt_zero, expectedEnd_zero, hend]
    exact ⟨h.zero_lt_key, rfl, le_refl _⟩
  · have hkey := h.keys_lt (i + 1) hi (Nat.succ_pos i)
    have hpacked := h.packed (i + 1) hi (Nat.succ_pos i)
    rw [Nat.add_sub_cancel] at hkey hpacked
    have hend : endAt F leaf (i + 1) = offsetAt F leaf i := by
      rw [endAt, hpacked, Nat.mod_eq_of_lt (offsetAt_lt F leaf i)]
    rw [prevKeyAt_succ, expectedEnd_succ, hend]
    exact ⟨hkey, rfl, h.offsetAt_le i (Nat.lt_of_succ_lt hi)⟩

/-- The keys of a well-formed leaf increase across the whole leaf. -/
theorem keyAt_lt {i j : Nat} (hij : i < j) (hj : j < nritemsAt F leaf) :
    (keyAt F leaf i).Lt (keyAt F leaf j) := by
  induction j, hij using Nat.le_induction with
  | base => simpa using h.keys_lt (i + 1) hj (Nat.succ_pos i)
  | succ j hij ih =>
    exact (ih (by omega)).trans (by simpa using h.keys_lt (j + 1) hj (Nat.succ_pos j))

/-- An item of a well-formed leaf ends no later than the data of every
earlier slot starts: no two items share a byte. -/
theorem end_le_offsetAt {i j : Nat} (hij : i < j) (hj : j < nritemsAt F leaf) :
    offsetAt F leaf j + sizeAt F leaf j ≤ offsetAt F leaf i := by
  induction j, hij using Nat.le_induction with
  | base => simpa using (h.packed (i + 1) hj (Nat.succ_pos i)).le
  | succ j hij ih =>
    have hpacked := h.packed (j + 1) hj (Nat.succ_pos j)
    have := ih (by omega)
    rw [Nat.add_sub_cancel] at hpacked
    omega

end WellFormedLeaf

/-- The node walk on a node of valid level with `n + 1` key pointers: it
accepts exactly when each of the first `n` has a nonzero aligned child and a
key below the next. -/
theorem checkNodeWalk_val_eq_zero_iff (node : ExtentBuffer) (n : Nat)
    (hlevel : 1 ≤ levelAt F node ∧ levelAt F node < F.maxLevel) (hnr : nritemsAt F node = n + 1) :
    (checkNodeWalk fs node).val = 0 ↔ ∀ s < n, NodeSlotPasses fs node s := by
  rw [checkNodeWalk_val_of_items fs node (by omega) (by omega), hnr, Nat.add_sub_cancel,
    nodeSlots_val_eq_zero_iff]
  simp only [Nat.zero_add]

/-- Both walks accept every well-formed block: the relaxed leaf walk every
well-formed leaf, the node walk every well-formed node. -/
theorem check_walks_accept_well_formed (leaf node : ExtentBuffer) (hleaf : WellFormedLeaf fs leaf)
    (hnode : WellFormedNode fs node) :
    (checkLeafWalk fs leaf false).val = 0 ∧ (checkNodeWalk fs node).val = 0 := by
  constructor
  · rw [checkLeafWalk_relaxed_eq_zero_iff fs leaf hleaf.level_eq (by have := hleaf.nritems_pos; omega)]
    exact hleaf.slot_passes
  · obtain ⟨n, hn⟩ := Nat.exists_eq_add_of_lt hnode.nritems_pos
    rw [checkNodeWalk_val_eq_zero_iff fs node n ⟨hnode.level_pos, hnode.level_lt⟩ (by omega)]
    intro s hs
    have hkey := hnode.keys_lt (s + 1) (by omega) (Nat.succ_pos s)
    simp only [Nat.add_sub_cancel] at hkey
    exact ⟨hnode.blockptr_ne_zero s (by omega),
      (isAligned_iff fs.sectorsize_pow).2 (hnode.blockptr_aligned s (by omega)), hkey⟩

/-- A leaf with two items packed against the end of its data area. -/
def sampleLeaf : ExtentBuffer :=
  ExtentBuffer.ofFields packedFormat.page 0 4096
    [(96, 4, 2), (101, 8, 256), (109, 1, 1), (118, 4, 3835), (122, 4, 160),
      (126, 8, 256), (134, 1, 12), (135, 8, 256), (143, 4, 3815), (147, 4, 20)]

/-- A node of level 1 with two key pointers to aligned children. -/
def sampleNode : ExtentBuffer :=
  ExtentBuffer.ofFields packedFormat.page 0 4096
    [(96, 4, 2), (100, 1, 1), (101, 8, 256), (109, 1, 1), (118, 8, 20480),
      (134, 8, 300), (143, 1, 1), (151, 8, 24576)]

theorem check_walks_accept_sample :
    WellFormedLeaf packedFs sampleLeaf ∧ WellFormedNode packedFs sampleNode ∧
      (checkLeafWalk packedFs sampleLeaf false).val = 0 ∧
      (checkNodeWalk packedFs sampleNode).val = 0 :=
  have hleaf : WellFormedLeaf packedFs sampleLeaf :=
    ⟨by decide, by decide, by decide, by decide, by decide, by decide⟩
  have hnode : WellFormedNode packedFs sampleNode :=
    ⟨by decide, by decide, by decide, by decide, by decide, by decide⟩
  ⟨hleaf, hnode, check_walks_accept_well_formed packedFs sampleLeaf sampleNode hleaf hnode⟩

/-! ## What the walks establish -/

/-- A leaf either walk accepts is of level 0. -/
theorem levelAt_eq_zero_of_checkLeafWalk {leaf : ExtentBuffer} {checkItemData : Bool}
    (h : (checkLeafWalk fs leaf checkItemData).val = 0) : levelAt F leaf = 0 := by
  by_contra hl
  rw [checkLeafWalk, leafWalk_val_of_level_ne_zero fs leaf checkItemData _ hl] at h
  exact absurd h (by decide)

/-- For every leaf with items that the relaxed walk accepts and in which no
item's end reaches `2 ^ 32`, so that `apfs_item_end_nr` does not wrap: the
leaf is well formed, its keys increase across the whole leaf, and each item's
data ends no later than the data of every earlier slot starts, so no two items
share a byte. -/
theorem check_leaf_walk_packs_unwrapped_items (leaf : ExtentBuffer)
    (h : (checkLeafWalk fs leaf false).val = 0) (hn : nritemsAt F leaf ≠ 0)
    (hnowrap : ∀ i < nritemsAt F leaf, offsetAt F leaf i + sizeAt F leaf i < 2 ^ 32) :
    WellFormedLeaf fs leaf ∧ ∀ i j, i < j → j < nritemsAt F leaf →
      (keyAt F leaf i).Lt (keyAt F leaf j) ∧ offsetAt F leaf j + sizeAt F leaf j ≤ offsetAt F leaf i := by
  have hlevel := levelAt_eq_zero_of_checkLeafWalk fs h
  have hslots := (checkLeafWalk_relaxed_eq_zero_iff fs leaf hlevel hn).1 h
  have hend : ∀ i < nritemsAt F leaf, offsetAt F leaf i + sizeAt F leaf i = expectedEnd fs leaf i :=
    fun i hi => by rw [← (hslots i hi).2.1, endAt, Nat.mod_eq_of_lt (hnowrap i hi)]
  have hwf : WellFormedLeaf fs leaf :=
    { level_eq := hlevel
      nritems_pos := Nat.pos_of_ne_zero hn
      zero_lt_key := (hslots 0 (Nat.pos_of_ne_zero hn)).1
      keys_lt := fun i hi hpos => by
        obtain ⟨k, rfl⟩ := Nat.exists_eq_add_of_lt hpos
        simpa using (hslots _ hi).1
      first_end := hend 0 (Nat.pos_of_ne_zero hn)
      packed := fun i hi hpos => by
        obtain ⟨k, rfl⟩ := Nat.exists_eq_add_of_lt hpos
        simpa using hend _ hi }
  exact ⟨hwf, fun i j hij hj => ⟨hwf.keyAt_lt hij hj, hwf.end_le_offsetAt hij hj⟩⟩

/-- The sample leaf: accepted, with two items whose ends do not wrap. -/
theorem check_leaf_walk_packs_unwrapped_items_sample :
    WellFormedLeaf packedFs sampleLeaf ∧ ∀ i j, i < j → j < nritemsAt packedFormat sampleLeaf →
      (keyAt packedFormat sampleLeaf i).Lt (keyAt packedFormat sampleLeaf j) ∧
        offsetAt packedFormat sampleLeaf j + sizeAt packedFormat sampleLeaf j ≤
          offsetAt packedFormat sampleLeaf i :=
  check_leaf_walk_packs_unwrapped_items packedFs sampleLeaf (by decide) (by decide) (by decide)

/-- With item checks a slot passes when it passes without them and its item
check returns a value that is not negative. -/
theorem leafSlotPasses_true_iff (leaf : ExtentBuffer) (checkItem : Key → Nat → Key → CheckM Int)
    (slot : Nat) (prevKey : Key) :
    LeafSlotPasses fs leaf true checkItem slot prevKey ↔
      LeafSlotPasses fs leaf false checkItem slot prevKey ∧
        0 ≤ (checkItem (keyAt F leaf slot) slot prevKey).val := by
  simp only [LeafSlotPasses, leafSlot_val]
  split_ifs <;> simp_all

/-- On a leaf without items the walk does not look at `check_item_data`. -/
theorem leafWalk_val_of_nritems_eq_zero (leaf : ExtentBuffer)
    (checkItem : Key → Nat → Key → CheckM Int) (hn : nritemsAt F leaf = 0) (b b' : Bool) :
    (leafWalk fs leaf b checkItem).val = (leafWalk fs leaf b' checkItem).val := by
  simp only [nritemsAt] at hn
  simp [leafWalk, hn]

/-- For every leaf, the walk of `apfs_check_leaf_full` accepts exactly what
the walk of `apfs_check_leaf_relaxed` accepts and whose every item passes the
validator `check_leaf_item` selects for its key, run with the key of the slot
before. -/
theorem check_leaf_walk_full_is_relaxed_and_items (leaf : ExtentBuffer) :
    (checkLeafWalk fs leaf true).val = 0 ↔
      (checkLeafWalk fs leaf false).val = 0 ∧
        ∀ i < nritemsAt F leaf,
          0 ≤ (checkLeafItem fs leaf (keyAt F leaf i) i (prevKeyAt F leaf i)).val := by
  by_cases hlevel : levelAt F leaf = 0
  · by_cases hn : nritemsAt F leaf = 0
    · simp only [hn, Nat.not_lt_zero, false_imp_iff, implies_true, and_true, checkLeafWalk]
      exact Eq.congr_left (leafWalk_val_of_nritems_eq_zero fs leaf _ hn true false)
    · rw [checkLeafWalk, checkLeafWalk, leafWalk_val_of_items fs leaf _ _ hlevel hn,
        leafWalk_val_of_items fs leaf _ _ hlevel hn, leafSlots_val_eq_zero_iff,
        leafSlots_val_eq_zero_iff, ← forall₂_and]
      simp only [Nat.zero_add, leafSlotPasses_true_iff]
      rfl
  · have hne : (-EUCLEAN : Int) ≠ 0 := by decide
    rw [checkLeafWalk, checkLeafWalk, leafWalk_val_of_level_ne_zero fs leaf _ _ hlevel,
      leafWalk_val_of_level_ne_zero fs leaf _ _ hlevel]
    simp [hne]

/-- For every node the walk accepts: its level is in `[1, APFS_MAX_LEVEL - 1]`,
it has a key pointer, its keys increase across the whole node, the last key
included, and every child pointer but the last is nonzero and sector-aligned. -/
theorem check_node_walk_sorts_keys (node : ExtentBuffer) (h : (checkNodeWalk fs node).val = 0) :
    1 ≤ levelAt F node ∧ levelAt F node < F.maxLevel ∧ 0 < nritemsAt F node ∧
      (∀ s t, s < t → t < nritemsAt F node → (nodeKeyAt F node s).Lt (nodeKeyAt F node t)) ∧
      ∀ s, s + 1 < nritemsAt F node → blockptrAt F node s ≠ 0 ∧ fs.sectorsize ∣ blockptrAt F node s := by
  have hne : (-EUCLEAN : Int) ≠ 0 := by decide
  have hlevel : ¬(levelAt F node ≤ 0 ∨ levelAt F node ≥ F.maxLevel) := fun hl =>
    hne (checkNodeWalk_val_of_level fs node hl ▸ h)
  have hn : nritemsAt F node ≠ 0 := fun hn =>
    hne (checkNodeWalk_val_of_empty fs node hlevel hn ▸ h)
  have hslots := (checkNodeWalk_val_eq_zero_iff fs node (nritemsAt F node - 1) (by omega)
    (by omega)).1 h
  refine ⟨by omega, by omega, by omega, fun s t hst ht => ?_, fun s hs => ?_⟩
  · induction t, hst using Nat.le_induction with
    | base => exact (hslots s (by omega)).2.2
    | succ t hst ih => exact (ih (by omega)).trans (hslots t (by omega)).2.2
  · obtain ⟨h1, h2, -⟩ := hslots s (by omega)
    exact ⟨h1, (isAligned_iff fs.sectorsize_pow).1 h2⟩

/-- The sample node. -/
theorem check_node_walk_sorts_keys_sample :
    1 ≤ levelAt packedFormat sampleNode ∧ levelAt packedFormat sampleNode < packedFormat.maxLevel ∧
      0 < nritemsAt packedFormat sampleNode ∧
      (∀ s t, s < t → t < nritemsAt packedFormat sampleNode →
        (nodeKeyAt packedFormat sampleNode s).Lt (nodeKeyAt packedFormat sampleNode t)) ∧
      ∀ s, s + 1 < nritemsAt packedFormat sampleNode →
        blockptrAt packedFormat sampleNode s ≠ 0 ∧
          packedFs.sectorsize ∣ blockptrAt packedFormat sampleNode s :=
  check_node_walk_sorts_keys packedFs sampleNode (by decide)

/-- The node walk never loads the last child pointer: a node of valid level
whose first `n` key pointers pass is accepted whatever the last one holds. -/
theorem check_node_walk_ignores_last_pointer (node : ExtentBuffer) (n : Nat)
    (hlevel : 1 ≤ levelAt F node ∧ levelAt F node < F.maxLevel) (hnr : nritemsAt F node = n + 1)
    (hslots : ∀ s < n, blockptrAt F node s ≠ 0 ∧ fs.sectorsize ∣ blockptrAt F node s ∧
      (nodeKeyAt F node s).Lt (nodeKeyAt F node (s + 1))) :
    (checkNodeWalk fs node).val = 0 :=
  (checkNodeWalk_val_eq_zero_iff fs node n hlevel hnr).2 fun s hs =>
    let ⟨hne, hdvd, hlt⟩ := hslots s hs
    ⟨hne, (isAligned_iff fs.sectorsize_pow).2 hdvd, hlt⟩

/-- A node of level 1 with one key pointer, whose child address is 0. -/
def nullChildNode : ExtentBuffer :=
  ExtentBuffer.ofFields packedFormat.page 0 4096 [(96, 4, 1), (100, 1, 1), (101, 8, 256)]

theorem check_node_walk_accepts_null_child :
    blockptrAt packedFormat nullChildNode 0 = 0 ∧ (checkNodeWalk packedFs nullChildNode).val = 0 :=
  ⟨by decide, check_node_walk_ignores_last_pointer packedFs nullChildNode 0 (by decide) (by decide)
    fun s hs => absurd hs (Nat.not_lt_zero s)⟩

/-- A leaf whose one item's data fills the whole data area from offset 0, over
the item table. -/
def overlapLeaf : ExtentBuffer :=
  ExtentBuffer.ofFields packedFormat.page 0 4096
    [(96, 4, 1), (101, 8, 1), (118, 4, 0), (122, 4, 3995)]

/-- A leaf whose one item's `u32` end wraps to the end of the data area. -/
def wrapLeaf : ExtentBuffer :=
  ExtentBuffer.ofFields packedFormat.page 0 4096
    [(96, 4, 1), (101, 8, 1), (118, 4, 2 ^ 32 - 1), (122, 4, 3996)]

/-- Both walks accept a leaf whose item data overlaps the item table, and a
leaf whose item ends past `2 ^ 32` in exact arithmetic. -/
theorem check_leaf_walk_accepts_overlap_and_wrap :
    ((checkLeafWalk packedFs overlapLeaf false).val = 0 ∧
        (checkLeafWalk packedFs overlapLeaf true).val = 0 ∧
        nritemsAt packedFormat overlapLeaf = 1 ∧ offsetAt packedFormat overlapLeaf 0 < 1 * itemSize) ∧
      ((checkLeafWalk packedFs wrapLeaf false).val = 0 ∧
        (checkLeafWalk packedFs wrapLeaf true).val = 0 ∧
        offsetAt packedFormat wrapLeaf 0 + sizeAt packedFormat wrapLeaf 0 ≠ packedFs.leafDataSize) := by
  decide

end Apfs
