import Apfs.Ctree

/-!
# Leaf defragmentation: where a pass stops

`apfs_defrag_leaves` of `tree-defrag.c` reallocates the leaves below one level-1
node of a tree per call.  It keeps its place between calls in
`root->defrag_progress`, the key after the last node it did, and the first call
of a pass records in `root->defrag_max` the last key pointer of the root node.
A call returns `-EAGAIN` to be called again, or `0` when the pass is over, and
then clears the progress key.

The tree operations the function calls (`apfs_search_forward`,
`apfs_search_slot`, `apfs_realloc_node`, `apfs_find_next_key`) are in
`ctree.c`, outside the sources; their outcomes are the fields of a
{lit}`DefragCalls`, so every result below holds for whatever they return.  The
function itself is {lit}`apfsDefragLeaves`, and its exit path, the labels
`out:` and `done:`, is {lit}`defragOut`.

Main results:

- Theorem {lit}`defragOut_resumes_iff`: at `out:` with `-EAGAIN` the call
  resumes exactly when one of the three fields of `defrag_max` exceeds the same
  field of `defrag_progress`, each field compared on its own.
- Theorem {lit}`defragOut_resumes_of_lt`: a progress key below `defrag_max` in
  key order always resumes.
- Theorem {lit}`apfs_defrag_leaves_resumes_past_max`: a progress key past
  `defrag_max` can resume too, on a tree that has grown since the pass began.
-/

namespace Apfs

/-- `EAGAIN`. -/
def EAGAIN : Int :=
  11

/-- `ENOMEM`. -/
def ENOMEM : Int :=
  12

/-- The part of `struct apfs_root` the defragmenter reads and writes: whether
it is the extent root, its `APFS_ROOT_SHAREABLE` bit, the level of its root
node and that node's last key pointer, and the two keys of the pass. -/
structure DefragRoot where
  isExtentRoot : Bool
  shareable : Bool
  level : Nat
  lastNodeKey : Key
  defragProgress : Key
  defragMax : Key
deriving DecidableEq, Repr

/-- What the calls into the tree return: whether `apfs_alloc_path` succeeds,
the result of `apfs_search_forward` from a key and the key it moves to, the
result of `apfs_search_slot` for a key, whether the path then holds a level-1
node, the result of `apfs_realloc_node`, and the key `apfs_find_next_key`
finds, `none` when it returns nonzero. -/
structure DefragCalls where
  allocPath : Bool
  searchForward : Key → Int × Key
  searchSlot : Key → Int
  level1Node : Bool
  reallocNode : Int
  findNextKey : Option Key

/-- The labels `out:` and `done:`: with `-EAGAIN` the call stops unless a field
of `defrag_max` exceeds the same field of `defrag_progress`; a call that does
not return `-EAGAIN` clears the progress key. -/
def defragOut (ret : Int) (root : DefragRoot) : Int × DefragRoot :=
  let ret :=
    if ret = -EAGAIN then
      if root.defragMax.objectid > root.defragProgress.objectid then ret
      else if root.defragMax.type > root.defragProgress.type then ret
      else if root.defragMax.offset > root.defragProgress.offset then ret
      else 0
    else ret
  (ret, if ret ≠ -EAGAIN then { root with defragProgress := Key.zero } else root)

/-- The start of a call: a call whose progress key has objectid zero starts a
pass, records the root node's last key as `defrag_max` and searches from the
zero key; any other call searches from the progress key. -/
def defragStart (root : DefragRoot) : DefragRoot × Key :=
  if root.defragProgress.objectid = 0 then
    ({ root with defragMax := root.lastNodeKey }, Key.zero)
  else (root, root.defragProgress)

/-- `apfs_defrag_leaves`.  After the start, one level-1 node is reallocated and
the key after it becomes the progress key. -/
def apfsDefragLeaves (calls : DefragCalls) (root : DefragRoot) : Int × DefragRoot :=
  if root.isExtentRoot then defragOut 0 root
  else if !root.shareable then defragOut 0 root
  else if !calls.allocPath then (-ENOMEM, root)
  else if root.level = 0 then defragOut 0 root
  else
    let start := defragStart root
    let found := calls.searchForward start.2
    if found.1 < 0 then defragOut found.1 start.1
    else if found.1 > 0 then defragOut 0 start.1
    else
      let wret := calls.searchSlot found.2
      if wret < 0 then defragOut wret start.1
      else if !calls.level1Node then defragOut 0 start.1
      else if calls.reallocNode ≠ 0 then defragOut calls.reallocNode start.1
      else
        match calls.findNextKey with
        | some next => defragOut (-EAGAIN) { start.1 with defragProgress := next }
        | none => defragOut 0 start.1

/-! ## The exit path -/

/-- The comparison `out:` makes: some field of `defrag_max` exceeds the same
field of `defrag_progress`. -/
def DefragRoot.FieldBelow (root : DefragRoot) : Prop :=
  root.defragProgress.objectid < root.defragMax.objectid ∨
    root.defragProgress.type < root.defragMax.type ∨
    root.defragProgress.offset < root.defragMax.offset

instance (root : DefragRoot) : Decidable root.FieldBelow :=
  inferInstanceAs (Decidable (_ ∨ _))

theorem zero_ne_neg_eagain : (0 : Int) ≠ -EAGAIN := by
  decide

/-- What `out:` does with `-EAGAIN`: the call resumes, with the root
unchanged, when some field of the maximum exceeds the same field of the
progress key; otherwise it returns `0` and clears the progress key. -/
theorem defragOut_eagain_eq (root : DefragRoot) :
    defragOut (-EAGAIN) root =
      if root.FieldBelow then (-EAGAIN, root) else (0, { root with defragProgress := Key.zero }) := by
  have hne := zero_ne_neg_eagain
  unfold defragOut DefragRoot.FieldBelow
  rw [if_pos rfl]
  split_ifs <;> first | rfl | omega

/-- At `out:` with `-EAGAIN` the call resumes exactly when some field of the
maximum exceeds the same field of the progress key. -/
theorem defragOut_resumes_iff (root : DefragRoot) :
    defragOut (-EAGAIN) root = (-EAGAIN, root) ↔ root.FieldBelow := by
  rw [defragOut_eagain_eq]
  split_ifs with h
  · exact iff_of_true rfl h
  · exact iff_of_false (fun he => zero_ne_neg_eagain (congrArg Prod.fst he)) h

/-- A progress key below the maximum in key order always resumes: a key that
is lexicographically smaller is smaller in its first differing field. -/
theorem defragOut_resumes_of_lt (root : DefragRoot)
    (h : root.defragProgress.Lt root.defragMax) :
    defragOut (-EAGAIN) root = (-EAGAIN, root) := by
  rw [defragOut_resumes_iff]
  unfold Key.Lt at h
  unfold DefragRoot.FieldBelow
  omega

/-- A progress key below `defrag_max` in key order always resumes, but so can
one past it.  A later call of a pass over a tree of level 2, whose first call
recorded `defrag_max = (256, DIR_INDEX, 5)` and whose tree has since grown a
level-1 node keyed `(257, INODE_ITEM, 0)`: the key after the reallocated node
is past `defrag_max`, yet the call asks to be called again, because
`defrag_max`'s type field exceeds the new key's. -/
theorem apfs_defrag_leaves_resumes_past_max :
    (∀ root : DefragRoot, root.defragProgress.Lt root.defragMax →
      defragOut (-EAGAIN) root = (-EAGAIN, root)) ∧
    let root : DefragRoot := ⟨false, true, 2, ⟨257, 1, 0⟩, ⟨256, 1, 0⟩, ⟨256, 96, 5⟩⟩
    let calls : DefragCalls := ⟨true, fun k => (0, k), fun _ => 0, true, 0, some ⟨257, 1, 0⟩⟩
    (apfsDefragLeaves calls root).1 = -EAGAIN ∧
      (apfsDefragLeaves calls root).2.defragProgress = ⟨257, 1, 0⟩ ∧
      (apfsDefragLeaves calls root).2.defragMax = ⟨256, 96, 5⟩ ∧
      (apfsDefragLeaves calls root).2.defragMax.Lt (apfsDefragLeaves calls root).2.defragProgress := by
  refine ⟨defragOut_resumes_of_lt, ?_⟩
  intro root calls
  have hout : apfsDefragLeaves calls root =
      defragOut (-EAGAIN) { root with defragProgress := ⟨257, 1, 0⟩ } := rfl
  rw [hout, (defragOut_resumes_iff _).2 (by decide)]
  exact ⟨rfl, rfl, rfl, by decide⟩

end Apfs
