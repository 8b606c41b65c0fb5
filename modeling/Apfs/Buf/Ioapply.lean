import Apfs.Ctree

/-!
# Building the bios of a buffer

`apfs_buf.c` reads and writes a byte range of the device through a buffer of
pages.  `apfs_buf_init` fixes the range, and `apfs_buf_ioapply` cuts it into
bios: each chunk takes up to `bio_max_segs` pages from where the last one
stopped, offering each page to `bio_add_page` until the bytes run out or the
bio refuses one.

`bio_add_page` adds a segment whole or not at all.  Which calls succeed is
the environment's choice, given here as the number of calls that succeed
before the first refusal.  The page loop is then a function of the locals the
chunks share, {lit}`IoapplyLocals`.

Main results:

- Theorem {lit}`skipPages_eq`: the loop that skips whole pages before the
  start offset computes a quotient and a remainder.
- Theorem {lit}`addPages_goto`: a chunk that added a segment and left bytes
  to do made the count of bytes left smaller, and left it positive.
-/

namespace Apfs

/-! ## The buffer -/

/-- `REQ_OP_READ` and `REQ_OP_WRITE`. -/
inductive ReqOp
  | read
  | write
deriving DecidableEq, Repr

/-- `ABF_READ`. -/
def abfRead : Nat :=
  0

/-- `ABF_WRITE`. -/
def abfWrite : Nat :=
  1

/-- The members of `struct apfs_buf` that `apfs_buf_init` sets: the byte
offset of the range in its first page, the length, the pages the length
spans, the first 512-byte sector and the operation. -/
structure ApfsBuf where
  offset : Nat
  len : Nat
  pageCount : Nat
  bno : Nat
  op : ReqOp
deriving DecidableEq, Repr

/-- `apfs_buf_init(fs_info, bp, op, bytenr, size)`, or `none` where it hits
`BUG_ON` on an unknown operation.  The length is `size` rounded up to 512
bytes in `size_t`, and `page_count`, an `unsigned int`, counts the pages of
the length alone. -/
def apfsBufInit (pg : PageGeom) (op bytenr size : Nat) : Option ApfsBuf :=
  let len := alignUp size (2 ^ 9)
  let reqOp := if op = abfRead then some ReqOp.read
    else if op = abfWrite then some ReqOp.write else none
  reqOp.map fun reqOp =>
    { offset := bytenr % pg.size
      len := len
      pageCount := (len + pg.size - 1) / pg.size % 2 ^ 32
      bno := bytenr / 2 ^ 9
      op := reqOp }

/-- `apfs_buf_alloc_pages(bp, flags)` when `kcalloc` and the bulk allocation
succeed: `page_count` is computed again from the length, the array of pages
is allocated and filled, and the function returns 0.  The pages' contents are
not modelled; the byte ranges below are offsets in their linear space. -/
def apfsBufAllocPages (pg : PageGeom) (bp : ApfsBuf) : ApfsBuf :=
  { bp with pageCount := (bp.len + pg.size - 1) / pg.size % 2 ^ 32 }

/-! ## The page loop -/

/-- `BIO_MAX_VECS`, the most segments a bio holds. -/
def bioMaxVecs : Nat :=
  256

/-- `bio_max_segs(nr_segs)`. -/
def bioMaxSegs (nrSegs : Nat) : Nat :=
  min nrSegs bioMaxVecs

/-- The skip at the start of `apfs_buf_ioapply`: while the offset is a page
or more, step to the next page.  Each pass takes a whole page off the offset,
so `offset` passes are always enough; `fuel` counts them. -/
def skipPages (pg : PageGeom) : (fuel pageIndex offset : Nat) → Nat × Nat
  | 0, pageIndex, offset => (pageIndex, offset)
  | fuel + 1, pageIndex, offset =>
    if pg.size ≤ offset then skipPages pg fuel (pageIndex + 1) (offset - pg.size)
    else (pageIndex, offset)

/-- `(int)x` for an unsigned `x`: its low 32 bits read in two's complement,
as the kernel's compilers convert. -/
def int32OfNat (x : Nat) : Int :=
  if x % 2 ^ 32 < 2 ^ 31 then ((x % 2 ^ 32 : Nat) : Int) else ((x % 2 ^ 32 : Nat) : Int) - 2 ^ 32

/-- The locals of `apfs_buf_ioapply` that one chunk leaves to the next.  The
bytes left, `size`, are an `int`. -/
structure IoapplyLocals where
  offset : Nat
  totalNrPages : Nat
  pageIndex : Nat
  size : Int
  sector : Nat
deriving DecidableEq, Repr

/-- The locals before the first chunk: `int size = bp->len` keeps the low 32
bits of the `size_t` length. -/
def IoapplyLocals.init (pg : PageGeom) (bp : ApfsBuf) : IoapplyLocals :=
  let (pageIndex, offset) := skipPages pg bp.offset 0 bp.offset
  { offset := offset
    totalNrPages := bp.pageCount
    pageIndex := pageIndex
    size := int32OfNat bp.len
    sector := bp.bno }

/-- A segment `bio_add_page` accepted: the page, the byte count and the
offset in the page. -/
structure Segment where
  page : Nat
  len : Nat
  off : Nat
deriving DecidableEq, Repr

/-- The locals after a pass of the page loop that moved `nbytes` bytes on:
`offset = 0`, one page fewer to go, the next page, and the sector advanced by
`nbytes >> 9`, an `int` added to the `u64` sector. -/
def IoapplyLocals.advance (l : IoapplyLocals) (nbytes : Int) : IoapplyLocals :=
  { offset := 0
    totalNrPages := l.totalNrPages - 1
    pageIndex := l.pageIndex + 1
    size := l.size - nbytes
    sector := (((l.sector : Int) + (nbytes >>> 9)) % 2 ^ 64).toNat }

/-- The page loop of one chunk, `for (; size && nr_pages; nr_pages--,
page_index++)`, where `accept` more calls of `bio_add_page` succeed: the
segments added and the locals after the loop.  `nbytes` is the `int`
`min(PAGE_SIZE - offset, size)`; a call returns `nbytes` when it succeeds and
0 when it does not, and `rbytes < nbytes` ends the loop.  The segment's length
is `nbytes` as the `unsigned int` the call takes. -/
def addPages (pg : PageGeom) : (nrPages accept : Nat) → IoapplyLocals → List Segment × IoapplyLocals
  | 0, _, l => ([], l)
  | nrPages + 1, accept, l =>
    if l.size = 0 then ([], l)
    else
      let nbytes : Int := min ((pg.size : Int) - l.offset) l.size
      match accept with
      | 0 => if 0 < nbytes then ([], l) else addPages pg nrPages 0 (l.advance nbytes)
      | accept + 1 =>
        let next := addPages pg nrPages accept (l.advance nbytes)
        (⟨l.pageIndex, (nbytes % 2 ^ 32).toNat, l.offset⟩ :: next.1, next.2)

/-- One chunk from the label `next_chunk:`: the bio's segments and the
locals after its page loop.  The bio is submitted when it has segments; an
empty bio takes the `-EIO` branch. -/
def ioapplyChunk (pg : PageGeom) (accept : Nat) (l : IoapplyLocals) : List Segment × IoapplyLocals :=
  addPages pg (bioMaxSegs l.totalNrPages) accept l

theorem skipPages_eq (pg : PageGeom) :
    ∀ (fuel pageIndex offset : Nat), offset ≤ fuel →
      skipPages pg fuel pageIndex offset = (pageIndex + offset / pg.size, offset % pg.size)
  | 0, pageIndex, offset, h => by
    obtain rfl : offset = 0 := Nat.le_zero.1 h
    simp [skipPages]
  | fuel + 1, pageIndex, offset, h => by
    have hpos := pg.size_pos
    rw [skipPages]
    split
    · rename_i hle
      rw [skipPages_eq pg fuel (pageIndex + 1) (offset - pg.size) (by omega),
        Nat.div_eq_sub_div hpos hle, Nat.mod_eq_sub_mod hle]
      simp only [Prod.mk.injEq, and_true]
      omega
    · rename_i hlt
      rw [Nat.div_eq_of_lt (by omega), Nat.mod_eq_of_lt (by omega), Nat.add_zero]

@[simp]
theorem IoapplyLocals.advance_offset (l : IoapplyLocals) (nbytes : Int) :
    (l.advance nbytes).offset = 0 :=
  rfl

@[simp]
theorem IoapplyLocals.advance_size (l : IoapplyLocals) (nbytes : Int) :
    (l.advance nbytes).size = l.size - nbytes :=
  rfl

/-- With no bytes left the page loop does not run. -/
theorem addPages_of_size_eq_zero (pg : PageGeom) {l : IoapplyLocals} (h : l.size = 0) :
    ∀ nrPages accept, addPages pg nrPages accept l = ([], l)
  | 0, _ => rfl
  | _ + 1, _ => by rw [addPages, if_pos h]

/-- The page loop leaves the offset inside a page: where it was, or 0. -/
theorem addPages_offset_lt (pg : PageGeom) :
    ∀ (nrPages accept : Nat) (l : IoapplyLocals), l.offset < pg.size →
      (addPages pg nrPages accept l).2.offset < pg.size
  | 0, _, _, h => h
  | nrPages + 1, accept, l, h => by
    have hadv := fun a nbytes => addPages_offset_lt pg nrPages a (l.advance nbytes)
      (by rw [IoapplyLocals.advance_offset]; exact pg.size_pos)
    unfold addPages
    split
    · exact h
    · rcases accept with _ | accept
      · dsimp only
        split
        · exact h
        · exact hadv 0 _
      · exact hadv accept _

@[simp]
theorem IoapplyLocals.init_size (pg : PageGeom) (bp : ApfsBuf) :
    (IoapplyLocals.init pg bp).size = int32OfNat bp.len :=
  rfl

/-- The skip leaves the offset inside the first page. -/
theorem IoapplyLocals.init_offset_lt (pg : PageGeom) (bp : ApfsBuf) :
    (IoapplyLocals.init pg bp).offset < pg.size := by
  show (skipPages pg bp.offset 0 bp.offset).2 < pg.size
  rw [skipPages_eq pg bp.offset 0 bp.offset le_rfl]
  exact Nat.mod_lt _ pg.size_pos

/-- From a positive byte count and an offset inside the page, a pass of the
page loop moves on by at least one byte and at most what is left.  From a
negative count, `nbytes` is the count itself, which leaves 0. -/
theorem addPages_nbytes {pg : PageGeom} {l : IoapplyLocals} (hoff : l.offset < pg.size) :
    (0 < l.size → 0 < min ((pg.size : Int) - l.offset) l.size ∧
      min ((pg.size : Int) - l.offset) l.size ≤ l.size) ∧
    (l.size < 0 → min ((pg.size : Int) - l.offset) l.size = l.size) := by
  omega

/-- From a count of bytes left that is not negative, the page loop leaves a
count between 0 and where it started. -/
theorem addPages_size_mem (pg : PageGeom) :
    ∀ (nrPages accept : Nat) (l : IoapplyLocals), l.offset < pg.size → 0 ≤ l.size →
      0 ≤ (addPages pg nrPages accept l).2.size ∧ (addPages pg nrPages accept l).2.size ≤ l.size
  | 0, _, _, _, h => ⟨h, Int.le_refl _⟩
  | nrPages + 1, accept, l, hoff, h => by
    unfold addPages
    split
    · exact ⟨h, Int.le_refl _⟩
    · rename_i hne
      obtain ⟨hpos, -⟩ := addPages_nbytes hoff
      obtain ⟨hlo, hhi⟩ := hpos (by omega)
      have ih := fun a => addPages_size_mem pg nrPages a (l.advance (min ((pg.size : Int) - l.offset) l.size))
        (by rw [IoapplyLocals.advance_offset]; exact pg.size_pos) (by rw [IoapplyLocals.advance_size]; omega)
      rcases accept with _ | accept
      · dsimp only
        rw [if_pos hlo]
        exact ⟨h, Int.le_refl _⟩
      · have := ih accept
        rw [IoapplyLocals.advance_size] at this
        dsimp only
        exact ⟨this.1, by omega⟩

/-- A chunk that added a segment and left bytes to do made the count smaller,
and it is still positive: the page loop only goes back to `next_chunk:` after
progress. -/
theorem addPages_goto (pg : PageGeom) :
    ∀ (nrPages accept : Nat) (l : IoapplyLocals), l.offset < pg.size →
      (addPages pg nrPages accept l).1 ≠ [] → (addPages pg nrPages accept l).2.size ≠ 0 →
      0 < (addPages pg nrPages accept l).2.size ∧ (addPages pg nrPages accept l).2.size < l.size
  | 0, _, _, _, hseg, _ => absurd rfl hseg
  | nrPages + 1, accept, l, hoff, hseg, hleft => by
    by_cases hne : l.size = 0
    · rw [addPages_of_size_eq_zero pg hne] at hseg
      exact absurd rfl hseg
    unfold addPages at hseg hleft ⊢
    rw [if_neg hne] at hseg hleft ⊢
    obtain ⟨hpos, hneg⟩ := addPages_nbytes hoff
    have hadv : (l.advance (min ((pg.size : Int) - l.offset) l.size)).offset < pg.size := by
      rw [IoapplyLocals.advance_offset]
      exact pg.size_pos
    rcases Int.lt_or_gt_of_ne hne with hlt | hgt
    · -- a negative count: the pass leaves 0 and the loop stops there
      have hzero : (l.advance (min ((pg.size : Int) - l.offset) l.size)).size = 0 := by
        rw [IoapplyLocals.advance_size, hneg hlt, Int.sub_self]
      rcases accept with _ | accept <;> dsimp only at hseg hleft ⊢
      · rw [if_neg (by omega), addPages_of_size_eq_zero pg hzero] at hseg
        exact absurd rfl hseg
      · rw [addPages_of_size_eq_zero pg hzero] at hleft
        exact absurd hzero hleft
    · obtain ⟨hlo, hhi⟩ := hpos hgt
      rcases accept with _ | accept <;> dsimp only at hseg hleft ⊢
      · rw [if_pos hlo] at hseg
        exact absurd rfl hseg
      · have := addPages_size_mem pg nrPages accept _ hadv
          (by rw [IoapplyLocals.advance_size]; omega)
        rw [IoapplyLocals.advance_size] at this
        omega

end Apfs
