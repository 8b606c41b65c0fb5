import Apfs.Endian

/-!
# Paged member accessors

`struct-funcs.c` reads and writes the integer members of an extent buffer.
The buffer's bytes live in pages that are not contiguous in memory, but every
caller names a member by its linear offset in `[0, len)`.  Each accessor
resolves that offset to a page and an in-page offset, loads or stores in place
when the member fits in the page, and otherwise splits the member across the
page end through an on-stack staging buffer.  The token variants cache the
page they resolved last and skip the resolution when the next member falls in
that page.

Offsets are `unsigned long`: the member offset is reduced modulo `2 ^ 64` as
the code's addition is, and the page arithmetic after it is exact, which it is
in the code for every member inside a buffer.

Main results:

- Theorem {lit}`apfsGet_toNat`: a load returns the little-endian value of the
  member's bytes in the buffer's linear image, in both branches.
- Theorem {lit}`image_apfsSet`: a store replaces exactly the member's bytes of
  the linear image with the little-endian encoding of the value.
- Theorem {lit}`apfs_setget_linear_image`: the two together, the bounds the
  accessors assert, the frame on pages past the buffer, and the derived
  load-after-store and disjoint-store laws.
- Theorems {lit}`apfs_set_of_get_keeps_image` and
  {lit}`apfs_set_stores_compose`: storing a loaded value changes nothing, a
  second store to a member replaces the first, and stores to disjoint members
  commute.
- Theorem {lit}`apfs_token_run_refines_plain`: along any sequence of token
  calls the token stays on a page of the buffer at that page's offset, and
  every call returns and stores what the plain accessor would.
-/

namespace Apfs

/-! ## Pages and extent buffers -/

/-- The kernel's page geometry, `PAGE_SIZE = 1 << PAGE_SHIFT`.  Every
architecture has pages of at least 4 KiB, which is what lets a member of at
most eight bytes span no more than two pages. -/
structure PageGeom where
  shift : Nat
  twelve_le_shift : 12 ≤ shift

namespace PageGeom

variable (pg : PageGeom)

/-- `PAGE_SIZE`. -/
def size : Nat :=
  2 ^ pg.shift

theorem size_pos : 0 < pg.size :=
  Nat.two_pow_pos _

theorem eight_le_size : 8 ≤ pg.size :=
  calc 8 = 2 ^ 3 := rfl
    _ ≤ 2 ^ pg.shift := Nat.pow_le_pow_right (by decide) (Nat.le_trans (by decide) pg.twelve_le_shift)

end PageGeom

/-- The four instantiations of `DEFINE_APFS_SETGET_BITS`. -/
inductive Width
  | w8
  | w16
  | w32
  | w64
deriving DecidableEq, Repr

/-- `sizeof(u##bits)`. -/
def Width.size : Width → Nat
  | .w8 => 1
  | .w16 => 2
  | .w32 => 4
  | .w64 => 8

theorem Width.size_pos (w : Width) : 0 < w.size := by
  cases w <;> decide

theorem Width.size_le_eight (w : Width) : w.size ≤ 8 := by
  cases w <;> decide

/-- The fields of `struct extent_buffer` that the accessors use: the block's
byte address on disk, its length, and its pages, each a map from in-page
offset to byte.  The map is total, so bytes past `len` are not the
buffer's: the checker's results state a load there as a logged access, and
none depends on the bytes such a load returns. -/
structure ExtentBuffer where
  start : Nat
  len : Nat
  pages : Nat → Nat → UInt8

variable (pg : PageGeom)

/-- The linear image of a page array: byte `j` is byte `j mod PAGE_SIZE` of
page `j / PAGE_SIZE`. -/
def linearImage (pages : Nat → Nat → UInt8) (j : Nat) : UInt8 :=
  pages (j / pg.size) (j % pg.size)

/-- The buffer's bytes as one linear range. -/
def ExtentBuffer.image (eb : ExtentBuffer) : Nat → UInt8 :=
  linearImage pg eb.pages

/-- `DIV_ROUND_UP(len, PAGE_SIZE)`: the number of pages backing the buffer. -/
def ExtentBuffer.numPages (eb : ExtentBuffer) : Nat :=
  (eb.len + pg.size - 1) / pg.size

/-- `(unsigned long)ptr + off`, the member's linear offset. -/
def memberOffset (ptr off : Nat) : Nat :=
  (ptr + off) % 2 ^ 64

/-- Modelled from the spec: `get_eb_page_index`, which is declared outside the
sources; the page holding a linear offset, `offset >> PAGE_SHIFT`. -/
def getEbPageIndex (offset : Nat) : Nat :=
  offset >>> pg.shift

/-- Modelled from the spec: `get_eb_offset_in_page`, which is declared outside
the sources; the in-page offset of a linear offset, `offset_in_page(eb->start +
offset)`. -/
def getEbOffsetInPage (eb : ExtentBuffer) (offset : Nat) : Nat :=
  (eb.start + offset) % pg.size

/-- `check_setget_bounds`: the member `[ptr + off, ptr + off + size)` lies in
the buffer. -/
def checkSetgetBounds (eb : ExtentBuffer) (ptr off size : Nat) : Bool :=
  let memberOffset := memberOffset ptr off
  if memberOffset > eb.len then false
  else if memberOffset + size > eb.len then false
  else true

/-- `memcpy` of `n` bytes out of a page, from in-page offset `o`. -/
def readPage (page : Nat → UInt8) (o n : Nat) : List UInt8 :=
  byteRange page o n

/-- `memcpy` of `bytes` into page `i` at in-page offset `o`. -/
def writePage (pages : Nat → Nat → UInt8) (i o : Nat) (bytes : List UInt8) :
    Nat → Nat → UInt8 :=
  Function.update pages i fun j =>
    if o ≤ j ∧ j < o + bytes.length then bytes.getD (j - o) 0 else pages i j

/-! ## The plain accessors -/

/-- `apfs_get_##bits`: load the member at `ptr + off` in place when it fits in
its page, else copy its two parts into `lebytes` and load from there. -/
def apfsGet (w : Width) (eb : ExtentBuffer) (ptr off : Nat) : BitVec (8 * w.size) :=
  let memberOffset := memberOffset ptr off
  let oip := getEbOffsetInPage pg eb memberOffset
  let idx := getEbPageIndex pg memberOffset
  let size := w.size
  let part := pg.size - oip
  if oip + size ≤ pg.size then
    BitVec.ofNat _ (leValue (readPage (eb.pages idx) oip size))
  else
    let lebytes := readPage (eb.pages idx) oip part ++ readPage (eb.pages (idx + 1)) 0 (size - part)
    BitVec.ofNat _ (leValue lebytes)

/-- `apfs_set_##bits`: store the member at `ptr + off` in place when it fits in
its page, else encode it into `lebytes` and copy the two parts out. -/
def apfsSet (w : Width) (eb : ExtentBuffer) (ptr off : Nat) (val : BitVec (8 * w.size)) :
    ExtentBuffer :=
  let memberOffset := memberOffset ptr off
  let oip := getEbOffsetInPage pg eb memberOffset
  let idx := getEbPageIndex pg memberOffset
  let size := w.size
  let part := pg.size - oip
  let lebytes := leBytes size val.toNat
  if oip + size ≤ pg.size then
    { eb with pages := writePage eb.pages idx oip lebytes }
  else
    let pages := writePage eb.pages idx oip (lebytes.take part)
    { eb with pages := writePage pages (idx + 1) 0 (lebytes.drop part) }

/-- `apfs_get_8`. -/
def apfsGet8 (eb : ExtentBuffer) (ptr off : Nat) : BitVec 8 :=
  apfsGet pg .w8 eb ptr off

/-- `apfs_get_16`. -/
def apfsGet16 (eb : ExtentBuffer) (ptr off : Nat) : BitVec 16 :=
  apfsGet pg .w16 eb ptr off

/-- `apfs_get_32`. -/
def apfsGet32 (eb : ExtentBuffer) (ptr off : Nat) : BitVec 32 :=
  apfsGet pg .w32 eb ptr off

/-- `apfs_get_64`. -/
def apfsGet64 (eb : ExtentBuffer) (ptr off : Nat) : BitVec 64 :=
  apfsGet pg .w64 eb ptr off

/-- `apfs_set_8`. -/
def apfsSet8 (eb : ExtentBuffer) (ptr off : Nat) (val : BitVec 8) : ExtentBuffer :=
  apfsSet pg .w8 eb ptr off val

/-- `apfs_set_16`. -/
def apfsSet16 (eb : ExtentBuffer) (ptr off : Nat) (val : BitVec 16) : ExtentBuffer :=
  apfsSet pg .w16 eb ptr off val

/-- `apfs_set_32`. -/
def apfsSet32 (eb : ExtentBuffer) (ptr off : Nat) (val : BitVec 32) : ExtentBuffer :=
  apfsSet pg .w32 eb ptr off val

/-- `apfs_set_64`. -/
def apfsSet64 (eb : ExtentBuffer) (ptr off : Nat) (val : BitVec 64) : ExtentBuffer :=
  apfsSet pg .w64 eb ptr off val

/-! ## The token accessors -/

/-- `struct apfs_map_token`: the page the token resolved last, as its index in
`eb->pages` (the code only ever stores `page_address(eb->pages[i])` in
`kaddr`), and the linear offset the token believes that page starts at. -/
structure MapToken where
  kaddr : Nat
  offset : Nat
deriving DecidableEq, Repr

/-- `apfs_get_token_##bits`: load from the cached page when the member lies in
`[token->offset, token->offset + PAGE_SIZE)`, else resolve the page, leaving
the token on the last page touched. -/
def apfsGetToken (w : Width) (eb : ExtentBuffer) (token : MapToken) (ptr off : Nat) :
    BitVec (8 * w.size) × MapToken :=
  let memberOffset := memberOffset ptr off
  let idx := getEbPageIndex pg memberOffset
  let oip := getEbOffsetInPage pg eb memberOffset
  let size := w.size
  let part := pg.size - oip
  if token.offset ≤ memberOffset ∧ memberOffset + size ≤ token.offset + pg.size then
    (BitVec.ofNat _ (leValue (readPage (eb.pages token.kaddr) oip size)), token)
  else
    let token : MapToken := ⟨idx, idx <<< pg.shift⟩
    if oip + size ≤ pg.size then
      (BitVec.ofNat _ (leValue (readPage (eb.pages token.kaddr) oip size)), token)
    else
      let first := readPage (eb.pages token.kaddr) oip part
      let token : MapToken := ⟨idx + 1, (idx + 1) <<< pg.shift⟩
      (BitVec.ofNat _ (leValue (first ++ readPage (eb.pages token.kaddr) 0 (size - part))), token)

/-- `apfs_set_token_##bits`: store into the cached page when the member lies in
it, else resolve the page, leaving the token on the last page touched. -/
def apfsSetToken (w : Width) (eb : ExtentBuffer) (token : MapToken) (ptr off : Nat)
    (val : BitVec (8 * w.size)) : ExtentBuffer × MapToken :=
  let memberOffset := memberOffset ptr off
  let idx := getEbPageIndex pg memberOffset
  let oip := getEbOffsetInPage pg eb memberOffset
  let size := w.size
  let part := pg.size - oip
  let lebytes := leBytes size val.toNat
  if token.offset ≤ memberOffset ∧ memberOffset + size ≤ token.offset + pg.size then
    ({ eb with pages := writePage eb.pages token.kaddr oip lebytes }, token)
  else
    let token : MapToken := ⟨idx, idx <<< pg.shift⟩
    if oip + size ≤ pg.size then
      ({ eb with pages := writePage eb.pages token.kaddr oip lebytes }, token)
    else
      let pages := writePage eb.pages token.kaddr oip (lebytes.take part)
      let token : MapToken := ⟨idx + 1, (idx + 1) <<< pg.shift⟩
      ({ eb with pages := writePage pages token.kaddr 0 (lebytes.drop part) }, token)

/-- `apfs_get_token_8`. -/
def apfsGetToken8 (eb : ExtentBuffer) (token : MapToken) (ptr off : Nat) : BitVec 8 × MapToken :=
  apfsGetToken pg .w8 eb token ptr off

/-- `apfs_get_token_16`. -/
def apfsGetToken16 (eb : ExtentBuffer) (token : MapToken) (ptr off : Nat) :
    BitVec 16 × MapToken :=
  apfsGetToken pg .w16 eb token ptr off

/-- `apfs_get_token_32`. -/
def apfsGetToken32 (eb : ExtentBuffer) (token : MapToken) (ptr off : Nat) :
    BitVec 32 × MapToken :=
  apfsGetToken pg .w32 eb token ptr off

/-- `apfs_get_token_64`. -/
def apfsGetToken64 (eb : ExtentBuffer) (token : MapToken) (ptr off : Nat) :
    BitVec 64 × MapToken :=
  apfsGetToken pg .w64 eb token ptr off

/-- `apfs_set_token_8`. -/
def apfsSetToken8 (eb : ExtentBuffer) (token : MapToken) (ptr off : Nat) (val : BitVec 8) :
    ExtentBuffer × MapToken :=
  apfsSetToken pg .w8 eb token ptr off val

/-- `apfs_set_token_16`. -/
def apfsSetToken16 (eb : ExtentBuffer) (token : MapToken) (ptr off : Nat) (val : BitVec 16) :
    ExtentBuffer × MapToken :=
  apfsSetToken pg .w16 eb token ptr off val

/-- `apfs_set_token_32`. -/
def apfsSetToken32 (eb : ExtentBuffer) (token : MapToken) (ptr off : Nat) (val : BitVec 32) :
    ExtentBuffer × MapToken :=
  apfsSetToken pg .w32 eb token ptr off val

/-- `apfs_set_token_64`. -/
def apfsSetToken64 (eb : ExtentBuffer) (token : MapToken) (ptr off : Nat) (val : BitVec 64) :
    ExtentBuffer × MapToken :=
  apfsSetToken pg .w64 eb token ptr off val

/-! ## Page arithmetic -/

theorem getEbPageIndex_eq (offset : Nat) : getEbPageIndex pg offset = offset / pg.size :=
  Nat.shiftRight_eq_div_pow offset pg.shift

theorem getEbOffsetInPage_eq {eb : ExtentBuffer} (halign : eb.start % pg.size = 0)
    (offset : Nat) : getEbOffsetInPage pg eb offset = offset % pg.size := by
  simp [getEbOffsetInPage, Nat.add_mod, halign]

/-- A linear offset lies in page `i` exactly when it is in
`[i * PAGE_SIZE, i * PAGE_SIZE + PAGE_SIZE)`. -/
theorem div_size_eq_iff {i j : Nat} :
    j / pg.size = i ↔ i * pg.size ≤ j ∧ j < i * pg.size + pg.size := by
  constructor
  · rintro rfl
    exact ⟨Nat.div_mul_le_self j pg.size, Nat.lt_div_mul_add pg.size_pos⟩
  · rintro ⟨h1, h2⟩
    exact Nat.div_eq_of_lt_le h1 (by rw [Nat.succ_mul]; exact h2)

/-- Page `i` backs the buffer exactly when it starts before the buffer's end. -/
theorem lt_numPages_iff {eb : ExtentBuffer} {i : Nat} :
    i < eb.numPages pg ↔ i * pg.size < eb.len := by
  have hP := pg.size_pos
  rw [ExtentBuffer.numPages, ← Nat.add_one_le_iff, Nat.le_div_iff_mul_le hP, Nat.succ_mul]
  omega

theorem getD_take_of_lt {l : List UInt8} {p k : Nat} (h : k < p) :
    (l.take p).getD k 0 = l.getD k 0 := by
  simp [List.getD_eq_getElem?_getD, List.getElem?_take, h]

theorem getD_drop (l : List UInt8) (p k : Nat) : (l.drop p).getD k 0 = l.getD (p + k) 0 := by
  simp [List.getD_eq_getElem?_getD, List.getElem?_drop]

/-- An in-page copy out of page `i` reads the linear image. -/
theorem readPage_eq_byteRange (pages : Nat → Nat → UInt8) {i o n : Nat}
    (h : o + n ≤ pg.size) :
    readPage (pages i) o n = byteRange (linearImage pg pages) (i * pg.size + o) n := by
  refine List.ext_getElem (by simp [readPage]) fun j h1 _ => ?_
  simp only [readPage, length_byteRange] at h1
  have hdiv : (i * pg.size + o + j) / pg.size = i := (div_size_eq_iff pg).2 ⟨by omega, by omega⟩
  have hmod := Nat.div_add_mod' (i * pg.size + o + j) pg.size
  rw [hdiv] at hmod
  simp only [readPage, getElem_byteRange, linearImage, hdiv]
  congr 1
  omega

/-- An in-page copy of `bytes` into page `i` at `o` replaces exactly the linear
range that starts at `i * PAGE_SIZE + o`. -/
theorem linearImage_writePage (pages : Nat → Nat → UInt8) {i o : Nat} {bytes : List UInt8}
    (h : o + bytes.length ≤ pg.size) (j : Nat) :
    linearImage pg (writePage pages i o bytes) j =
      if i * pg.size + o ≤ j ∧ j < i * pg.size + o + bytes.length then
        bytes.getD (j - (i * pg.size + o)) 0
      else linearImage pg pages j := by
  have hmod := Nat.div_add_mod' j pg.size
  by_cases hq : j / pg.size = i
  · have hrange := (div_size_eq_iff pg).1 hq
    simp only [linearImage, writePage, hq, Function.update_same]
    rw [hq] at hmod
    split_ifs <;> first | omega | rfl | (congr 1; omega)
  · have hout : ¬(i * pg.size + o ≤ j ∧ j < i * pg.size + o + bytes.length) :=
      fun hin => hq ((div_size_eq_iff pg).2 ⟨by omega, by omega⟩)
    simp only [linearImage, writePage, Function.update_noteq hq, if_neg hout]

/-! ## The plain accessors read and write the linear image -/

/-- The value a plain load returns, for a buffer that starts on a page
boundary: the little-endian value of the member's bytes. -/
theorem apfsGet_toNat (w : Width) {eb : ExtentBuffer} (halign : eb.start % pg.size = 0)
    (ptr off : Nat) :
    (apfsGet pg w eb ptr off).toNat =
      leValue (byteRange (eb.image pg) (memberOffset ptr off) w.size) := by
  have hP := pg.eight_le_size
  have hw := w.size_le_eight
  simp only [apfsGet, getEbPageIndex_eq, getEbOffsetInPage_eq pg halign]
  generalize memberOffset ptr off = m
  have hm := Nat.div_add_mod' m pg.size
  have hoip := Nat.mod_lt m pg.size_pos
  split
  · rw [BitVec.toNat_ofNat, Nat.mod_eq_of_lt (leValue_lt_two_pow (by simp [readPage])),
      readPage_eq_byteRange pg _ ‹_›, hm, ExtentBuffer.image]
  · have hsplit : w.size = (pg.size - m % pg.size) + (w.size - (pg.size - m % pg.size)) := by
      omega
    have hnext : (m / pg.size + 1) * pg.size + 0 = m + (pg.size - m % pg.size) := by
      rw [Nat.succ_mul]; omega
    rw [BitVec.toNat_ofNat, Nat.mod_eq_of_lt (leValue_lt_two_pow (by simp [readPage]; omega)),
      readPage_eq_byteRange pg _ (by omega), readPage_eq_byteRange pg _ (by omega), hnext, hm,
      ← byteRange_add, ← hsplit, ExtentBuffer.image]

/-- What a plain store leaves in the linear image of a buffer that starts on a
page boundary: the member's bytes hold the encoding of the value, every other
byte is unchanged. -/
theorem image_apfsSet (w : Width) {eb : ExtentBuffer} (halign : eb.start % pg.size = 0)
    (ptr off : Nat) (val : BitVec (8 * w.size)) (j : Nat) :
    (apfsSet pg w eb ptr off val).image pg j =
      if memberOffset ptr off ≤ j ∧ j < memberOffset ptr off + w.size then
        (leBytes w.size val.toNat).getD (j - memberOffset ptr off) 0
      else eb.image pg j := by
  have hP := pg.eight_le_size
  have hw := w.size_le_eight
  simp only [apfsSet, getEbPageIndex_eq, getEbOffsetInPage_eq pg halign, ExtentBuffer.image]
  generalize memberOffset ptr off = m
  have hm := Nat.div_add_mod' m pg.size
  have hoip := Nat.mod_lt m pg.size_pos
  split
  · rw [linearImage_writePage pg _ (by simpa using ‹_›), hm, length_leBytes]
  · have hnext : (m / pg.size + 1) * pg.size = m / pg.size * pg.size + pg.size := Nat.succ_mul _ _
    rw [linearImage_writePage pg _ (by simp; omega), linearImage_writePage pg _ (by simp; omega)]
    simp only [List.length_drop, List.length_take, length_leBytes, hnext]
    split_ifs <;> first
      | omega
      | rfl
      | (rw [getD_drop]; congr 1; omega)
      | (rw [getD_take_of_lt (by omega)]; congr 1; omega)

@[simp]
theorem apfsSet_start (w : Width) (eb : ExtentBuffer) (ptr off : Nat) (val : BitVec (8 * w.size)) :
    (apfsSet pg w eb ptr off val).start = eb.start := by
  simp only [apfsSet]
  split <;> rfl

@[simp]
theorem apfsSet_len (w : Width) (eb : ExtentBuffer) (ptr off : Nat) (val : BitVec (8 * w.size)) :
    (apfsSet pg w eb ptr off val).len = eb.len := by
  simp only [apfsSet]
  split <;> rfl

/-- `check_setget_bounds` holds exactly when the member ends inside the buffer. -/
theorem checkSetgetBounds_iff (eb : ExtentBuffer) (ptr off size : Nat) :
    checkSetgetBounds eb ptr off size = true ↔ memberOffset ptr off + size ≤ eb.len := by
  simp only [checkSetgetBounds]
  split_ifs <;> simp <;> omega

theorem byteRange_eq_of_getD {img : Nat → UInt8} {o n : Nat} {bytes : List UInt8}
    (hlen : bytes.length = n) (h : ∀ j, j < n → img (o + j) = bytes.getD j 0) :
    byteRange img o n = bytes := by
  refine List.ext_getElem (by simp [hlen]) fun j h1 h2 => ?_
  rw [getElem_byteRange, h j (by simpa using h1), List.getD_eq_getElem?_getD,
    List.getElem?_eq_getElem h2, Option.getD_some]

/-- A load of a member inside the buffer depends only on the pages backing the
buffer. -/
theorem apfsGet_congr_pages (w : Width) {eb eb' : ExtentBuffer}
    (halign : eb.start % pg.size = 0) (hstart : eb'.start = eb.start)
    (hpages : ∀ i, i < eb.numPages pg → eb'.pages i = eb.pages i) {ptr off : Nat}
    (hin : memberOffset ptr off + w.size ≤ eb.len) :
    apfsGet pg w eb' ptr off = apfsGet pg w eb ptr off := by
  refine BitVec.eq_of_toNat_eq ?_
  rw [apfsGet_toNat pg w (hstart ▸ halign), apfsGet_toNat pg w halign]
  congr 1
  refine List.ext_getElem (by simp) fun j h1 _ => ?_
  simp only [length_byteRange] at h1
  have hpage : (memberOffset ptr off + j) / pg.size < eb.numPages pg :=
    (lt_numPages_iff pg).2 (by
      have := Nat.div_mul_le_self (memberOffset ptr off + j) pg.size
      omega)
  simp only [getElem_byteRange, ExtentBuffer.image, linearImage, hpages _ hpage]

/-- A store to a member inside the buffer leaves every page past the buffer
alone. -/
theorem apfsSet_pages_of_numPages_le (w : Width) {eb : ExtentBuffer}
    (halign : eb.start % pg.size = 0) {ptr off : Nat} (val : BitVec (8 * w.size))
    (hin : memberOffset ptr off + w.size ≤ eb.len) {i : Nat} (hi : eb.numPages pg ≤ i) :
    (apfsSet pg w eb ptr off val).pages i = eb.pages i := by
  have hw := w.size_pos
  simp only [apfsSet, getEbPageIndex_eq, getEbOffsetInPage_eq pg halign] at hin ⊢
  generalize memberOffset ptr off = m at hin ⊢
  have hm := Nat.div_add_mod' m pg.size
  have hidx : m / pg.size ≠ i := fun h =>
    absurd ((lt_numPages_iff pg).2 (by omega : m / pg.size * pg.size < eb.len)) (by omega)
  split
  · exact Function.update_noteq hidx.symm _ _
  · rename_i hstraddle
    have hnext : m / pg.size + 1 ≠ i := fun h => by
      have : (m / pg.size + 1) * pg.size < eb.len := by rw [Nat.succ_mul]; omega
      exact absurd ((lt_numPages_iff pg).2 this) (by omega)
    simp only [writePage, Function.update_noteq hnext.symm, Function.update_noteq hidx.symm]

/-- A load after a store of the same member returns the stored value. -/
theorem apfsGet_apfsSet_self (w : Width) {eb : ExtentBuffer} (halign : eb.start % pg.size = 0)
    (ptr off : Nat) (val : BitVec (8 * w.size)) :
    apfsGet pg w (apfsSet pg w eb ptr off val) ptr off = val := by
  refine BitVec.eq_of_toNat_eq ?_
  have hval : val.toNat < 256 ^ w.size := by
    rw [show (256 : Nat) = 2 ^ 8 from rfl, ← Nat.pow_mul]
    exact val.isLt
  rw [apfsGet_toNat pg w (by simpa using halign),
    byteRange_eq_of_getD (length_leBytes w.size val.toNat) fun j hj => ?_, leValue_leBytes,
    Nat.mod_eq_of_lt hval]
  rw [image_apfsSet pg w halign, if_pos (by omega), Nat.add_sub_cancel_left]

/-- A store leaves every load of a disjoint member unchanged. -/
theorem apfsGet_apfsSet_of_disjoint (w w' : Width) {eb : ExtentBuffer}
    (halign : eb.start % pg.size = 0) (ptr off ptr' off' : Nat) (val : BitVec (8 * w.size))
    (hdisj : memberOffset ptr' off' + w'.size ≤ memberOffset ptr off ∨
      memberOffset ptr off + w.size ≤ memberOffset ptr' off') :
    apfsGet pg w' (apfsSet pg w eb ptr off val) ptr' off' = apfsGet pg w' eb ptr' off' := by
  refine BitVec.eq_of_toNat_eq ?_
  rw [apfsGet_toNat pg w' (by simpa using halign), apfsGet_toNat pg w' halign]
  congr 1
  refine List.ext_getElem (by simp) fun j h1 _ => ?_
  simp only [length_byteRange] at h1
  simp only [getElem_byteRange, image_apfsSet pg w halign]
  rw [if_neg (by omega)]

/-- The plain accessors on a buffer that starts on a page boundary: for every
width, member inside the buffer and value, the asserted bounds hold; a load is
the little-endian value of the member's bytes of the linear image and a store
replaces exactly those bytes; a load reads, and a store writes, no page past
the buffer; and a load after a store returns the value for the same member and
the old value for a disjoint one. -/
theorem apfs_setget_linear_image (w : Width) (eb : ExtentBuffer)
    (halign : eb.start % pg.size = 0) (ptr off : Nat) (val : BitVec (8 * w.size))
    (hin : memberOffset ptr off + w.size ≤ eb.len) :
    checkSetgetBounds eb ptr off w.size = true ∧
    (apfsGet pg w eb ptr off).toNat =
      leValue (byteRange (eb.image pg) (memberOffset ptr off) w.size) ∧
    (∀ j, (apfsSet pg w eb ptr off val).image pg j =
      if memberOffset ptr off ≤ j ∧ j < memberOffset ptr off + w.size then
        (leBytes w.size val.toNat).getD (j - memberOffset ptr off) 0
      else eb.image pg j) ∧
    (∀ eb' : ExtentBuffer, eb'.start = eb.start →
      (∀ i, i < eb.numPages pg → eb'.pages i = eb.pages i) →
      apfsGet pg w eb' ptr off = apfsGet pg w eb ptr off) ∧
    (∀ i, eb.numPages pg ≤ i → (apfsSet pg w eb ptr off val).pages i = eb.pages i) ∧
    apfsGet pg w (apfsSet pg w eb ptr off val) ptr off = val ∧
    ∀ (w' : Width) (ptr' off' : Nat),
      memberOffset ptr' off' + w'.size ≤ memberOffset ptr off ∨
        memberOffset ptr off + w.size ≤ memberOffset ptr' off' →
      apfsGet pg w' (apfsSet pg w eb ptr off val) ptr' off' = apfsGet pg w' eb ptr' off' :=
  ⟨(checkSetgetBounds_iff eb ptr off w.size).2 hin, apfsGet_toNat pg w halign ptr off,
    image_apfsSet pg w halign ptr off val,
    fun _ hstart hpages => apfsGet_congr_pages pg w halign hstart hpages hin,
    fun _ hi => apfsSet_pages_of_numPages_le pg w halign val hin hi,
    apfsGet_apfsSet_self pg w halign ptr off val,
    fun w' ptr' off' hdisj => apfsGet_apfsSet_of_disjoint pg w w' halign ptr off ptr' off' val hdisj⟩

/-- A 4 KiB-page buffer of two pages and a 32-bit member straddling its page
boundary: the bounds hold, and loading after storing returns the value. -/
theorem apfs_setget_straddle_two_pages :
    (0 % (⟨12, le_refl 12⟩ : PageGeom).size = 0 ∧ memberOffset 4094 0 + Width.w32.size ≤ 8192) ∧
      apfsGet ⟨12, le_refl 12⟩ .w32
        (apfsSet ⟨12, le_refl 12⟩ .w32 ⟨0, 8192, fun _ _ => 0⟩ 4094 0 0x12345678) 4094 0 =
        0x12345678 :=
  ⟨⟨by decide, by decide⟩,
    (apfs_setget_linear_image ⟨12, le_refl 12⟩ .w32 ⟨0, 8192, fun _ _ => 0⟩ (by decide) 4094 0
      0x12345678 (by decide)).2.2.2.2.2.1⟩

/-! ## Stores compose -/

/-- Storing the value just loaded from a member leaves the buffer's linear
image as it was, in both branches of the accessors. -/
theorem apfs_set_of_get_keeps_image (w : Width) (eb : ExtentBuffer)
    (halign : eb.start % pg.size = 0) (ptr off : Nat) :
    (apfsSet pg w eb ptr off (apfsGet pg w eb ptr off)).image pg = eb.image pg := by
  funext j
  rw [image_apfsSet pg w halign, apfsGet_toNat pg w halign]
  split_ifs with hj
  · have hbytes := leBytes_leValue (byteRange (eb.image pg) (memberOffset ptr off) w.size)
    rw [length_byteRange] at hbytes
    rw [hbytes, getD_byteRange _ _ _ (by omega), Nat.add_sub_cancel' hj.1]
  · rfl

/-- A buffer of two 4 KiB pages, and a 32-bit member that straddles them. -/
theorem apfs_set_of_get_keeps_image_straddle :
    (apfsSet ⟨12, le_refl 12⟩ .w32 ⟨0, 8192, fun i j => UInt8.ofNat (i + j)⟩ 4094 0
        (apfsGet ⟨12, le_refl 12⟩ .w32 ⟨0, 8192, fun i j => UInt8.ofNat (i + j)⟩ 4094 0)).image
        ⟨12, le_refl 12⟩ =
      (⟨0, 8192, fun i j => UInt8.ofNat (i + j)⟩ : ExtentBuffer).image ⟨12, le_refl 12⟩ :=
  apfs_set_of_get_keeps_image ⟨12, le_refl 12⟩ .w32 _ (by decide) 4094 0

/-- Two stores compose on the linear image: a second store to a member
replaces the first, and stores to disjoint members commute, whether either
straddles a page boundary or not. -/
theorem apfs_set_stores_compose (w w' : Width) (eb : ExtentBuffer)
    (halign : eb.start % pg.size = 0) (ptr off ptr' off' : Nat)
    (val val₂ : BitVec (8 * w.size)) (val' : BitVec (8 * w'.size)) :
    (apfsSet pg w (apfsSet pg w eb ptr off val) ptr off val₂).image pg =
        (apfsSet pg w eb ptr off val₂).image pg ∧
      (memberOffset ptr' off' + w'.size ≤ memberOffset ptr off ∨
          memberOffset ptr off + w.size ≤ memberOffset ptr' off' →
        (apfsSet pg w' (apfsSet pg w eb ptr off val) ptr' off' val').image pg =
          (apfsSet pg w (apfsSet pg w' eb ptr' off' val') ptr off val).image pg) := by
  have halign' : ∀ {w''} {e : ExtentBuffer} {p o} {v : BitVec (8 * Width.size w'')},
      e.start % pg.size = 0 → (apfsSet pg w'' e p o v).start % pg.size = 0 := by
    intro _ _ _ _ _ h
    rwa [apfsSet_start]
  refine ⟨funext fun j => ?_, fun hdisj => funext fun j => ?_⟩ <;>
    simp only [image_apfsSet pg _ (halign' halign), image_apfsSet pg _ halign]
  · split_ifs <;> rfl
  · split_ifs <;> first | rfl | omega

/-- A store to a member straddling two 4 KiB pages, then another store to the
member, and stores to the two halves of a 64-bit member. -/
theorem apfs_set_stores_compose_straddle :
    (apfsSet ⟨12, le_refl 12⟩ .w32 (apfsSet ⟨12, le_refl 12⟩ .w32 ⟨0, 8192, fun _ _ => 0⟩ 4094 0 1)
        4094 0 2).image ⟨12, le_refl 12⟩ =
        (apfsSet ⟨12, le_refl 12⟩ .w32 ⟨0, 8192, fun _ _ => 0⟩ 4094 0 2).image ⟨12, le_refl 12⟩ ∧
      (memberOffset 4098 0 + Width.w32.size ≤ memberOffset 4094 0 ∨
          memberOffset 4094 0 + Width.w32.size ≤ memberOffset 4098 0 →
        (apfsSet ⟨12, le_refl 12⟩ .w32 (apfsSet ⟨12, le_refl 12⟩ .w32 ⟨0, 8192, fun _ _ => 0⟩ 4094 0 1)
            4098 0 3).image ⟨12, le_refl 12⟩ =
          (apfsSet ⟨12, le_refl 12⟩ .w32
            (apfsSet ⟨12, le_refl 12⟩ .w32 ⟨0, 8192, fun _ _ => 0⟩ 4098 0 3) 4094 0 1).image
            ⟨12, le_refl 12⟩) :=
  apfs_set_stores_compose ⟨12, le_refl 12⟩ .w32 .w32 _ (by decide) 4094 0 4098 0 1 2 3

/-! ## The token accessors agree with the plain ones -/

/-- A token caches a page that backs the buffer, at that page's linear
offset. -/
def MapToken.Valid (eb : ExtentBuffer) (token : MapToken) : Prop :=
  token.kaddr < eb.numPages pg ∧ token.offset = token.kaddr * pg.size

theorem MapToken.valid_congr {eb eb' : ExtentBuffer} (hlen : eb'.len = eb.len)
    (token : MapToken) : token.Valid pg eb' ↔ token.Valid pg eb := by
  simp only [MapToken.Valid, ExtentBuffer.numPages, hlen]

/-- A token load from a valid token returns what the plain load returns and
leaves a valid token. -/
theorem apfsGetToken_spec (w : Width) {eb : ExtentBuffer} (halign : eb.start % pg.size = 0)
    {token : MapToken} (hv : token.Valid pg eb) {ptr off : Nat}
    (hin : memberOffset ptr off + w.size ≤ eb.len) :
    (apfsGetToken pg w eb token ptr off).1 = apfsGet pg w eb ptr off ∧
      (apfsGetToken pg w eb token ptr off).2.Valid pg eb := by
  obtain ⟨hk, ho⟩ := hv
  have hw := w.size_pos
  have hw8 := w.size_le_eight
  have hP := pg.eight_le_size
  simp only [apfsGetToken, apfsGet, getEbPageIndex_eq, getEbOffsetInPage_eq pg halign,
    Nat.shiftLeft_eq] at hin ⊢
  generalize memberOffset ptr off = m at hin ⊢
  have hm := Nat.div_add_mod' m pg.size
  have hidx : m / pg.size < eb.numPages pg := (lt_numPages_iff pg).2 (by omega)
  split
  · rename_i hfast
    have hq : m / pg.size = token.kaddr := (div_size_eq_iff pg).2 ⟨by omega, by omega⟩
    rw [hq] at hm
    exact ⟨by rw [if_pos (by omega), hq], hk, ho⟩
  · split
    · exact ⟨rfl, hidx, rfl⟩
    · refine ⟨rfl, (lt_numPages_iff pg).2 ?_, rfl⟩
      rw [Nat.succ_mul]
      omega

/-- A token store through a valid token stores what the plain store stores and
leaves a valid token. -/
theorem apfsSetToken_spec (w : Width) {eb : ExtentBuffer} (halign : eb.start % pg.size = 0)
    {token : MapToken} (hv : token.Valid pg eb) {ptr off : Nat} (val : BitVec (8 * w.size))
    (hin : memberOffset ptr off + w.size ≤ eb.len) :
    (apfsSetToken pg w eb token ptr off val).1 = apfsSet pg w eb ptr off val ∧
      (apfsSetToken pg w eb token ptr off val).2.Valid pg eb := by
  obtain ⟨hk, ho⟩ := hv
  have hw := w.size_pos
  have hw8 := w.size_le_eight
  have hP := pg.eight_le_size
  simp only [apfsSetToken, apfsSet, getEbPageIndex_eq, getEbOffsetInPage_eq pg halign,
    Nat.shiftLeft_eq] at hin ⊢
  generalize memberOffset ptr off = m at hin ⊢
  have hm := Nat.div_add_mod' m pg.size
  have hidx : m / pg.size < eb.numPages pg := (lt_numPages_iff pg).2 (by omega)
  split
  · rename_i hfast
    have hq : m / pg.size = token.kaddr := (div_size_eq_iff pg).2 ⟨by omega, by omega⟩
    rw [hq] at hm
    exact ⟨by rw [if_pos (by omega), hq], hk, ho⟩
  · split
    · exact ⟨rfl, hidx, rfl⟩
    · refine ⟨rfl, (lt_numPages_iff pg).2 ?_, rfl⟩
      rw [Nat.succ_mul]
      omega

/-- One call of the accessor family. -/
inductive MemberCall
  | get (w : Width) (ptr off : Nat)
  | set (w : Width) (ptr off : Nat) (val : BitVec (8 * w.size))

/-- The member a call names lies inside the buffer. -/
def MemberCall.InBounds (eb : ExtentBuffer) : MemberCall → Prop
  | .get w ptr off => memberOffset ptr off + w.size ≤ eb.len
  | .set w ptr off _ => memberOffset ptr off + w.size ≤ eb.len

/-- A plain call: what a load returns, and the buffer after the call. -/
def plainCall (eb : ExtentBuffer) : MemberCall → Option Nat × ExtentBuffer
  | .get w ptr off => (some (apfsGet pg w eb ptr off).toNat, eb)
  | .set w ptr off val => (none, apfsSet pg w eb ptr off val)

/-- A token call: what a load returns, and the buffer and token after the
call. -/
def tokenCall (eb : ExtentBuffer) (token : MapToken) :
    MemberCall → Option Nat × ExtentBuffer × MapToken
  | .get w ptr off =>
    let r := apfsGetToken pg w eb token ptr off
    (some r.1.toNat, eb, r.2)
  | .set w ptr off val =>
    let r := apfsSetToken pg w eb token ptr off val
    (none, r.1, r.2)

/-- A sequence of plain calls on one buffer, with the outcome of each. -/
def runPlain (eb : ExtentBuffer) : List MemberCall → List (Option Nat × ExtentBuffer)
  | [] => []
  | c :: cs => plainCall pg eb c :: runPlain (plainCall pg eb c).2 cs

/-- A sequence of token calls on one buffer and one token, with the outcome of
each. -/
def runToken (eb : ExtentBuffer) (token : MapToken) :
    List MemberCall → List (Option Nat × ExtentBuffer × MapToken)
  | [] => []
  | c :: cs =>
    tokenCall pg eb token c :: runToken (tokenCall pg eb token c).2.1 (tokenCall pg eb token c).2.2 cs

/-- One token call through a valid token behaves as the plain call and leaves a
valid token. -/
theorem tokenCall_spec {eb : ExtentBuffer} (halign : eb.start % pg.size = 0) {token : MapToken}
    (hv : token.Valid pg eb) {c : MemberCall} (hin : c.InBounds eb) :
    ((tokenCall pg eb token c).1, (tokenCall pg eb token c).2.1) = plainCall pg eb c ∧
      (tokenCall pg eb token c).2.2.Valid pg (tokenCall pg eb token c).2.1 := by
  cases c with
  | get w ptr off =>
    obtain ⟨hval, htok⟩ := apfsGetToken_spec pg w halign hv hin
    exact ⟨by simp [tokenCall, plainCall, hval], htok⟩
  | set w ptr off val =>
    obtain ⟨heb, htok⟩ := apfsSetToken_spec pg w halign hv val hin
    refine ⟨by simp [tokenCall, plainCall, heb], ?_⟩
    simpa [tokenCall, heb, MapToken.valid_congr pg (apfsSet_len pg w eb ptr off val)] using htok

/-- Along a run of token calls from a valid token, every call behaves as the
plain call on the buffer as it is at that point, and every token left behind is
valid. -/
theorem runToken_spec {eb : ExtentBuffer} (halign : eb.start % pg.size = 0) {token : MapToken}
    (hv : token.Valid pg eb) {calls : List MemberCall} (hin : ∀ c ∈ calls, c.InBounds eb) :
    (runToken pg eb token calls).map (fun r => (r.1, r.2.1)) = runPlain pg eb calls ∧
      ∀ r ∈ runToken pg eb token calls, r.2.2.Valid pg r.2.1 := by
  induction calls generalizing eb token with
  | nil => simp [runToken, runPlain]
  | cons c cs ih =>
    obtain ⟨hstep, hvalid⟩ := tokenCall_spec pg halign hv (hin c (List.mem_cons_self c cs))
    have hsame : (tokenCall pg eb token c).2.1.start = eb.start ∧
        (tokenCall pg eb token c).2.1.len = eb.len := by
      have h2 := congrArg Prod.snd hstep
      simp only at h2
      rw [h2]
      cases c <;> simp [plainCall]
    have hrest := ih (hsame.1 ▸ halign) hvalid fun c' hc' => by
      have := hin c' (List.mem_cons_of_mem c hc')
      cases c' <;> simpa [MemberCall.InBounds, hsame.2] using this
    refine ⟨?_, ?_⟩
    · simp only [runToken, runPlain, List.map_cons, hrest.1, hstep]
      rw [← congrArg Prod.snd hstep]
    · simp only [runToken, List.mem_cons, forall_eq_or_imp]
      exact ⟨hvalid, hrest.2⟩

/-- The token accessors from a token that starts at page 0: along every finite
sequence of token loads and stores of any widths, at any members inside the
buffer and in any order, each token left behind caches a page of the buffer at
that page's linear offset, and each call returns, or stores, what the plain
accessor returns, or stores, on the buffer as it is at that point. -/
theorem apfs_token_run_refines_plain (eb : ExtentBuffer) (halign : eb.start % pg.size = 0)
    (calls : List MemberCall) (hin : ∀ c ∈ calls, c.InBounds eb) :
    (runToken pg eb ⟨0, 0⟩ calls).map (fun r => (r.1, r.2.1)) = runPlain pg eb calls ∧
      ∀ r ∈ runToken pg eb ⟨0, 0⟩ calls, r.2.2.Valid pg r.2.1 := by
  cases calls with
  | nil => simp [runToken, runPlain]
  | cons c cs =>
    have hlen : 0 < eb.len := by
      have hc := hin c (List.mem_cons_self c cs)
      cases c with
      | get w _ _ => exact Nat.lt_of_lt_of_le w.size_pos (Nat.le_trans (Nat.le_add_left _ _) hc)
      | set w _ _ _ => exact Nat.lt_of_lt_of_le w.size_pos (Nat.le_trans (Nat.le_add_left _ _) hc)
    exact runToken_spec pg halign ⟨(lt_numPages_iff pg).2 (by simpa using hlen), by simp⟩ hin

/-- A store straddling the first page boundary followed by a load inside the
second page, on a two-page buffer: the calls are in bounds and the token run
agrees with the plain run. -/
theorem apfs_token_run_straddle_then_load :
    (∀ c ∈ [MemberCall.set .w32 4094 0 0x12345678, MemberCall.get .w16 4096 0],
        c.InBounds ⟨0, 8192, fun _ _ => 0⟩) ∧
      (runToken ⟨12, le_refl 12⟩ ⟨0, 8192, fun _ _ => 0⟩ ⟨0, 0⟩
          [MemberCall.set .w32 4094 0 0x12345678, MemberCall.get .w16 4096 0]).map
          (fun r => (r.1, r.2.1)) =
        runPlain ⟨12, le_refl 12⟩ ⟨0, 8192, fun _ _ => 0⟩
          [MemberCall.set .w32 4094 0 0x12345678, MemberCall.get .w16 4096 0] := by
  have hin : ∀ c ∈ [MemberCall.set .w32 4094 0 0x12345678, MemberCall.get .w16 4096 0],
      c.InBounds ⟨0, 8192, fun _ _ => 0⟩ := by
    simp only [List.mem_cons, List.mem_singleton, List.not_mem_nil, or_false, forall_eq_or_imp,
      forall_eq, MemberCall.InBounds]
    decide
  exact ⟨hin, (apfs_token_run_refines_plain ⟨12, le_refl 12⟩ ⟨0, 8192, fun _ _ => 0⟩ (by decide) _
    hin).1⟩

end Apfs
