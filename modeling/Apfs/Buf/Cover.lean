import Apfs.Buf.NextChunk

/-!
# The bios of a submit cover its range

`apfs_buf_ioapply` cuts the buffer's byte range into bios.  Each chunk offers
`bio_add_page` the pages from where the last chunk stopped: the first from
the offset the locals stand at, the next ones whole, the last up to the bytes
left.  A refused page ends the chunk without moving the locals, so the next
chunk offers it again.

Whatever `bio_add_page` accepts and however the completions of the bios
interleave, the locals of the submitter stand at the first byte of the range
that no bio of the submit holds yet ({lit}`IoapplyLocals.OnTrack`), and every
bio starts there.  On a range aligned to 512-byte sectors the sector it
carries is that of its first byte.

Main results:

- Theorem {lit}`addPages_tiles`: the page loop lays its segments end to end
  from where its locals stand, each inside one page, lowers the bytes left by
  their total and leaves the locals right after the last one.
- Theorem {lit}`BufReachable.onTrack`: in every reachable state the locals
  of the submitter are on track.
- Theorem {lit}`apfs_buf_ioapply_bios_tile_range`: every bio the submitter
  fills covers the bytes of the range right after those of the bios before
  it, and carries the sector of its first byte.
-/

namespace Apfs

/-! ## Segments laid end to end -/

/-- The linear offset, in the buffer's pages, of the byte the locals stand
at. -/
def IoapplyLocals.pos (pg : PageGeom) (l : IoapplyLocals) : Nat :=
  l.pageIndex * pg.size + l.offset

/-- Segments laid end to end in the pages' linear space from byte `start`,
each holding at least one byte and lying inside its page. -/
def Segment.Tiles (pg : PageGeom) : Nat → List Segment → Prop
  | _, [] => True
  | start, seg :: segs =>
    seg.page * pg.size + seg.off = start ∧ 0 < seg.len ∧ seg.off + seg.len ≤ pg.size ∧
      Segment.Tiles pg (start + seg.len) segs

instance Segment.decTiles (pg : PageGeom) : ∀ start segs, Decidable (Segment.Tiles pg start segs)
  | _, [] => isTrue trivial
  | start, seg :: segs =>
    haveI := Segment.decTiles pg (start + seg.len) segs
    inferInstanceAs (Decidable (_ ∧ _ ∧ _ ∧ _))

theorem PageGeom.sector_dvd_size (pg : PageGeom) : 2 ^ 9 ∣ pg.size :=
  Nat.pow_dvd_pow 2 (Nat.le_trans (by decide) pg.twelve_le_shift)

@[simp]
theorem IoapplyLocals.advance_pos (pg : PageGeom) (l : IoapplyLocals) (nbytes : Int) :
    (l.advance nbytes).pos pg = (l.pageIndex + 1) * pg.size :=
  Nat.add_zero _

/-- A pass that moves on by a positive byte count moves the sector on by its
whole sectors. -/
theorem IoapplyLocals.advance_sector (l : IoapplyLocals) {nbytes : Int} (h : 0 ≤ nbytes) :
    (l.advance nbytes).sector = (l.sector + nbytes.toNat / 2 ^ 9) % 2 ^ 64 := by
  obtain ⟨k, rfl⟩ := Int.eq_ofNat_of_zero_le h
  have hshift : (k : Int) >>> (9 : Int) = ((k / 2 ^ 9 : Nat) : Int) := by
    rw [← Nat.shiftRight_eq_div_pow, ← Int.shiftRight_coe_nat, Nat.cast_ofNat]
  simp only [IoapplyLocals.advance, hshift, Int.toNat_ofNat]
  omega

/-- Moving `n` bytes on, a whole number of sectors, from `done` bytes of a
range of `len` adds the sectors of `n` to those of `done`, in `u64`. -/
theorem sector_add_div {bno len s n : Nat} (hn : 2 ^ 9 ∣ n) (hns : n ≤ s) (hs : s ≤ len) :
    ((bno + (len - s) / 2 ^ 9) % 2 ^ 64 + n / 2 ^ 9) % 2 ^ 64 =
      (bno + (len - (s - n)) / 2 ^ 9) % 2 ^ 64 := by
  rw [Nat.mod_add_mod, Nat.add_assoc, ← Nat.add_div_of_dvd_left hn,
    show len - s + n = len - (s - n) by omega]

/-! ## The locals stay on track -/

/-- Where the submitter's locals stand in the buffer's range: inside a page,
with a count of bytes left between 0 and the length, while bytes are left at
the first byte past those the count says are done, and, on a range aligned to
sectors, aligned and at the sector of that byte. -/
def IoapplyLocals.OnTrack (pg : PageGeom) (bp : ApfsBuf) (l : IoapplyLocals) : Prop :=
  l.offset < pg.size ∧ 0 ≤ l.size ∧ l.size ≤ bp.len ∧
    (l.size ≠ 0 → (l.pos pg : Int) + l.size = bp.offset + bp.len) ∧
    (bp.offset % 2 ^ 9 = 0 → bp.len % 2 ^ 9 = 0 →
      l.offset % 2 ^ 9 = 0 ∧ l.size % 2 ^ 9 = 0 ∧
        l.sector = (bp.bno + (bp.len - l.size.toNat) / 2 ^ 9) % 2 ^ 64)

/-- Inside `apfs_buf_ioapply` the locals are on track. -/
def Submitter.OnTrack (pg : PageGeom) (bp : ApfsBuf) : Submitter → Prop
  | .nextChunk _ l => l.OnTrack pg bp
  | .fill _ l => l.OnTrack pg bp
  | _ => True

section OnTrack

variable {pg : PageGeom} {bp : ApfsBuf} {s s' : BufState} {st : BufStep}

/-- The skip at the start of `apfs_buf_ioapply` puts the locals on track. -/
theorem IoapplyLocals.init_onTrack (hlen : bp.len < 2 ^ 31) (hbno : bp.bno < 2 ^ 64) :
    (IoapplyLocals.init pg bp).OnTrack pg bp := by
  have hsize : int32OfNat bp.len = bp.len := by
    unfold int32OfNat
    rw [if_pos (by omega), Nat.mod_eq_of_lt (by omega)]
  have hskip := skipPages_eq pg bp.offset 0 bp.offset le_rfl
  have hdiv := Nat.div_add_mod bp.offset pg.size
  have hmod := Nat.mod_mod_of_dvd bp.offset pg.sector_dvd_size
  simp only [IoapplyLocals.OnTrack, IoapplyLocals.init, hskip, IoapplyLocals.pos, hsize,
    Int.toNat_ofNat, Nat.sub_self, Nat.zero_div, Nat.add_zero, Nat.mod_eq_of_lt hbno]
  refine ⟨Nat.mod_lt _ pg.size_pos, by omega, le_rfl, fun _ => ?_,
    fun ha hl => ⟨by omega, by omega, trivial⟩⟩
  rw [Nat.zero_add, Nat.mul_comm, hdiv]

/-- A pass of the page loop from locals on track with bytes left moves on by
`nbytes`, at least one byte and at most the rest of the page, and leaves the
locals on track, at the next byte while bytes are left. -/
theorem IoapplyLocals.OnTrack.advance {l : IoapplyLocals} (ht : l.OnTrack pg bp) (hpos : l.size ≠ 0) :
    0 < min ((pg.size : Int) - l.offset) l.size ∧
      min ((pg.size : Int) - l.offset) l.size ≤ pg.size - l.offset ∧
      (l.advance (min ((pg.size : Int) - l.offset) l.size)).OnTrack pg bp ∧
      ((l.advance (min ((pg.size : Int) - l.offset) l.size)).size ≠ 0 →
        (l.advance (min ((pg.size : Int) - l.offset) l.size)).pos pg =
          l.pos pg + (min ((pg.size : Int) - l.offset) l.size).toNat) := by
  obtain ⟨hoff, hnn, hle, hat, hsec⟩ := ht
  generalize hnb : min ((pg.size : Int) - l.offset) l.size = nb
  have hnb' : 0 < nb ∧ nb ≤ pg.size - l.offset ∧ nb ≤ l.size ∧
      (nb < pg.size - l.offset → nb = l.size) := by
    clear hsec hat
    omega
  clear hnb
  -- on an aligned range the pass moves on by whole sectors
  have hsec' : bp.offset % 2 ^ 9 = 0 → bp.len % 2 ^ 9 = 0 →
      (l.advance nb).offset % 2 ^ 9 = 0 ∧ (l.advance nb).size % 2 ^ 9 = 0 ∧
        (l.advance nb).sector = (bp.bno + (bp.len - (l.advance nb).size.toNat) / 2 ^ 9) % 2 ^ 64 := by
    intro ha hl
    obtain ⟨h1, h2, h3⟩ := hsec ha hl
    rw [IoapplyLocals.advance_sector l hnb'.1.le, h3, IoapplyLocals.advance_size,
      IoapplyLocals.advance_offset]
    clear h3 hsec hat
    have hnb512 : nb % 2 ^ 9 = 0 := by
      have hdvd := pg.sector_dvd_size
      omega
    have hsub : (l.size - nb).toNat = l.size.toNat - nb.toNat := by omega
    rw [hsub, sector_add_div (Nat.dvd_of_mod_eq_zero (by omega)) (by omega) (by omega)]
    exact ⟨Nat.zero_mod _, by omega, rfl⟩
  clear hsec
  have hat := hat hpos
  have hnext : (l.advance nb).pos pg = l.pos pg + (pg.size - l.offset) := by
    rw [IoapplyLocals.advance_pos, IoapplyLocals.pos, Nat.succ_mul]
    omega
  have hsize := IoapplyLocals.advance_size l nb
  refine ⟨hnb'.1, hnb'.2.1, ⟨pg.size_pos, by omega, by omega, fun hne => by rw [hnext]; omega, hsec'⟩,
    fun hne => by rw [hnext]; omega⟩

/-- The page loop, from locals on track: its segments lie end to end from
where the locals stand, each inside one page, the count drops by their total,
and the locals it leaves are on track. -/
theorem addPages_tiles (hlen : bp.len < 2 ^ 31) :
    ∀ (nrPages accept : Nat) (l : IoapplyLocals) (segs : List Segment) (l' : IoapplyLocals),
      addPages pg nrPages accept l = (segs, l') → l.OnTrack pg bp →
      Segment.Tiles pg (l.pos pg) segs ∧ ((segs.map Segment.len).sum : Int) + l'.size = l.size ∧
        l'.OnTrack pg bp
  | 0, _, l, segs, l', h, ht => by
    cases h
    exact ⟨trivial, by simp, ht⟩
  | nrPages + 1, accept, l, segs, l', h, ht => by
    rw [addPages] at h
    split_ifs at h with hz
    · cases h
      exact ⟨trivial, by simp, ht⟩
    obtain ⟨hnb, hpage, ht', hnext⟩ := ht.advance hz
    generalize hnbdef : min ((pg.size : Int) - l.offset) l.size = nb at hnb hpage ht' hnext h
    have hsmall : nb < 2 ^ 31 := by
      have := ht.2.2.1
      omega
    rcases accept with _ | accept
    · dsimp only at h
      rw [if_pos hnb] at h
      cases h
      exact ⟨trivial, by simp, ht⟩
    obtain ⟨rest, l'', hrec⟩ : ∃ rest l'', addPages pg nrPages accept (l.advance nb) = (rest, l'') :=
      ⟨_, _, rfl⟩
    dsimp only at h
    rw [hrec, Prod.mk.injEq] at h
    obtain ⟨rfl, rfl⟩ := h
    obtain ⟨ht₁, hsum, ht''⟩ := addPages_tiles hlen nrPages accept _ rest l'' hrec ht'
    have hlen' : (nb % 2 ^ 32).toNat = nb.toNat := by omega
    -- the rest starts after this segment, or there is no rest
    have hrest : Segment.Tiles pg (l.pos pg + nb.toNat) rest := by
      by_cases hleft : (l.advance nb).size = 0
      · rw [addPages_of_size_eq_zero pg hleft, Prod.mk.injEq] at hrec
        rw [← hrec.1]
        trivial
      · rwa [← hnext hleft]
    rw [IoapplyLocals.advance_size] at hsum
    refine ⟨⟨rfl, by dsimp only; omega, by dsimp only; omega, by rwa [hlen']⟩, ?_, ht''⟩
    simp only [List.map_cons, List.sum_cons, Nat.cast_add, hlen']
    omega

/-- A chunk that leaves bytes for the next one leaves its locals on track. -/
theorem ioapplyChunk_onTrack {accept : Nat} {l : IoapplyLocals} (hlen : bp.len < 2 ^ 31)
    (ht : l.OnTrack pg bp) : (ioapplyChunk pg accept l).2.OnTrack pg bp :=
  (addPages_tiles hlen _ accept l _ _ rfl ht).2.2

/-- Every step keeps the submitter's locals on track. -/
theorem bufStep_onTrack (hlen : bp.len < 2 ^ 31) (hbno : bp.bno < 2 ^ 64)
    (ht : s.submitter.OnTrack pg bp) (h : bufStep pg bp s st = some s') :
    s'.submitter.OnTrack pg bp := by
  cases st with
  | submit wait =>
    obtain ⟨-, rfl⟩ := bufStep_submit h
    exact IoapplyLocals.init_onTrack hlen hbno
  | inc =>
    obtain ⟨wait, l, hs, rfl⟩ := bufStep_inc h
    rw [hs] at ht
    exact ht
  | issue accept =>
    obtain ⟨wait, l, hs, ⟨-, rfl⟩ | ⟨-, rfl⟩⟩ := bufStep_issue h <;> rw [hs] at ht
    · dsimp only
      split
      · exact ioapplyChunk_onTrack hlen ht
      · unfold afterIoapply
        split <;> trivial
    · unfold afterIoapply
      split <;> trivial
  | wait =>
    obtain ⟨-, -, rfl⟩ := bufStep_wait h
    trivial
  | ret =>
    obtain ⟨-, rfl⟩ := bufStep_ret h
    trivial
  | bioDec b status =>
    obtain ⟨owner, -, rfl⟩ := bufStep_bioDec h
    exact ht
  | bioEnd b =>
    obtain ⟨owner, -, ⟨-, rfl⟩ | ⟨-, rfl⟩⟩ := bufStep_bioEnd h <;> exact ht

theorem BufReachable.onTrack (hlen : bp.len < 2 ^ 31) (hbno : bp.bno < 2 ^ 64)
    (h : BufReachable pg bp s) : s.submitter.OnTrack pg bp := by
  induction h with
  | fresh => trivial
  | step _ hstep ih => exact bufStep_onTrack hlen hbno ih hstep

end OnTrack

/-- For every buffer whose length is below `2 ^ 31` and whose first sector is a
`u64`, in every state that any run of the buffer protocol reaches, and
whatever `bio_add_page` accepts: with `d` the bytes of the range the count
left says are done, the bio the submitter fills has its segments laid end to
end in the pages from byte `bp->offset + d`, each inside one page, and they
lower the count by exactly their total, so the next bio starts where this one
ends; and on a range aligned to 512-byte sectors, the sector the bio carries
is `bno + d / 512`, that of its first byte. -/
theorem apfs_buf_ioapply_bios_tile_range {pg : PageGeom} {bp : ApfsBuf} {s : BufState}
    {wait : Bool} {l : IoapplyLocals} (hlen : bp.len < 2 ^ 31) (hbno : bp.bno < 2 ^ 64)
    (hr : BufReachable pg bp s) (hs : s.submitter = .fill wait l) (accept : Nat) :
    Segment.Tiles pg (bp.offset + (bp.len - l.size.toNat)) (ioapplyChunk pg accept l).1 ∧
      (((ioapplyChunk pg accept l).1.map Segment.len).sum : Int) +
        (ioapplyChunk pg accept l).2.size = l.size ∧
      (bp.offset % 2 ^ 9 = 0 → bp.len % 2 ^ 9 = 0 →
        l.sector = (bp.bno + (bp.len - l.size.toNat) / 2 ^ 9) % 2 ^ 64) := by
  have ht := hr.onTrack hlen hbno
  rw [hs] at ht
  obtain ⟨htiles, hsum, -⟩ := addPages_tiles hlen (bioMaxSegs l.totalNrPages) accept l _ _ rfl ht
  obtain ⟨-, hnn, hle, hpos, hsec⟩ := ht
  refine ⟨?_, hsum, fun ha hl => (hsec ha hl).2.2⟩
  by_cases hz : l.size = 0
  · -- no bytes left: the page loop adds nothing
    unfold ioapplyChunk
    rw [addPages_of_size_eq_zero pg hz]
    trivial
  · have hstart : l.pos pg = bp.offset + (bp.len - l.size.toNat) := by
      have := hpos hz
      omega
    rw [← hstart]
    exact htiles

/-- Two 4 KiB pages from byte 0, read in two chunks: the second bio starts at
byte 4096, on page 1, at sector 8. -/
theorem apfs_buf_ioapply_bios_tile_range_second_page :
    ∃ s l, BufReachable pg4k twoPageBuf s ∧ s.submitter = .fill true l ∧
      (ioapplyChunk pg4k bioMaxVecs l).1 = [⟨1, 4096, 0⟩] ∧
      (Segment.Tiles pg4k (twoPageBuf.offset + (twoPageBuf.len - l.size.toNat))
          (ioapplyChunk pg4k bioMaxVecs l).1 ∧
        (((ioapplyChunk pg4k bioMaxVecs l).1.map Segment.len).sum : Int) +
          (ioapplyChunk pg4k bioMaxVecs l).2.size = l.size ∧
        (twoPageBuf.offset % 2 ^ 9 = 0 → twoPageBuf.len % 2 ^ 9 = 0 →
          l.sector = (twoPageBuf.bno + (twoPageBuf.len - l.size.toNat) / 2 ^ 9) % 2 ^ 64)) :=
  have hr : BufReachable pg4k twoPageBuf _ :=
    @BufReachable.step _ _ _ _ .inc (@BufReachable.step _ _ _ _ (.issue 1)
      (@BufReachable.step _ _ _ _ .inc (@BufReachable.step _ _ _ _ (.submit true)
        (.fresh 0 0 0) rfl) rfl) rfl) rfl
  ⟨_, _, hr, rfl, by decide,
    @apfs_buf_ioapply_bios_tile_range pg4k twoPageBuf _ true _ (by decide) (by decide) hr rfl
      bioMaxVecs⟩

end Apfs
