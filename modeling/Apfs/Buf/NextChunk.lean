import Apfs.Buf.Submit

/-!
# The `next_chunk` loop ends

`apfs_buf_ioapply` goes back to its label `next_chunk:` after a chunk whose
bio got segments while bytes are left.  Whatever `bio_add_page` accepts and
however the completions of the bios interleave, the bytes left shrink at each
such `goto`, so one submit issues at most as many chunks as there are bytes,
plus one.

The count is {lit}`Submitter.chunksLeft`: one step of the buffer's step
function never raises it and an `issue` lowers it, which
{lit}`bufRun_issues_le` sums over a run.

Main results:

- Theorem {lit}`bufStep_issue_goto`: a chunk that goes back to `next_chunk:`
  leaves fewer bytes than it found, and a positive count.
- Theorem {lit}`bufStep_issue_empty`: a chunk whose bio got no segment takes
  the `-EIO` branch.
- Theorem {lit}`bufRun_issues_le`: a run with no further submit issues at most
  as many chunks as the count allows.
- Theorem {lit}`apfs_buf_ioapply_fitting_range_fills_every_bio`: when the
  range fits in `page_count` pages and every page is accepted, every chunk
  submits a bio.
-/

namespace Apfs

/-- Whether a step is the submitter's `issue`, the end of one chunk. -/
def BufStep.isIssue : BufStep → Bool
  | .issue _ => true
  | _ => false

/-- The chunks the submitter may still issue from where it is: one for each
byte left and one more inside `apfs_buf_ioapply`, none outside it. -/
def Submitter.chunksLeft : Submitter → Nat
  | .nextChunk _ l => l.size.toNat + 1
  | .fill _ l => l.size.toNat + 1
  | _ => 0

/-- Inside `apfs_buf_ioapply` the offset lies within a page, as the skip at
its start leaves it. -/
def Submitter.InPage (pg : PageGeom) : Submitter → Prop
  | .nextChunk _ l => l.offset < pg.size
  | .fill _ l => l.offset < pg.size
  | _ => True

/-- The states a buffer just out of `apfs_buf_alloc` reaches by any steps. -/
inductive BufReachable (pg : PageGeom) (bp : ApfsBuf) : BufState → Prop
  | fresh (error ioErrors ioRemaining : Int) :
      BufReachable pg bp (BufState.fresh error ioErrors ioRemaining)
  | step {s s' : BufState} {st : BufStep} : BufReachable pg bp s →
      bufStep pg bp s st = some s' → BufReachable pg bp s'

section Chunks

variable {pg : PageGeom} {bp : ApfsBuf} {s s' : BufState} {st : BufStep}

/-- A bio whose `unsigned int` size is not zero has a segment. -/
theorem segments_ne_nil_of_sum {segs : List Segment} (h : (segs.map Segment.len).sum % 2 ^ 32 ≠ 0) :
    segs ≠ [] := by
  rintro rfl
  exact h rfl

theorem afterIoapply_ne_nextChunk (wait wait' : Bool) (l : IoapplyLocals) :
    afterIoapply wait ≠ .nextChunk wait' l := by
  unfold afterIoapply
  split <;> nofun

@[simp]
theorem Submitter.chunksLeft_afterIoapply (wait : Bool) : (afterIoapply wait).chunksLeft = 0 := by
  unfold afterIoapply
  split <;> rfl

/-- A chunk that goes back to `next_chunk:` leaves fewer bytes than it found,
and a positive count. -/
theorem bufStep_issue_goto {accept : Nat} {wait wait' : Bool} {l l' : IoapplyLocals}
    (hin : l.offset < pg.size) (hs : s.submitter = .fill wait l)
    (h : bufStep pg bp s (.issue accept) = some s') (h' : s'.submitter = .nextChunk wait' l') :
    0 < l'.size ∧ l'.size < l.size := by
  obtain ⟨wait₁, l₁, hs₁, ⟨hsum, rfl⟩ | ⟨-, rfl⟩⟩ := bufStep_issue h <;> rw [hs] at hs₁ <;>
    cases hs₁
  · dsimp only at h'
    split at h'
    · cases h'
      exact addPages_goto pg _ accept l hin (segments_ne_nil_of_sum hsum) ‹_›
    · exact absurd h' (afterIoapply_ne_nextChunk _ _ _)
  · exact absurd h' (afterIoapply_ne_nextChunk _ _ _)

/-- A chunk whose bio got no segment takes the `-EIO` branch. -/
theorem bufStep_issue_empty {accept : Nat} {wait : Bool} {l : IoapplyLocals}
    (hs : s.submitter = .fill wait l) (he : (ioapplyChunk pg accept l).1 = []) :
    bufStep pg bp s (.issue accept) =
      some { s with ioRemaining := s.ioRemaining - 1, error := - EIO, submitter := afterIoapply wait } := by
  simp [bufStep, hs, he]

/-- Every step keeps the offset inside a page while the submitter is in
`apfs_buf_ioapply`. -/
theorem bufStep_inPage (hin : s.submitter.InPage pg) (h : bufStep pg bp s st = some s') :
    s'.submitter.InPage pg := by
  cases st with
  | submit wait =>
    obtain ⟨-, rfl⟩ := bufStep_submit h
    exact IoapplyLocals.init_offset_lt pg bp
  | inc =>
    obtain ⟨wait, l, hs, rfl⟩ := bufStep_inc h
    rw [hs] at hin
    exact hin
  | issue accept =>
    obtain ⟨wait, l, hs, ⟨-, rfl⟩ | ⟨-, rfl⟩⟩ := bufStep_issue h <;> rw [hs] at hin
    · dsimp only
      split
      · exact addPages_offset_lt pg _ accept l hin
      · unfold afterIoapply
        split <;> trivial
    · unfold afterIoapply
      split <;> trivial
  | wait =>
    obtain ⟨-, -, rfl⟩ := bufStep_wait h
    trivial
  | ret =>
    obtain ⟨-, rfl⟩ := bufStep_ret h
    trivial
  | bioDec b status =>
    obtain ⟨owner, -, rfl⟩ := bufStep_bioDec h
    exact hin
  | bioEnd b =>
    obtain ⟨owner, -, ⟨-, rfl⟩ | ⟨-, rfl⟩⟩ := bufStep_bioEnd h <;> exact hin

theorem BufReachable.inPage (h : BufReachable pg bp s) : s.submitter.InPage pg := by
  induction h with
  | fresh => trivial
  | step _ hstep ih => exact bufStep_inPage ih hstep

/-- One step other than a submit never raises the count of chunks left, and
an `issue` lowers it. -/
theorem bufStep_chunksLeft (hin : s.submitter.InPage pg) (hst : ∀ w, st ≠ .submit w)
    (h : bufStep pg bp s st = some s') :
    s'.submitter.chunksLeft + (if st.isIssue then 1 else 0) ≤ s.submitter.chunksLeft := by
  cases st with
  | submit w => exact absurd rfl (hst w)
  | inc =>
    obtain ⟨wait, l, hs, rfl⟩ := bufStep_inc h
    simp [BufStep.isIssue, Submitter.chunksLeft, hs]
  | issue accept =>
    obtain ⟨wait, l, hs, ⟨hsum, rfl⟩ | ⟨-, rfl⟩⟩ := bufStep_issue h <;> rw [hs] at hin <;>
      simp only [hs, BufStep.isIssue, if_true]
    · by_cases hc : (ioapplyChunk pg accept l).2.size ≠ 0
      · have := addPages_goto pg _ accept l hin (segments_ne_nil_of_sum hsum) hc
        rw [if_pos hc]
        simp only [Submitter.chunksLeft, ioapplyChunk] at this ⊢
        omega
      · rw [if_neg hc, Submitter.chunksLeft_afterIoapply, Submitter.chunksLeft]
        omega
    · rw [Submitter.chunksLeft_afterIoapply, Submitter.chunksLeft]
      omega
  | wait =>
    obtain ⟨hs, -, rfl⟩ := bufStep_wait h
    simp [BufStep.isIssue, Submitter.chunksLeft, hs]
  | ret =>
    obtain ⟨hs, rfl⟩ := bufStep_ret h
    simp [BufStep.isIssue, Submitter.chunksLeft, hs]
  | bioDec b status =>
    obtain ⟨owner, -, rfl⟩ := bufStep_bioDec h
    simp [BufStep.isIssue]
  | bioEnd b =>
    obtain ⟨owner, -, ⟨-, rfl⟩ | ⟨-, rfl⟩⟩ := bufStep_bioEnd h <;> simp [BufStep.isIssue]

/-- A run with no further submit issues at most as many chunks as the count
allows. -/
theorem bufRun_issues_le :
    ∀ {s s' : BufState} {steps : List BufStep}, s.submitter.InPage pg →
      bufRun pg bp s steps = some s' → (∀ w, BufStep.submit w ∉ steps) →
      steps.countP BufStep.isIssue + s'.submitter.chunksLeft ≤ s.submitter.chunksLeft
  | s, s', [], _, h, _ => by
    cases h
    simp
  | s, s', st :: steps, hin, h, hquiet => by
    rw [bufRun_cons, Option.bind_eq_some] at h
    obtain ⟨s₁, hstep, hrest⟩ := h
    have hone := bufStep_chunksLeft hin (fun w he => hquiet w (he ▸ List.mem_cons_self _ _)) hstep
    have ih := bufRun_issues_le (bufStep_inPage hin hstep) hrest
      (fun w hw => hquiet w (List.mem_cons_of_mem _ hw))
    rw [List.countP_cons]
    cases hi : st.isIssue <;> simp only [hi, Bool.false_eq_true, if_true, if_false] at hone ⊢ <;>
      omega

end Chunks

/-- For every buffer, and whatever `bio_add_page` accepts: a `goto next_chunk`
follows a chunk that made `size` smaller; a chunk whose bio got no segment
takes the `-EIO` branch; and after a submit, however the completions of its
bios interleave, the submitter issues at most `size + 1` chunks before it is
submitted again. -/
theorem apfs_buf_ioapply_next_chunk_bounded (pg : PageGeom) (bp : ApfsBuf) :
    (∀ {s s' : BufState} {accept : Nat} {wait wait' : Bool} {l l' : IoapplyLocals},
      BufReachable pg bp s → s.submitter = .fill wait l →
      bufStep pg bp s (.issue accept) = some s' → s'.submitter = .nextChunk wait' l' →
      0 < l'.size ∧ l'.size < l.size) ∧
    (∀ {s : BufState} {accept : Nat} {wait : Bool} {l : IoapplyLocals},
      s.submitter = .fill wait l → (ioapplyChunk pg accept l).1 = [] →
      bufStep pg bp s (.issue accept) =
        some { s with ioRemaining := s.ioRemaining - 1, error := - EIO, submitter := afterIoapply wait }) ∧
    (∀ {s s₁ s' : BufState} {wait : Bool} {steps : List BufStep},
      bufStep pg bp s (.submit wait) = some s₁ → bufRun pg bp s₁ steps = some s' →
      (∀ w, BufStep.submit w ∉ steps) →
      steps.countP BufStep.isIssue ≤ (int32OfNat bp.len).toNat + 1) := by
  refine ⟨fun hr hs h h' => ?_, fun hs he => bufStep_issue_empty hs he, fun hsub hrun hquiet => ?_⟩
  · have hin := hr.inPage
    rw [hs] at hin
    exact bufStep_issue_goto hin hs h h'
  · obtain ⟨-, rfl⟩ := bufStep_submit hsub
    have := bufRun_issues_le (by exact IoapplyLocals.init_offset_lt pg bp) hrun hquiet
    rw [Submitter.chunksLeft, IoapplyLocals.init_size] at this
    omega

/-! ## A range that fits its pages

`page_count` is taken from the length alone, so the range fits its pages
only when its offset in the first page and its length together take no more
than `page_count` pages; {lit}`apfs_buf_ioapply_runs_out_of_pages` is a range
that does not.  When it does, and `bio_add_page` takes every page, no chunk
takes the empty-bio branch. -/

/-- The bytes left, from the offset in the current page, fit in the pages
`total_nr_pages` counts, and the count is an `int` that is not negative. -/
def IoapplyLocals.Fits (pg : PageGeom) (l : IoapplyLocals) : Prop :=
  l.offset < pg.size ∧ 0 ≤ l.size ∧ l.size < 2 ^ 31 ∧
    (l.offset : Int) + l.size ≤ ((l.totalNrPages * pg.size : Nat) : Int)

/-- A pass of the page loop on a range that fits moves on by at least one
byte and leaves a range that fits. -/
theorem IoapplyLocals.Fits.advance {pg : PageGeom} {l : IoapplyLocals} (hf : l.Fits pg)
    (hpos : 0 < l.size) :
    0 < min ((pg.size : Int) - l.offset) l.size ∧
      (l.advance (min ((pg.size : Int) - l.offset) l.size)).Fits pg := by
  obtain ⟨hoff, -, hlt, hfit⟩ := hf
  have htotal : 1 ≤ l.totalNrPages := by
    rcases Nat.eq_zero_or_pos l.totalNrPages with h0 | h0
    · rw [h0, Nat.zero_mul] at hfit
      omega
    · exact h0
  have hmul : (l.totalNrPages - 1) * pg.size = l.totalNrPages * pg.size - pg.size :=
    Nat.sub_one_mul _ _
  have hle : pg.size ≤ l.totalNrPages * pg.size := Nat.le_mul_of_pos_left _ htotal
  refine ⟨by omega, pg.size_pos, ?_, ?_, ?_⟩ <;>
    simp only [IoapplyLocals.advance, hmul, Nat.cast_zero, Nat.cast_sub hle] <;> omega

/-- With every call of `bio_add_page` accepted, the page loop on a range that
fits leaves a range that fits, and its segments add up to the bytes it moved
on by, of which there is at least one if the loop ran. -/
theorem addPages_fits (pg : PageGeom) :
    ∀ (nrPages accept : Nat) (l : IoapplyLocals), nrPages ≤ accept → l.Fits pg →
      (addPages pg nrPages accept l).2.Fits pg ∧
        (((addPages pg nrPages accept l).1.map Segment.len).sum : Int) +
          (addPages pg nrPages accept l).2.size = l.size ∧
        (0 < nrPages → 0 < l.size → 0 < ((addPages pg nrPages accept l).1.map Segment.len).sum)
  | 0, _, _, _, hf => ⟨hf, by simp [addPages], by omega⟩
  | _ + 1, 0, _, h, _ => absurd h (by omega)
  | nrPages + 1, accept + 1, l, h, hf => by
    by_cases hz : l.size = 0
    · rw [addPages_of_size_eq_zero pg hz]
      exact ⟨hf, by simp [hz], fun _ h => absurd hz (by omega)⟩
    obtain ⟨hnb, hadv⟩ := hf.advance (by have := hf.2.1; omega)
    obtain ⟨ih1, ih2, -⟩ := addPages_fits pg nrPages accept _ (by omega) hadv
    rw [IoapplyLocals.advance_size] at ih2
    have hlen := hf.2.2.1
    rw [addPages, if_neg hz]
    refine ⟨ih1, ?_, fun _ _ => ?_⟩ <;>
      simp only [List.map_cons, List.sum_cons, Nat.cast_add] <;> omega

/-- Inside `apfs_buf_ioapply` the range left fits, and at `next_chunk:` bytes
are left. -/
def Submitter.Fits (pg : PageGeom) : Submitter → Prop
  | .nextChunk _ l => l.Fits pg ∧ 0 < l.size
  | .fill _ l => l.Fits pg ∧ 0 < l.size
  | _ => True

section Fits

variable {pg : PageGeom} {bp : ApfsBuf} {s s' : BufState} {st : BufStep}

/-- One step other than a submit keeps the range fitting; an issue whose
page loop is offered no refusal submits a bio, and no other step adds one. -/
theorem bufStep_fits (hf : s.submitter.Fits pg) (hst : ∀ w, st ≠ .submit w)
    (haccept : ∀ a, st = .issue a → bioMaxVecs ≤ a) (h : bufStep pg bp s st = some s') :
    s'.submitter.Fits pg ∧ s'.bios.length = s.bios.length + (if st.isIssue then 1 else 0) := by
  cases st with
  | submit w => exact absurd rfl (hst w)
  | inc =>
    obtain ⟨wait, l, hs, rfl⟩ := bufStep_inc h
    rw [hs] at hf
    exact ⟨hf, rfl⟩
  | issue accept =>
    obtain ⟨wait, l, hs, ⟨-, rfl⟩ | ⟨hsum, -⟩⟩ := bufStep_issue h <;> rw [hs] at hf <;>
      obtain ⟨hfl, hpos⟩ := hf <;>
      obtain ⟨hf', hsum', hgrow⟩ := addPages_fits pg (bioMaxSegs l.totalNrPages) accept l
        ((Nat.min_le_right _ _).trans (haccept accept rfl)) hfl
    · refine ⟨?_, by simp [BufStep.isIssue]⟩
      dsimp only [ioapplyChunk]
      split
      · exact ⟨hf', by have := hf'.2.1; omega⟩
      · unfold afterIoapply
        split <;> trivial
    · -- the range fits, so the page loop runs and the bio gets bytes
      have htotal : 0 < bioMaxSegs l.totalNrPages := by
        have hfit := hfl.2.2.2
        unfold bioMaxSegs bioMaxVecs
        rcases Nat.eq_zero_or_pos l.totalNrPages with h0 | h0
        · rw [h0, Nat.zero_mul] at hfit
          have := hfl.2.1
          omega
        · omega
      have hgrow := hgrow htotal hpos
      have hlt := hfl.2.2.1
      have hnn := hf'.2.1
      unfold ioapplyChunk at hsum
      omega
  | wait =>
    obtain ⟨-, -, rfl⟩ := bufStep_wait h
    exact ⟨trivial, rfl⟩
  | ret =>
    obtain ⟨-, rfl⟩ := bufStep_ret h
    exact ⟨trivial, rfl⟩
  | bioDec b status =>
    obtain ⟨owner, -, rfl⟩ := bufStep_bioDec h
    exact ⟨hf, by simp [BufStep.isIssue]⟩
  | bioEnd b =>
    obtain ⟨owner, -, ⟨-, rfl⟩ | ⟨-, rfl⟩⟩ := bufStep_bioEnd h <;>
      exact ⟨hf, by simp [BufStep.isIssue]⟩

/-- Over a run with no submit in which every page is accepted, every issue
submits a bio. -/
theorem bufRun_fits :
    ∀ {s s' : BufState} {steps : List BufStep}, s.submitter.Fits pg →
      bufRun pg bp s steps = some s' → (∀ w, BufStep.submit w ∉ steps) →
      (∀ a, BufStep.issue a ∈ steps → bioMaxVecs ≤ a) →
      s'.bios.length = s.bios.length + steps.countP BufStep.isIssue
  | _, _, [], _, h, _, _ => by
    cases h
    rfl
  | _, _, st :: steps, hf, h, hquiet, haccept => by
    rw [bufRun_cons, Option.bind_eq_some] at h
    obtain ⟨s₁, hstep, hrest⟩ := h
    obtain ⟨hf₁, hlen⟩ := bufStep_fits hf (fun w he => hquiet w (he ▸ List.mem_cons_self _ _))
      (fun a he => haccept a (he ▸ List.mem_cons_self _ _)) hstep
    rw [bufRun_fits hf₁ hrest (fun w hw => hquiet w (List.mem_cons_of_mem _ hw))
      (fun a ha => haccept a (List.mem_cons_of_mem _ ha)), hlen, List.countP_cons]
    omega

end Fits

/-- For every buffer whose range, from its offset in the first page, fits in
`page_count` pages, with a length below `2 ^ 31`: after a submit, in every
run in which the buffer is not submitted again and `bio_add_page` takes every
page it is offered, every chunk `apfs_buf_ioapply` issues submits a bio, and
none takes the empty-bio branch that fails the submit with `-EIO`. -/
theorem apfs_buf_ioapply_fitting_range_fills_every_bio {pg : PageGeom} {bp : ApfsBuf}
    {s s₁ s' : BufState} {wait : Bool} {steps : List BufStep}
    (hlen : 0 < bp.len) (hlen' : bp.len < 2 ^ 31)
    (hfit : bp.offset % pg.size + bp.len ≤ bp.pageCount * pg.size)
    (hsub : bufStep pg bp s (.submit wait) = some s₁) (hrun : bufRun pg bp s₁ steps = some s')
    (hquiet : ∀ w, BufStep.submit w ∉ steps)
    (haccept : ∀ a, BufStep.issue a ∈ steps → bioMaxVecs ≤ a) :
    s'.bios.length = s.bios.length + steps.countP BufStep.isIssue := by
  obtain ⟨-, rfl⟩ := bufStep_submit hsub
  have hsize : int32OfNat bp.len = bp.len := by
    unfold int32OfNat
    rw [if_pos (by omega), Nat.mod_eq_of_lt (by omega)]
  have hoff : (IoapplyLocals.init pg bp).offset = bp.offset % pg.size := by
    show (skipPages pg bp.offset 0 bp.offset).2 = _
    rw [skipPages_eq pg bp.offset 0 bp.offset le_rfl]
  have hf : (Submitter.nextChunk wait (IoapplyLocals.init pg bp)).Fits pg := by
    refine ⟨⟨IoapplyLocals.init_offset_lt pg bp, ?_, ?_, ?_⟩, ?_⟩ <;>
      simp only [IoapplyLocals.init_size, hsize, hoff] <;> try omega
    show ((bp.offset % pg.size : Nat) : Int) + (bp.len : Int) ≤ ((bp.pageCount * pg.size : Nat) : Int)
    omega
  have hbios := bufRun_fits hf hrun hquiet haccept
  exact hbios

/-- Two 4 KiB pages from byte 0: the one chunk, with both pages accepted,
submits its bio. -/
theorem apfs_buf_ioapply_fitting_range_fills_every_bio_two_pages :
    ∃ s₁ s', bufStep pg4k twoPageBuf (BufState.fresh 0 0 0) (.submit true) = some s₁ ∧
      bufRun pg4k twoPageBuf s₁ [.inc, .issue bioMaxVecs] = some s' ∧
      s'.bios.length = (BufState.fresh 0 0 0).bios.length +
        [BufStep.inc, .issue bioMaxVecs].countP BufStep.isIssue :=
  ⟨_, _, rfl, rfl,
    @apfs_buf_ioapply_fitting_range_fills_every_bio pg4k twoPageBuf (BufState.fresh 0 0 0) _ _ true
      _ (by decide) (by decide) (by decide) rfl rfl (by decide) (by simp [bioMaxVecs])⟩

end Apfs
