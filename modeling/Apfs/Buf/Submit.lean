import Apfs.Buf.Ioapply

/-!
# Submitting a buffer and completing its bios

`apfs_buf_submit` runs on one thread; the bios it issues complete on others,
each in `apfs_buf_bio_end_io`.  They share the members `error`, `io_errors`,
`io_remaining` and the completion `io_wait` of the buffer.  The model is a
step function on the shared state and the submitter's place in its code, one
step for each atomic operation the two sides make:

- the submitter clears the errors and sets `io_remaining` to 1, increments
  it at each chunk, submits each bio built by the page loop (or, for an empty
  bio, decrements the count again and records `-EIO`), waits on the
  completion and returns `bp->error`;
- each bio, when the device completes it, records its error with a
  compare-and-exchange and decrements `io_remaining`, and later reads it and,
  on reading 1, copies `io_errors` into `error` and signals the completion.

A run is any sequence of steps, so every interleaving is a run.  The state
keeps, as history, every bio issued with the submit it belongs to and the
submit each signalled completion comes from.

Main results:

- Theorem {lit}`QuietReachable.counted`: as long as a buffer is not resubmitted
  with I/O in flight, `io_remaining` is 1, plus one for each bio before its
  `atomic_dec`, plus one while a chunk is being filled.
- Theorem {lit}`bufStep_complete_only_when_drained`: so a bio signals the
  completion only when no bio is before its `atomic_dec` and no chunk holds a
  count, which says nothing of the chunks `apfs_buf_ioapply` has still to
  issue.
- Theorem {lit}`apfs_buf_submit_wait_returns_early`: on a buffer of 257 pages,
  one interleaving lets the submitter's wait return while its second bio is
  still in flight, and signals the completion twice for one submit.
-/

namespace Apfs

/-- `EIO`. -/
def EIO : Int :=
  5

/-- Where a bio is in its completion: submitted, past its `atomic_dec`, or
past the `atomic_read` and the completion it may signal. -/
inductive BioPhase
  | inFlight
  | decremented
  | ended
deriving DecidableEq, Repr

/-- A submitted bio: the submit that issued it, counted from 0, and its
phase. -/
structure Bio where
  owner : Nat
  phase : BioPhase
deriving DecidableEq, Repr

/-- Where the submitting thread is: outside `apfs_buf_submit`, at
`next_chunk:` before the increment, in the page loop after it, in
`wait_for_completion`, or about to return `bp->error`. -/
inductive Submitter
  | idle
  | nextChunk (wait : Bool) (l : IoapplyLocals)
  | fill (wait : Bool) (l : IoapplyLocals)
  | waiting
  | returning
deriving DecidableEq, Repr

/-- The members of the buffer the two sides write, the count `done` of
`io_wait`, the submitter's place, and the history: the submits started, the
bios issued, the submit of each completion signalled and the values
returned. -/
structure BufState where
  error : Int
  ioErrors : Int
  ioRemaining : Int
  done : Nat
  submitter : Submitter
  submits : Nat
  bios : List Bio
  completions : List Nat
  returned : List Int
deriving DecidableEq, Repr

/-- A buffer just out of `apfs_buf_alloc`: `init_completion` zeroed `done`,
and `kmalloc` left the other members as they were. -/
def BufState.fresh (error ioErrors ioRemaining : Int) : BufState :=
  ⟨error, ioErrors, ioRemaining, 0, .idle, 0, [], [], []⟩

/-- One atomic step of the submitter or of a bio's completion.  A bio's
`status` is the errno its `bi_status` maps to, 0 for success; `accept` is how
many calls of `bio_add_page` succeed in a chunk. -/
inductive BufStep
  | submit (wait : Bool)
  | inc
  | issue (accept : Nat)
  | wait
  | ret
  | bioDec (b : Nat) (status : Int)
  | bioEnd (b : Nat)
deriving DecidableEq, Repr

/-- Where the submitter goes when `apfs_buf_ioapply` returns. -/
def afterIoapply (wait : Bool) : Submitter :=
  if wait then .waiting else .returning

/-- The step, or `none` where it is not enabled.  At `issue` the bio is
submitted when `bio->bi_iter.bi_size`, the `unsigned int` sum of its segments,
is not zero. -/
def bufStep (pg : PageGeom) (bp : ApfsBuf) (s : BufState) : BufStep → Option BufState
  | .submit wait =>
    match s.submitter with
    | .idle =>
      some { s with
        error := 0
        ioErrors := 0
        ioRemaining := 1
        submitter := .nextChunk wait (IoapplyLocals.init pg bp)
        submits := s.submits + 1 }
    | _ => none
  | .inc =>
    match s.submitter with
    | .nextChunk wait l =>
      some { s with ioRemaining := s.ioRemaining + 1, submitter := .fill wait l }
    | _ => none
  | .issue accept =>
    match s.submitter with
    | .fill wait l =>
      let chunk := ioapplyChunk pg accept l
      if (chunk.1.map Segment.len).sum % 2 ^ 32 ≠ 0 then
        some { s with
          bios := s.bios ++ [⟨s.submits - 1, .inFlight⟩]
          submitter := if chunk.2.size ≠ 0 then .nextChunk wait chunk.2 else afterIoapply wait }
      else
        some { s with
          ioRemaining := s.ioRemaining - 1
          error := - EIO
          submitter := afterIoapply wait }
    | _ => none
  | .wait =>
    match s.submitter with
    | .waiting =>
      if s.done ≠ 0 then some { s with done := s.done - 1, submitter := .returning } else none
    | _ => none
  | .ret =>
    match s.submitter with
    | .returning => some { s with returned := s.returned ++ [s.error], submitter := .idle }
    | _ => none
  | .bioDec b status =>
    match s.bios[b]? with
    | some ⟨owner, .inFlight⟩ =>
      some { s with
        bios := s.bios.set b ⟨owner, .decremented⟩
        ioErrors := if status ≠ 0 ∧ s.ioErrors = 0 then status else s.ioErrors
        ioRemaining := s.ioRemaining - 1 }
    | _ => none
  | .bioEnd b =>
    match s.bios[b]? with
    | some ⟨owner, .decremented⟩ =>
      if s.ioRemaining = 1 then
        some { s with
          bios := s.bios.set b ⟨owner, .ended⟩
          error := s.ioErrors
          done := s.done + 1
          completions := s.completions ++ [owner] }
      else
        some { s with bios := s.bios.set b ⟨owner, .ended⟩ }
    | _ => none

/-- A run of steps, `none` if one of them is not enabled. -/
def bufRun (pg : PageGeom) (bp : ApfsBuf) (s : BufState) (steps : List BufStep) :
    Option BufState :=
  steps.foldlM (bufStep pg bp) s

theorem bufRun_cons {pg : PageGeom} {bp : ApfsBuf} (s : BufState) (st : BufStep)
    (steps : List BufStep) :
    bufRun pg bp s (st :: steps) = (bufStep pg bp s st).bind fun s₁ => bufRun pg bp s₁ steps :=
  rfl

/-! ## One step at a time

Each step, inverted: the state it needs and the state it leaves.  The
invariants below are proved from these.
-/

section Steps

variable {pg : PageGeom} {bp : ApfsBuf} {s s' : BufState} {st : BufStep}

theorem bufStep_submit {wait : Bool} (h : bufStep pg bp s (.submit wait) = some s') :
    s.submitter = .idle ∧
      s' = { s with
        error := 0
        ioErrors := 0
        ioRemaining := 1
        submitter := .nextChunk wait (IoapplyLocals.init pg bp)
        submits := s.submits + 1 } := by
  simp only [bufStep] at h
  split at h
  · exact ⟨‹_›, (Option.some.inj h).symm⟩
  · cases h

theorem bufStep_inc (h : bufStep pg bp s .inc = some s') :
    ∃ wait l, s.submitter = .nextChunk wait l ∧
      s' = { s with ioRemaining := s.ioRemaining + 1, submitter := .fill wait l } := by
  simp only [bufStep] at h
  split at h
  · exact ⟨_, _, ‹_›, (Option.some.inj h).symm⟩
  · cases h

theorem bufStep_issue {accept : Nat} (h : bufStep pg bp s (.issue accept) = some s') :
    ∃ wait l, s.submitter = .fill wait l ∧
      (((ioapplyChunk pg accept l).1.map Segment.len).sum % 2 ^ 32 ≠ 0 ∧
        s' = { s with
          bios := s.bios ++ [⟨s.submits - 1, .inFlight⟩]
          submitter := if (ioapplyChunk pg accept l).2.size ≠ 0
            then .nextChunk wait (ioapplyChunk pg accept l).2 else afterIoapply wait } ∨
      ((ioapplyChunk pg accept l).1.map Segment.len).sum % 2 ^ 32 = 0 ∧
        s' = { s with
          ioRemaining := s.ioRemaining - 1
          error := - EIO
          submitter := afterIoapply wait }) := by
  simp only [bufStep] at h
  split at h
  · refine ⟨_, _, ‹_›, ?_⟩
    split at h
    · exact .inl ⟨‹_›, (Option.some.inj h).symm⟩
    · exact .inr ⟨not_not.1 ‹_›, (Option.some.inj h).symm⟩
  · cases h

theorem bufStep_wait (h : bufStep pg bp s .wait = some s') :
    s.submitter = .waiting ∧ s.done ≠ 0 ∧
      s' = { s with done := s.done - 1, submitter := .returning } := by
  simp only [bufStep] at h
  split at h
  · split at h
    · exact ⟨‹_›, ‹_›, (Option.some.inj h).symm⟩
    · cases h
  · cases h

theorem bufStep_ret (h : bufStep pg bp s .ret = some s') :
    s.submitter = .returning ∧
      s' = { s with returned := s.returned ++ [s.error], submitter := .idle } := by
  simp only [bufStep] at h
  split at h
  · exact ⟨‹_›, (Option.some.inj h).symm⟩
  · cases h

theorem bufStep_bioDec {b : Nat} {status : Int}
    (h : bufStep pg bp s (.bioDec b status) = some s') :
    ∃ owner, s.bios[b]? = some ⟨owner, .inFlight⟩ ∧
      s' = { s with
        bios := s.bios.set b ⟨owner, .decremented⟩
        ioErrors := if status ≠ 0 ∧ s.ioErrors = 0 then status else s.ioErrors
        ioRemaining := s.ioRemaining - 1 } := by
  simp only [bufStep] at h
  split at h
  · exact ⟨_, ‹_›, (Option.some.inj h).symm⟩
  · cases h

theorem bufStep_bioEnd {b : Nat} (h : bufStep pg bp s (.bioEnd b) = some s') :
    ∃ owner, s.bios[b]? = some ⟨owner, .decremented⟩ ∧
      (s.ioRemaining = 1 ∧
        s' = { s with
          bios := s.bios.set b ⟨owner, .ended⟩
          error := s.ioErrors
          done := s.done + 1
          completions := s.completions ++ [owner] } ∨
      s.ioRemaining ≠ 1 ∧ s' = { s with bios := s.bios.set b ⟨owner, .ended⟩ }) := by
  simp only [bufStep] at h
  split at h
  · refine ⟨_, ‹_›, ?_⟩
    split at h
    · exact .inl ⟨‹_›, (Option.some.inj h).symm⟩
    · exact .inr ⟨‹_›, (Option.some.inj h).symm⟩
  · cases h

/-! ## What the count accounts for -/

/-- The bios of the history that have not run their `atomic_dec`. -/
def BufState.undecremented (s : BufState) : Nat :=
  s.bios.countP fun b => b.phase == .inFlight

/-- The count the submitter's `atomic_inc` took for the chunk it is filling. -/
def Submitter.held : Submitter → Nat
  | .fill _ _ => 1
  | _ => 0

@[simp]
theorem Submitter.held_nextChunk (wait : Bool) (l : IoapplyLocals) :
    (Submitter.nextChunk wait l).held = 0 :=
  rfl

@[simp]
theorem Submitter.held_afterIoapply (wait : Bool) : (afterIoapply wait).held = 0 := by
  unfold afterIoapply
  split <;> rfl

/-- `io_remaining` holds the submitter's own count, one count for each bio
before its `atomic_dec`, and the count of the chunk being filled. -/
def BufState.Counted (s : BufState) : Prop :=
  s.ioRemaining = 1 + (s.undecremented : Int) + (s.submitter.held : Int)

/-- Moving bio `b` from one phase to another changes the number of bios in
flight by what the two phases count. -/
theorem countP_set_phase {bios : List Bio} {b owner : Nat} {phase : BioPhase} (phase' : BioPhase)
    (h : bios[b]? = some ⟨owner, phase⟩) :
    (bios.set b ⟨owner, phase'⟩).countP (fun b => b.phase == .inFlight) +
        (if phase = .inFlight then 1 else 0) =
      bios.countP (fun b => b.phase == .inFlight) + (if phase' = .inFlight then 1 else 0) := by
  obtain ⟨hb, hget⟩ := List.getElem?_eq_some_iff.1 h
  have hle := List.boole_getElem_le_countP (fun b : Bio => b.phase == .inFlight) bios b hb
  rw [List.countP_set _ _ _ _ hb, hget] at *
  simp only [beq_iff_eq] at *
  split_ifs at * <;> omega

/-- One step keeps the count, provided a submit starts with every bio past its
`atomic_dec`: the submit's `atomic_set` overwrites the count. -/
theorem bufStep_counted (hc : s.Counted)
    (hquiet : ∀ wait, st = .submit wait → s.undecremented = 0)
    (h : bufStep pg bp s st = some s') : s'.Counted := by
  unfold BufState.Counted BufState.undecremented at *
  cases st with
  | submit wait =>
    obtain ⟨-, rfl⟩ := bufStep_submit h
    simp [Submitter.held, hquiet wait rfl]
  | inc =>
    obtain ⟨wait, l, hs, rfl⟩ := bufStep_inc h
    simp only [hs, Submitter.held] at hc ⊢
    omega
  | issue accept =>
    obtain ⟨wait, l, hs, ⟨-, rfl⟩ | ⟨-, rfl⟩⟩ := bufStep_issue h <;>
      simp only [hs, Submitter.held] at hc
    · have hone :
          [(⟨s.submits - 1, .inFlight⟩ : Bio)].countP (fun b => b.phase == .inFlight) = 1 := rfl
      simp only [List.countP_append, hone, apply_ite Submitter.held, Submitter.held_nextChunk,
        Submitter.held_afterIoapply, ite_self]
      omega
    · simp only [Submitter.held_afterIoapply]
      omega
  | wait =>
    obtain ⟨hs, -, rfl⟩ := bufStep_wait h
    simpa [hs, Submitter.held] using hc
  | ret =>
    obtain ⟨hs, rfl⟩ := bufStep_ret h
    simpa [hs, Submitter.held] using hc
  | bioDec b status =>
    obtain ⟨owner, hb, rfl⟩ := bufStep_bioDec h
    have := countP_set_phase .decremented hb
    simp only [reduceCtorEq, if_true, if_false] at this
    simp only
    omega
  | bioEnd b =>
    obtain ⟨owner, hb, ⟨-, rfl⟩ | ⟨-, rfl⟩⟩ := bufStep_bioEnd h <;>
    · have := countP_set_phase .ended hb
      simp only [reduceCtorEq, if_false] at this
      simp only
      omega

/-- From an idle submitter with no bios, only a submit can step. -/
theorem bufStep_of_idle (hidle : s.submitter = .idle) (hbios : s.bios = [])
    (h : bufStep pg bp s st = some s') : ∃ wait, st = .submit wait := by
  cases st <;> simp [bufStep, hidle, hbios] at h ⊢

/-- The states a buffer just out of `apfs_buf_alloc` reaches when every submit
starts with every bio past its `atomic_dec`: its callers do not resubmit it
with I/O in flight. -/
inductive QuietReachable (pg : PageGeom) (bp : ApfsBuf) : BufState → Prop
  | fresh (error ioErrors ioRemaining : Int) :
      QuietReachable pg bp (BufState.fresh error ioErrors ioRemaining)
  | step {s s' : BufState} {st : BufStep} : QuietReachable pg bp s →
      (∀ wait, st = .submit wait → s.undecremented = 0) → bufStep pg bp s st = some s' →
      QuietReachable pg bp s'

/-- Every quietly reachable state is untouched or keeps the count. -/
theorem QuietReachable.counted (h : QuietReachable pg bp s) :
    s.submitter = .idle ∧ s.bios = [] ∨ s.Counted := by
  induction h with
  | fresh => exact .inl ⟨rfl, rfl⟩
  | step _ hquiet hstep ih =>
    rcases ih with ⟨hidle, hbios⟩ | hc
    · obtain ⟨wait, rfl⟩ := bufStep_of_idle hidle hbios hstep
      obtain ⟨-, rfl⟩ := bufStep_submit hstep
      right
      simp [BufState.Counted, BufState.undecremented, Submitter.held, hbios]
    · exact .inr (bufStep_counted hc hquiet hstep)

/-- A quiet run keeps a buffer quietly reachable. -/
theorem QuietReachable.run :
    ∀ {s s' : BufState} {steps : List BufStep}, QuietReachable pg bp s →
      bufRun pg bp s steps = some s' → (∀ w, BufStep.submit w ∉ steps) → QuietReachable pg bp s'
  | _, _, [], hr, h, _ => by
    cases h
    exact hr
  | _, _, st :: steps, hr, h, hquiet => by
    rw [bufRun_cons, Option.bind_eq_some] at h
    obtain ⟨s₁, hstep, hrest⟩ := h
    refine QuietReachable.run (hr.step (fun w he => absurd (he ▸ List.mem_cons_self _ _) (hquiet w))
      hstep) hrest fun w hw => hquiet w (List.mem_cons_of_mem _ hw)

/-- A bio's completion step signals `io_wait` only when no bio is before its
`atomic_dec` and no chunk holds a count: the count cannot tell whether
`apfs_buf_ioapply` has more chunks to issue. -/
theorem bufStep_complete_only_when_drained {b : Nat} (hr : QuietReachable pg bp s)
    (h : bufStep pg bp s (.bioEnd b) = some s') (hcomplete : s'.completions ≠ s.completions) :
    s.undecremented = 0 ∧ s.submitter.held = 0 := by
  obtain ⟨owner, hb, ⟨hone, rfl⟩ | ⟨-, rfl⟩⟩ := bufStep_bioEnd h
  · rcases hr.counted with ⟨-, hbios⟩ | hc
    · simp [hbios] at hb
    · unfold BufState.Counted at hc
      omega
  · exact absurd rfl hcomplete

end Steps

/-- One 4 KiB page read from byte 0: its bio's end signals the completion. -/
theorem bufStep_complete_only_when_drained_one_page :
    ∃ s s', QuietReachable ⟨12, le_refl 12⟩ ⟨0, 4096, 1, 0, .read⟩ s ∧
      bufStep ⟨12, le_refl 12⟩ ⟨0, 4096, 1, 0, .read⟩ s (.bioEnd 0) = some s' ∧
      s'.completions ≠ s.completions ∧ s.undecremented = 0 ∧ s.submitter.held = 0 :=
  have hr : QuietReachable ⟨12, le_refl 12⟩ ⟨0, 4096, 1, 0, .read⟩ _ :=
    (QuietReachable.step (.fresh 0 0 0) (fun _ _ => rfl)
      (rfl : bufStep ⟨12, le_refl 12⟩ ⟨0, 4096, 1, 0, .read⟩ _ (.submit true) = _)).run
      (rfl : bufRun ⟨12, le_refl 12⟩ ⟨0, 4096, 1, 0, .read⟩ _ [.inc, .issue 1, .bioDec 0 0] = _)
      (by decide)
  ⟨_, _, hr, rfl, by decide, @bufStep_complete_only_when_drained _ _ _ _ 0 hr rfl (by decide)⟩

/-! ## A wait that returns early -/

/-- 4 KiB pages. -/
def pg4k : PageGeom :=
  ⟨12, le_refl 12⟩

/-- The buffer `apfs_buf_init` sets up to read 257 pages from byte 0: more
than one bio holds. -/
def twoBioBuf : ApfsBuf :=
  { offset := 0, len := 257 * 4096, pageCount := 257, bno := 0, op := .read }

set_option maxRecDepth 8000 in
/-- Submit and wait: the first bio completes before the submitter's
increment for the second chunk, reads `io_remaining` as 1 and signals the
completion, so the wait returns while the second bio is in flight; that bio
then signals the completion a second time for the same submit. -/
theorem apfs_buf_submit_wait_returns_early :
    apfsBufInit pg4k abfRead 0 (257 * 4096) = some twoBioBuf ∧
      (bufRun pg4k twoBioBuf (BufState.fresh 0 0 0)
          [.submit true, .inc, .issue 256, .bioDec 0 0, .bioEnd 0, .inc, .issue 256,
            .wait]).map (fun s => (s.submitter, s.bios, s.completions)) =
        some (.returning, [⟨0, .ended⟩, ⟨0, .inFlight⟩], [0]) ∧
      (bufRun pg4k twoBioBuf (BufState.fresh 0 0 0)
          [.submit true, .inc, .issue 256, .bioDec 0 0, .bioEnd 0, .inc, .issue 256,
            .wait, .bioDec 1 0, .bioEnd 1]).map BufState.completions =
        some [0, 0] := by
  decide

/-! ## Errors that do not reach the caller -/

/-- The buffer `apfs_buf_init` sets up to read two pages from byte 0. -/
def twoPageBuf : ApfsBuf :=
  { offset := 0, len := 2 * 4096, pageCount := 2, bno := 0, op := .read }

set_option maxRecDepth 8000 in
/-- Two submits with `wait` that return 0 although the I/O failed.  On two
pages, `bio_add_page` takes the first page and refuses the second, and at the
next chunk refuses the first page offered: the empty bio sets `bp->error` to
`-EIO`, then the first bio's completion reads `io_remaining` as 1 and
overwrites it with `io_errors`, still 0.  On 257 pages, the first bio
completes early as in {lit}`apfs_buf_submit_wait_returns_early` and the
submitter returns before the second bio fails with `-EIO`. -/
theorem apfs_buf_submit_loses_io_error :
    apfsBufInit pg4k abfRead 0 (2 * 4096) = some twoPageBuf ∧
      (bufRun pg4k twoPageBuf (BufState.fresh 0 0 0)
          [.submit true, .inc, .issue 1, .inc, .issue 0]).map BufState.error = some (- EIO) ∧
      (bufRun pg4k twoPageBuf (BufState.fresh 0 0 0)
          [.submit true, .inc, .issue 1, .inc, .issue 0, .bioDec 0 0, .bioEnd 0, .wait,
            .ret]).map BufState.returned = some [0] ∧
      (bufRun pg4k twoBioBuf (BufState.fresh 0 0 0)
          [.submit true, .inc, .issue 256, .bioDec 0 0, .bioEnd 0, .inc, .issue 256, .wait,
            .ret, .bioDec 1 (- EIO), .bioEnd 1]).map (fun s => (s.returned, s.ioErrors)) =
        some ([0], - EIO) := by
  decide

/-! ## A range that starts inside a page -/

/-- The buffer `apfs_buf_init` sets up to read 4096 bytes from byte 512: the
range starts 512 bytes into its first page and ends 512 bytes into the
second, but the page count, taken from the length alone, is 1. -/
def unalignedBuf : ApfsBuf :=
  { offset := 512, len := 4096, pageCount := 1, bno := 1, op := .read }

/-- With every page accepted, the first chunk carries the 3584 bytes left in
page 0 and uses up the page count; the second chunk may take no page, so its
bio is empty and the submit fails with `-EIO`, the last 512 bytes never
transferred. -/
theorem apfs_buf_ioapply_runs_out_of_pages :
    apfsBufInit pg4k abfRead 512 4096 = some unalignedBuf ∧
      apfsBufAllocPages pg4k unalignedBuf = unalignedBuf ∧
      ioapplyChunk pg4k bioMaxVecs (IoapplyLocals.init pg4k unalignedBuf) =
        ([⟨0, 3584, 512⟩], ⟨0, 0, 1, 512, 8⟩) ∧
      ioapplyChunk pg4k bioMaxVecs ⟨0, 0, 1, 512, 8⟩ = ([], ⟨0, 0, 1, 512, 8⟩) ∧
      (bufRun pg4k unalignedBuf (BufState.fresh 0 0 0)
          [.submit true, .inc, .issue bioMaxVecs, .inc, .issue bioMaxVecs]).map
          (fun s => (s.error, s.bios.length)) = some (- EIO, 1) := by
  decide

end Apfs
