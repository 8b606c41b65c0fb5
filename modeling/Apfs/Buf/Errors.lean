import Apfs.Buf.NextChunk

/-!
# What a submit reports

`apfs_buf_bio_end_io` records a failed bio's errno with
`cmpxchg(&bp->io_errors, 0, error)`, "don't overwrite existing errors", and
copies `io_errors` into `bp->error` when it reads `io_remaining` as 1.  This
module follows those two members over whole runs of the buffer's step
function, whatever the interleaving of the submitter and the completions.

The first failure of a run is {lit}`firstFailure`, read off the steps alone:
the status of the first bio whose `atomic_dec` step reports one.

Main results:

- Theorem {lit}`apfs_buf_bio_end_io_keeps_first_error`: after a submit,
  `io_errors` is the first failure of the run, over every interleaving.
- Theorem {lit}`apfs_buf_submit_returns_only_bio_errors`: whatever
  `kmalloc` left in the buffer, and over any number of submits, a submit
  returns 0, `-EIO` or the status some bio of the run completed with.
- Theorem {lit}`apfs_buf_submit_holds_io_count`: as long as the buffer is not
  resubmitted with I/O in flight, no step takes `io_remaining` below 1, the
  count the submitter holds, as the comment on the empty-bio branch says.
-/

namespace Apfs

/-! ## The first error wins -/

/-- The errno a step hands to the compare-and-exchange of
`apfs_buf_bio_end_io`: that of a bio whose status is not success. -/
def BufStep.failure : BufStep → Option Int
  | .bioDec _ status => if status ≠ 0 then some status else none
  | _ => none

/-- The first errno the bios of a run report, 0 if none fails. -/
def firstFailure (steps : List BufStep) : Int :=
  (steps.filterMap BufStep.failure).headD 0

theorem BufStep.failure_ne_zero {st : BufStep} {e : Int} (h : st.failure = some e) : e ≠ 0 := by
  cases st <;> simp only [BufStep.failure, reduceCtorEq] at h
  split at h
  · cases h
    assumption
  · cases h

theorem firstFailure_nil : firstFailure [] = 0 :=
  rfl

theorem firstFailure_cons (st : BufStep) (steps : List BufStep) :
    firstFailure (st :: steps) = st.failure.getD (firstFailure steps) := by
  unfold firstFailure
  cases h : st.failure <;> simp [List.filterMap_cons, h]

section Steps

variable {pg : PageGeom} {bp : ApfsBuf} {s s' : BufState} {st : BufStep}

/-- One step other than a submit: `io_errors` takes the step's failure if it
was 0, and keeps its value otherwise. -/
theorem bufStep_ioErrors (hst : ∀ w, st ≠ .submit w) (h : bufStep pg bp s st = some s') :
    s'.ioErrors = if s.ioErrors = 0 then st.failure.getD 0 else s.ioErrors := by
  have hkeep : s.ioErrors = if s.ioErrors = 0 then 0 else s.ioErrors := by
    split_ifs with h0 <;> simp [h0]
  cases st with
  | submit w => exact absurd rfl (hst w)
  | inc =>
    obtain ⟨_, _, -, rfl⟩ := bufStep_inc h
    exact hkeep
  | issue accept =>
    obtain ⟨_, _, -, ⟨-, rfl⟩ | ⟨-, rfl⟩⟩ := bufStep_issue h <;> exact hkeep
  | wait =>
    obtain ⟨-, -, rfl⟩ := bufStep_wait h
    exact hkeep
  | ret =>
    obtain ⟨-, rfl⟩ := bufStep_ret h
    exact hkeep
  | bioDec b status =>
    obtain ⟨_, -, rfl⟩ := bufStep_bioDec h
    simp only [BufStep.failure]
    split_ifs <;> simp_all
  | bioEnd b =>
    obtain ⟨_, -, ⟨-, rfl⟩ | ⟨-, rfl⟩⟩ := bufStep_bioEnd h <;> exact hkeep

/-- Over a run with no submit, `io_errors` ends as it started if it was not 0,
and as the run's first failure if it was. -/
theorem bufRun_ioErrors :
    ∀ {s s' : BufState} {steps : List BufStep}, bufRun pg bp s steps = some s' →
      (∀ w, BufStep.submit w ∉ steps) →
      s'.ioErrors = if s.ioErrors = 0 then firstFailure steps else s.ioErrors
  | s, s', [], h, _ => by
    cases h
    split_ifs with h0 <;> simp [h0, firstFailure_nil]
  | s, s', st :: steps, h, hquiet => by
    rw [bufRun_cons, Option.bind_eq_some] at h
    obtain ⟨s₁, hstep, hrest⟩ := h
    have hone := bufStep_ioErrors (fun w he => hquiet w (he ▸ List.mem_cons_self _ _)) hstep
    rw [bufRun_ioErrors hrest fun w hw => hquiet w (List.mem_cons_of_mem _ hw), hone,
      firstFailure_cons]
    by_cases h0 : s.ioErrors = 0
    · cases hf : st.failure with
      | none => simp [h0]
      | some e => simp [h0, BufStep.failure_ne_zero hf]
    · simp [h0]

end Steps

/-- For every buffer and every run after a submit in which the buffer is not
submitted again, however the bios' completions interleave with the
submitter: `io_errors` is the status of the first bio whose completion
reported a failure, or 0 if none did.  A later failure never overwrites an
earlier one. -/
theorem apfs_buf_bio_end_io_keeps_first_error {pg : PageGeom} {bp : ApfsBuf}
    {s s₁ s' : BufState} {wait : Bool} {steps : List BufStep}
    (hsub : bufStep pg bp s (.submit wait) = some s₁) (hrun : bufRun pg bp s₁ steps = some s')
    (hquiet : ∀ w, BufStep.submit w ∉ steps) : s'.ioErrors = firstFailure steps := by
  obtain ⟨-, rfl⟩ := bufStep_submit hsub
  simpa using bufRun_ioErrors hrun hquiet

/-- On two pages, the bio fails with `-EIO` and a later run reports it. -/
theorem apfs_buf_bio_end_io_keeps_first_error_two_pages :
    ∃ s₁ s', bufStep pg4k twoPageBuf (BufState.fresh 0 0 0) (.submit true) = some s₁ ∧
      bufRun pg4k twoPageBuf s₁ [.inc, .issue 2, .bioDec 0 (- EIO), .bioEnd 0] = some s' ∧
      s'.ioErrors = firstFailure [.inc, .issue 2, .bioDec 0 (- EIO), .bioEnd 0] :=
  ⟨_, _, rfl, rfl, @apfs_buf_bio_end_io_keeps_first_error pg4k twoPageBuf (BufState.fresh 0 0 0) _ _
    true _ rfl rfl (by decide)⟩

/-! ## No error is made up

`apfs_buf_submit` clears `error` and `io_errors` before it issues a bio, and
afterwards they take only 0, the `-EIO` of the empty-bio branch, or a bio's
errno.  So whatever `kmalloc` left in them, and over any number of submits,
the submit returns nothing else. -/

/-- An errno that a run whose steps are among `past` accounts for: success,
the `-EIO` of the empty-bio branch, or the status some bio completed with. -/
def ErrnoFrom (past : List BufStep) (v : Int) : Prop :=
  v = 0 ∨ v = - EIO ∨ ∃ b, BufStep.bioDec b v ∈ past

/-- What every state of a run from `apfs_buf_alloc` keeps, given the steps
`past` of the run: before the first submit nothing is issued; after it,
`error` and `io_errors` hold errnos the run accounts for; and so does every
value returned. -/
structure BufState.ErrorsFrom (past : List BufStep) (s : BufState) : Prop where
  unsubmitted : s.submits = 0 → s.submitter = .idle ∧ s.bios = []
  error : s.submits ≠ 0 → ErrnoFrom past s.error
  ioErrors : s.submits ≠ 0 → ErrnoFrom past s.ioErrors
  returned : ∀ v ∈ s.returned, ErrnoFrom past v

section Sources

variable {pg : PageGeom} {bp : ApfsBuf} {s s' : BufState} {st : BufStep} {past : List BufStep}

theorem BufState.errorsFrom_fresh (error ioErrors ioRemaining : Int) :
    (BufState.fresh error ioErrors ioRemaining).ErrorsFrom past :=
  ⟨fun _ => ⟨rfl, rfl⟩, fun h => absurd rfl h, fun h => absurd rfl h, fun v h => absurd h (List.not_mem_nil v)⟩

/-- A submitter past its first submit, or a bio issued, means a submit. -/
theorem BufState.ErrorsFrom.submitted (hs : s.ErrorsFrom past)
    (h : s.submitter ≠ .idle ∨ s.bios ≠ []) : s.submits ≠ 0 :=
  fun h0 => by
    obtain ⟨hidle, hbios⟩ := hs.unsubmitted h0
    exact h.elim (absurd hidle) (absurd hbios)

theorem bufStep_errorsFrom (hs : s.ErrorsFrom past) (hst : st ∈ past)
    (h : bufStep pg bp s st = some s') : s'.ErrorsFrom past := by
  have hbio : ∀ {b : Nat} {x : Bio}, s.bios[b]? = some x → s.submits ≠ 0 := fun hb =>
    hs.submitted (.inr fun hnil => by simp [hnil] at hb)
  cases st with
  | submit w =>
    obtain ⟨-, rfl⟩ := bufStep_submit h
    exact ⟨fun h0 => absurd h0 (Nat.succ_ne_zero _), fun _ => .inl rfl, fun _ => .inl rfl, hs.returned⟩
  | inc =>
    obtain ⟨_, _, hsub, rfl⟩ := bufStep_inc h
    have hne := hs.submitted (.inl (by simp [hsub]))
    exact ⟨fun h0 => absurd h0 hne, hs.error, hs.ioErrors, hs.returned⟩
  | issue accept =>
    obtain ⟨_, _, hsub, ⟨-, rfl⟩ | ⟨-, rfl⟩⟩ := bufStep_issue h <;>
      have hne := hs.submitted (.inl (by simp [hsub]))
    · exact ⟨fun h0 => absurd h0 hne, hs.error, hs.ioErrors, hs.returned⟩
    · exact ⟨fun h0 => absurd h0 hne, fun _ => .inr (.inl rfl), hs.ioErrors, hs.returned⟩
  | wait =>
    obtain ⟨hsub, -, rfl⟩ := bufStep_wait h
    have hne := hs.submitted (.inl (by simp [hsub]))
    exact ⟨fun h0 => absurd h0 hne, hs.error, hs.ioErrors, hs.returned⟩
  | ret =>
    obtain ⟨hsub, rfl⟩ := bufStep_ret h
    have hne := hs.submitted (.inl (by simp [hsub]))
    refine ⟨fun h0 => absurd h0 hne, hs.error, hs.ioErrors, fun v hv => ?_⟩
    rcases List.mem_append.1 hv with hv | hv
    · exact hs.returned v hv
    · exact List.mem_singleton.1 hv ▸ hs.error hne
  | bioDec b status =>
    obtain ⟨_, hb, rfl⟩ := bufStep_bioDec h
    refine ⟨fun h0 => absurd h0 (hbio hb), hs.error, fun hne => ?_, hs.returned⟩
    split_ifs
    · exact .inr (.inr ⟨b, hst⟩)
    · exact hs.ioErrors hne
  | bioEnd b =>
    obtain ⟨_, hb, ⟨-, rfl⟩ | ⟨-, rfl⟩⟩ := bufStep_bioEnd h
    · exact ⟨fun h0 => absurd h0 (hbio hb), hs.ioErrors, hs.ioErrors, hs.returned⟩
    · exact ⟨fun h0 => absurd h0 (hbio hb), hs.error, hs.ioErrors, hs.returned⟩

theorem bufRun_errorsFrom :
    ∀ {s s' : BufState} {steps : List BufStep}, s.ErrorsFrom past → (∀ st ∈ steps, st ∈ past) →
      bufRun pg bp s steps = some s' → s'.ErrorsFrom past
  | _, _, [], hs, _, h => Option.some.inj h ▸ hs
  | _, _, st :: steps, hs, hpast, h => by
    rw [bufRun_cons, Option.bind_eq_some] at h
    obtain ⟨s₁, hstep, hrest⟩ := h
    exact bufRun_errorsFrom (bufStep_errorsFrom hs (hpast st (List.mem_cons_self _ _)) hstep)
      (fun st' h' => hpast st' (List.mem_cons_of_mem _ h')) hrest

end Sources

/-- For every buffer, whatever `kmalloc` left in its members, and every run
from `apfs_buf_alloc`, with any number of submits and any interleaving of the
submitter and the bios: every value `apfs_buf_submit` returns is 0, the
`-EIO` of the empty-bio branch, or the status some bio of the run completed
with. -/
theorem apfs_buf_submit_returns_only_bio_errors (pg : PageGeom) (bp : ApfsBuf)
    (error ioErrors ioRemaining : Int) {steps : List BufStep} {t : BufState}
    (h : bufRun pg bp (BufState.fresh error ioErrors ioRemaining) steps = some t) :
    ∀ v ∈ t.returned, v = 0 ∨ v = - EIO ∨ ∃ b, BufStep.bioDec b v ∈ steps :=
  (bufRun_errorsFrom (BufState.errorsFrom_fresh error ioErrors ioRemaining) (fun _ h => h) h).returned

/-- On two pages, from members `kmalloc` left at 7: the bio fails with
`-ENODATA` (61) and the submit returns it. -/
theorem apfs_buf_submit_returns_only_bio_errors_two_pages :
    ∃ t, bufRun pg4k twoPageBuf (BufState.fresh 7 7 7)
        [.submit true, .inc, .issue 2, .bioDec 0 (-61), .bioEnd 0, .wait, .ret] = some t ∧
      t.returned = [-61] ∧
      ∀ v ∈ t.returned, v = 0 ∨ v = - EIO ∨
        ∃ b, BufStep.bioDec b v ∈ [.submit true, .inc, .issue 2, .bioDec 0 (-61), .bioEnd 0, .wait, .ret] :=
  ⟨_, rfl, rfl, apfs_buf_submit_returns_only_bio_errors pg4k twoPageBuf 7 7 7 rfl⟩

/-! ## The submitter's count -/

/-- As long as the buffer is not resubmitted with a bio before its
`atomic_dec`, no step takes `io_remaining` below 1: neither a bio's
`atomic_dec` nor that of the empty-bio branch, which the code's comment says
"is guaranteed not to be the last io reference count because the caller
(apfs_buf_submit) holds a count itself". -/
theorem apfs_buf_submit_holds_io_count {pg : PageGeom} {bp : ApfsBuf} {s s' : BufState}
    {st : BufStep} (hr : QuietReachable pg bp s)
    (hquiet : ∀ wait, st = .submit wait → s.undecremented = 0)
    (h : bufStep pg bp s st = some s') : 1 ≤ s'.ioRemaining := by
  have hcount : s'.Counted := by
    rcases hr.counted with ⟨hidle, hbios⟩ | hc
    · obtain ⟨wait, rfl⟩ := bufStep_of_idle hidle hbios h
      obtain ⟨-, rfl⟩ := bufStep_submit h
      simp [BufState.Counted, BufState.undecremented, Submitter.held, hbios]
    · exact bufStep_counted hc hquiet h
  unfold BufState.Counted at hcount
  omega

/-- On two pages, `bio_add_page` takes the first page and refuses the second:
the empty bio's `atomic_dec` leaves the submitter's count. -/
theorem apfs_buf_submit_holds_io_count_empty_bio :
    ∃ s s', QuietReachable pg4k twoPageBuf s ∧ bufStep pg4k twoPageBuf s (.issue 0) = some s' ∧
      1 ≤ s'.ioRemaining :=
  have hr : QuietReachable pg4k twoPageBuf _ :=
    (QuietReachable.step (.fresh 0 0 0) (fun _ _ => rfl)
      (rfl : bufStep pg4k twoPageBuf _ (.submit true) = _)).run
      (rfl : bufRun pg4k twoPageBuf _ [.inc, .issue 1, .inc] = _) (by decide)
  ⟨_, _, hr, rfl,
    @apfs_buf_submit_holds_io_count pg4k twoPageBuf _ _ (.issue 0) hr (fun _ h => nomatch h) rfl⟩

end Apfs
