import MediaEngine.Jobs.Effect

set_option autoImplicit false

/-!
# The life of a job

How a job's status moves under every interleaving of `submit_job`, `cancel_job`,
`purge_expired_jobs`, the worker and the engine thread, what a record looks like for its
status, and which webhooks the worker has dispatched for it.

## Main definitions

* `MediaEngine.specEdges` — the status changes of the specification's state machine.
* `MediaEngine.codeEdges` — the status changes the code makes: those, and `cancel_job` on a
  processing job, which the worker then still completes or fails.
* `MediaEngine.StatusChange` — a record appearing as `queued`, or a move along `codeEdges`.

## Main results

* `MediaEngine.status_change_codeEdges` — every step from a reachable state changes a job's
  status along `StatusChange` or not at all, and a job cancelled while queued stays
  cancelled and is never taken by the worker or the engine thread.
* `MediaEngine.cancel_processing_completes` — a run in which a job goes
  `processing → cancelled → completed`.
* `MediaEngine.reachable_record_wellFormed` — every record of a reachable state has an output
  exactly when completed, an error exactly when failed, and both transcode timestamps once
  finished.
* `MediaEngine.reachable_dispatchesOf` — the dispatches carrying a job's id are exactly those
  its status implies: one for a completed or failed job with a callback URL, none otherwise.
* `MediaEngine.cancelled_job_never_dispatched` — a job with a callback URL cancelled while
  queued reaches a terminal status and is never dispatched.
-/

namespace MediaEngine

open JobManager

/-- The status of job `j`'s record, if it has one. -/
def JobManager.statusOf (s : JobManager) (j : ℕ) : Option JobStatus := (s.heap j).map (·.status)

/-- The status changes of the specification's state machine. -/
def specEdges : List (JobStatus × JobStatus) :=
  [(.queued, .processing), (.processing, .completed), (.processing, .failed),
    (.queued, .cancelled)]

/-- The status changes `_worker` and `cancel_job` make: those of the specification, and
`cancel_job` on a processing job, after which the worker still completes or fails it. -/
def codeEdges : List (JobStatus × JobStatus) :=
  specEdges ++ [(.processing, .cancelled), (.cancelled, .completed), (.cancelled, .failed)]

/-- How the status of one job changes in one step: a record appears as `queued`, or its
status moves along one of `codeEdges`. -/
def StatusChange : Option JobStatus → Option JobStatus → Prop
  | none, some b => b = .queued
  | some a, some b => (a, b) ∈ codeEdges
  | _, _ => False

instance (a b : Option JobStatus) : Decidable (StatusChange a b) :=
  match a, b with
  | none, some b => inferInstanceAs (Decidable (b = .queued))
  | some a, some b => inferInstanceAs (Decidable ((a, b) ∈ codeEdges))
  | none, none => isFalse id
  | some _, none => isFalse id

example : StatusChange (some .processing) (some .cancelled) ∧
    ¬ StatusChange (some .cancelled) (some .queued) := by decide

variable {settings : Settings} {s t u : JobManager} {j : ℕ}

/-! ## Status changes -/

/-- One step changes a job's status along `StatusChange`, or not at all. -/
lemma JobEffect.statusChange (he : JobEffect s t j) :
    t.statusOf j = s.statusOf j ∨ StatusChange (s.statusOf j) (t.statusOf j) := by
  cases he with
  | frame hheap => exact .inl (by rw [statusOf, hheap]; rfl)
  | begin _ h0 h1 => exact .inl (by rw [statusOf, statusOf, h0, h1])
  | persisted name request ts ds _ h0 h1 =>
    exact .inr (by rw [statusOf, statusOf, h0, h1]; rfl)
  | resumed _ _ hheap => exact .inl (by rw [statusOf, hheap]; rfl)
  | started r r' _ hr hq hr' hp =>
    exact .inr (by simp [statusOf, hr, hr', hq, hp, StatusChange, codeEdges, specEdges])
  | written r r' _ hr hr' hs => exact .inl (by simp [statusOf, hr, hr', hs.status])
  | finished r r' _ hr hrun hr' hfin =>
    refine .inr ?_
    rcases hrun with hq | hq <;> rcases hfin with hf | hf <;>
      simp [statusOf, hr, hr', hq, hf, StatusChange, codeEdges, specEdges]
  | cancelled r r' hr hst hr' hc =>
    refine .inr ?_
    rcases hst with hq | hq <;> simp [statusOf, hr, hr', hq, hc, StatusChange, codeEdges, specEdges]

/-! ## A job cancelled while queued -/

/-- `cancel_job` succeeds exactly on a known job whose status is not terminal. -/
lemma cancelJob_snd_eq_true :
    (cancelJob s j).2 = true ↔
      j ∈ s.records ∧ ∃ r, s.heap j = some r ∧ r.status.isTerminal = false := by
  unfold cancelJob
  split_ifs with hmem
  · split
    · next r hr => split <;> simp_all
    · next hr => simp [hr]
  · simp [hmem]

/-- The job is cancelled, and neither the worker nor the engine thread refers to it. -/
def JobManager.CancelledUnstarted (s : JobManager) (j : ℕ) : Prop :=
  s.statusOf j = some .cancelled ∧ ¬ s.worker.Holds j ∧ s.engine ≠ some j

/-- A queued job is neither held by the worker nor run by the engine thread. -/
lemma JobManager.Invariant.not_held_of_queued (h : s.Invariant) {r : JobRecord}
    (hr : s.heap j = some r) (hq : r.status = .queued) : ¬ s.worker.Holds j ∧ s.engine ≠ some j := by
  refine ⟨fun hw => ?_, fun he => ?_⟩
  · cases hwk : s.worker with
    | transcoding item =>
      rw [hwk] at hw
      obtain ⟨-, r0, hr0, hrun, -⟩ := h.transcoding item hwk
      rw [hw, hr] at hr0; cases hr0
      rcases hrun with h' | h' <;> rw [hq] at h' <;> cases h'
    | notifying item =>
      rw [hwk] at hw
      obtain ⟨r0, hr0, hfin⟩ := h.notifying item hwk
      rw [hw, hr] at hr0; cases hr0
      rcases hfin with h' | h' <;> rw [hq] at h' <;> cases h'
    | idle | stopped => rw [hwk] at hw; exact hw.elim
  · obtain ⟨r0, hr0, hrun⟩ := h.engine_running j he
    rw [hr] at hr0; cases hr0
    rcases hrun with h' | h' <;> rw [hq] at h' <;> cases h'

/-- A successful `cancel_job` on a queued job leaves it cancelled and unreferenced by the
worker and the engine thread. -/
lemma cancelledUnstarted_cancelJob (h : s.Invariant) (hq : s.statusOf j = some .queued)
    (hc : (cancelJob s j).2 = true) : (cancelJob s j).1.CancelledUnstarted j := by
  obtain ⟨hmem, r, hr, -⟩ := cancelJob_snd_eq_true.1 hc
  have hrq : r.status = .queued := by simpa [statusOf, hr] using hq
  obtain ⟨hw, he⟩ := h.not_held_of_queued hr hrq
  have heq : (cancelJob s j).1 =
      s.setRecord j { r with status := .cancelled, updatedAt := s.clock } := by
    simp [cancelJob, hmem, hr, hrq, JobStatus.isTerminal]
  rw [heq]
  exact ⟨by simp [statusOf], hw, he⟩

/-- No step brings the worker or the engine thread to a cancelled job they do not hold. -/
lemma JobManager.CancelledUnstarted.step (h : s.Invariant) (hp : s.CancelledUnstarted j)
    (hst : Step settings s t) : t.CancelledUnstarted j := by
  obtain ⟨hc, hw, he⟩ := hp
  cases hst.jobEffect h j with
  | frame hheap _ _ hholds heng =>
    exact ⟨by rw [statusOf, hheap]; exact hc, fun hh => hw (hholds hh), fun h' => he (heng h')⟩
  | begin _ h0 => simp [statusOf, h0] at hc
  | persisted _ _ _ _ _ h0 => simp [statusOf, h0] at hc
  | resumed _ _ hheap hholds heng =>
    exact ⟨by rw [statusOf, hheap]; exact hc, fun hh => hw (hholds hh), fun h' => he (heng h')⟩
  | started r r' _ hr hq => simp [statusOf, hr, hq] at hc
  | written _ _ he' => exact (he he').elim
  | finished _ _ hh => exact (hw hh).elim
  | cancelled r r' hr hst => rcases hst with hq | hq <;> simp [statusOf, hr, hq] at hc

/-- **Status changes (`cancel_job` and `_worker`).** From every reachable state, every step
changes the status of every job along `StatusChange`: a new record is `queued`, and a status
moves only along `codeEdges`. Nothing leaves `completed` or `failed`, and `cancelled` moves
only to `completed` or `failed`. A job that `cancel_job` cancels while it is queued stays
cancelled in every run that follows, and neither the worker nor the engine thread ever takes
it. -/
theorem status_change_codeEdges (hs : Reachable settings s) (hst : Step settings s t) (j : ℕ) :
    (t.statusOf j = s.statusOf j ∨ StatusChange (s.statusOf j) (t.statusOf j)) ∧
    (s.statusOf j = some .queued → (cancelJob s j).2 = true →
      ∀ u, Relation.ReflTransGen (Step settings) (cancelJob s j).1 u →
        u.statusOf j = some .cancelled ∧ ¬ u.worker.Holds j ∧ u.engine ≠ some j) := by
  have h := Invariant.reachable hs
  have hcancel : Step settings s (cancelJob s j).1 := .cancel s j
  refine ⟨(hst.jobEffect h j).statusChange, fun hq hc u hu => ?_⟩
  exact Invariant.run_of_step _ (fun hv hp hst => JobManager.CancelledUnstarted.step hv hp hst)
    (h.step hcancel) (cancelledUnstarted_cancelJob h hq hc) hu

/-- One upload `a.mp4`, submitted and persisted at time 0, with the default settings. -/
lemma reachable_persisted (request : JobRequest) :
    Reachable {} (persistDone {} (submitBegin .init "a.mp4" request) 0 "a.mp4" request 0 0) :=
  .tail (.tail .refl (.submitBegin _ _ _)) (.persistDone _ 0 "a.mp4" request 0 0 rfl)

/-- The same job, taken by the worker. -/
lemma reachable_started (request : JobRequest) :
    Reachable {} (dequeue (persistDone {} (submitBegin .init "a.mp4" request) 0 "a.mp4" request 0 0)
      ⟨0, request⟩ []) :=
  .tail (reachable_persisted request) (.dequeue _ _ _ rfl rfl)

theorem status_change_codeEdges_dequeue :
    let s := persistDone {} (submitBegin .init "a.mp4" {}) 0 "a.mp4" {} 0 0
    let t := dequeue s ⟨0, {}⟩ []
    Reachable {} s ∧ Step {} s t ∧
    ((t.statusOf 0 = s.statusOf 0 ∨ StatusChange (s.statusOf 0) (t.statusOf 0)) ∧
    (s.statusOf 0 = some .queued → (cancelJob s 0).2 = true →
      ∀ u, Relation.ReflTransGen (Step {}) (cancelJob s 0).1 u →
        u.statusOf 0 = some .cancelled ∧ ¬ u.worker.Holds 0 ∧ u.engine ≠ some 0)) :=
  ⟨reachable_persisted {}, .dequeue _ _ _ rfl rfl,
    status_change_codeEdges (reachable_persisted {}) (.dequeue _ _ _ rfl rfl) 0⟩

/-- `cancel_job` cancels a processing job, and the worker then completes it: its status goes
`processing → cancelled → completed`, two changes that are not in `specEdges`, the transitions
of the spec's state machine. -/
theorem cancel_processing_completes :
    let s := dequeue (persistDone {} (submitBegin .init "a.mp4" {}) 0 "a.mp4" {} 0 0) ⟨0, {}⟩ []
    let t := (cancelJob s 0).1
    let u := transcodeOk t ⟨0, {}⟩
    Reachable {} s ∧ Step {} s t ∧ Step {} t u ∧
    s.statusOf 0 = some .processing ∧ t.statusOf 0 = some .cancelled ∧
    u.statusOf 0 = some .completed ∧
    (JobStatus.processing, JobStatus.cancelled) ∉ specEdges ∧
    (JobStatus.cancelled, JobStatus.completed) ∉ specEdges :=
  ⟨reachable_started {}, .cancel _ 0, .transcodeOk _ _ rfl, rfl, rfl, rfl, by decide, by decide⟩

/-! ## The shape of a record -/

/-- **Records are well-formed.** In every reachable state, every record object — still in
`self.records`, or only in the queue or with the worker — has an output path exactly when
completed, an error exactly when failed, and both transcode timestamps once completed or
failed. -/
theorem reachable_record_wellFormed (hs : Reachable settings s) {r : JobRecord}
    (hr : s.heap j = some r) :
    (r.outputPath.isSome ↔ r.status = .completed) ∧ (r.error.isSome ↔ r.status = .failed) ∧
    (r.status = .completed ∨ r.status = .failed →
      r.transcodeStartedAt.isSome ∧ r.transcodeFinishedAt.isSome) :=
  let hwf := (Invariant.reachable hs).wellFormed j r hr
  ⟨hwf.output_iff, hwf.error_iff, hwf.finished⟩

theorem reachable_record_wellFormed_completed :
    let s := transcodeOk (dequeue (persistDone {} (submitBegin .init "a.mp4" {}) 0 "a.mp4" {} 0 0)
      ⟨0, {}⟩ []) ⟨0, {}⟩
    let r := JobRecord.complete
      { newRecord 0 "a.mp4" {} 0 0 0 with status := .processing, transcodeStartedAt := some 0 } 0 0
    Reachable {} s ∧ s.heap 0 = some r ∧ r.status = .completed ∧
    ((r.outputPath.isSome ↔ r.status = .completed) ∧ (r.error.isSome ↔ r.status = .failed) ∧
    (r.status = .completed ∨ r.status = .failed →
      r.transcodeStartedAt.isSome ∧ r.transcodeFinishedAt.isSome)) := by
  intro s r
  have hs : Reachable {} s := .tail (reachable_started {}) (.transcodeOk _ _ rfl)
  exact ⟨hs, rfl, rfl, reachable_record_wellFormed hs (show s.heap 0 = some r from rfl)⟩

/-! ## Webhooks -/

/-- **Webhooks.** In every reachable state, the dispatches carrying a job's id are exactly the
ones its record's status implies (`JobRecord.expectedDispatches`): one, with status
`completed`, the output path and message `"completed"`, for a completed job with a callback
URL; one, with status `failed` and the error, for a failed one; none for a job that is
queued, processing or cancelled, or has no callback URL, and none for an id with no
record. -/
theorem reachable_dispatchesOf (hs : Reachable settings s) (j : ℕ) :
    (∀ r, s.heap j = some r → s.dispatchesOf j = r.expectedDispatches) ∧
    (s.heap j = none → s.dispatchesOf j = []) := by
  have hd := (Invariant.reachable hs).dispatches j
  exact ⟨fun r hr => by rw [hd, hr]; rfl, fun hr => by rw [hd, hr]; rfl⟩

theorem reachable_dispatchesOf_completed :
    let request : JobRequest := { callbackUrl := some "http://hook" }
    let s := transcodeOk (dequeue (persistDone {} (submitBegin .init "a.mp4" request) 0 "a.mp4"
      request 0 0) ⟨0, request⟩ []) ⟨0, request⟩
    Reachable {} s ∧ s.dispatchesOf 0 = [⟨0, .completed, some (.output 0), some "completed"⟩] ∧
    ((∀ r, s.heap 0 = some r → s.dispatchesOf 0 = r.expectedDispatches) ∧
    (s.heap 0 = none → s.dispatchesOf 0 = [])) := by
  intro request s
  have hs : Reachable {} s := .tail (reachable_started request) (.transcodeOk _ _ rfl)
  exact ⟨hs, rfl, reachable_dispatchesOf hs 0⟩

/-- A job with a callback URL that `cancel_job` cancels while queued is terminal at once, and
no dispatch carries its id then or in any run that follows: a cancelled job is never
notified. -/
theorem cancelled_job_never_dispatched :
    let request : JobRequest := { callbackUrl := some "http://hook" }
    let s := (cancelJob (persistDone {} (submitBegin .init "a.mp4" request) 0 "a.mp4" request 0 0)
      0).1
    Reachable {} s ∧ s.statusOf 0 = some .cancelled ∧
    (s.heap 0).map (·.callbackUrl) = some request.callbackUrl ∧
    ∀ u, Relation.ReflTransGen (Step {}) s u → u.dispatchesOf 0 = [] := by
  intro request s
  have hq := reachable_persisted request
  have hs : Reachable {} s := .tail hq (.cancel _ 0)
  refine ⟨hs, rfl, rfl, fun u hu => ?_⟩
  have hun := Invariant.run_of_step _
    (fun hv hp hst => JobManager.CancelledUnstarted.step hv hp hst)
    (Invariant.reachable hs) (cancelledUnstarted_cancelJob (Invariant.reachable hq) rfl rfl) hu
  have hu' := (Invariant.reachable hs).run hu
  obtain ⟨r, hr, hc⟩ := Option.map_eq_some'.1 hun.1
  rw [hu'.dispatches 0, hr]
  exact JobRecord.expectedDispatches_eq_nil (by rw [hc]; decide)

end MediaEngine
