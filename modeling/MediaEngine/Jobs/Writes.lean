import MediaEngine.Jobs.Admission
import MediaEngine.Transcode.Engine

set_option autoImplicit false

/-!
# What the parties write into a record

Every step leaves the record of a job alone, creates it (`submit_job`, once the upload is
persisted), or makes one write into it: `_worker` starts the job, the engine thread writes
the duration or the progress, `_worker` completes or fails the job, or `cancel_job` cancels
it. An invariant of the record's fields is proved once for each write and then holds along
every run.

## Main definitions

* `MediaEngine.RecordWrite` — the writes into an existing record at a clock value, each with
  the status the code writes it under.
* `MediaEngine.RecordChange` — what one step does to the record of one job.
* `MediaEngine.FrameChange` — what one step does to the clock, the keys of `self.records`, the
  uploads in flight and the files.
* `MediaEngine.JobRecord.Chronological` — the timestamps of a record lie in the past and in
  order.
* `MediaEngine.JobRecord.FilePaths` — the upload and the output of a record are the job's own
  files.

## Main results

* `MediaEngine.Step.recordChange` — every step from a state satisfying the invariant changes
  every record along `RecordChange`.
* `MediaEngine.Step.frameChange` — every step changes the rest along `FrameChange`: in
  particular only `purge_expired_jobs` deletes files, and only those of the keys it pops.
* `MediaEngine.reachable_finished_frozen` — a completed or failed record never changes again.
* `MediaEngine.reachable_toDetail_times` — the view of a job never shows `updated_at` before
  `created_at`, nor a negative download or transcode time.

## Design

`datetime.utcnow()` reads the manager's clock, which only moves forward (`Step.tick`).
-/

namespace MediaEngine

open JobManager

/-- A write into the record of job `j` made at clock `c`, under the status the code makes it
in. -/
inductive RecordWrite (c j : ℕ) : JobRecord → JobRecord → Prop
  /-- `_worker` takes a queued job from the queue. -/
  | start (r : JobRecord) : r.status = .queued →
      RecordWrite c j r
        { r with status := .processing, updatedAt := c, transcodeStartedAt := some c }
  /-- The engine thread writes into the record of the job it runs. -/
  | engine (r : JobRecord) (w : EngineWrite) : r.status.Running → RecordWrite c j r (w.apply c r)
  /-- The success branch of `_worker`. -/
  | complete (r : JobRecord) : r.status.Running → RecordWrite c j r (r.complete j c)
  /-- The `except Exception as exc` branch of `_worker`. -/
  | fail (r : JobRecord) (message : String) : r.status.Running →
      RecordWrite c j r (r.fail message c)
  /-- `cancel_job` on a job whose status is not terminal. -/
  | cancel (r : JobRecord) : r.status.isTerminal = false →
      RecordWrite c j r { r with status := .cancelled, updatedAt := c }

/-- What one step from `s` to `t` does to the record of job `j`. -/
inductive RecordChange (s t : JobManager) (j : ℕ) : Prop
  | same : t.heap j = s.heap j → RecordChange s t j
  | created (name : String) (request : JobRequest) (ts ds : ℕ) :
      s.submits j = some (.persisting name request ts ds) →
      t.heap j = some (newRecord j name request ts ds s.clock) → RecordChange s t j
  | written (r r' : JobRecord) : s.heap j = some r → t.heap j = some r' →
      RecordWrite s.clock j r r' →
      (r'.status = .completed → s.engine = some j ∧ t.engine = none ∧ t.files (.output j) = true) →
      RecordChange s t j

variable {settings : Settings} {s t : JobManager}

/-- An engine write changes only the duration, the processed seconds and `updated_at`, which
it sets to the clock or leaves as it is. -/
lemma EngineWrite.apply_eq (w : EngineWrite) (c : ℕ) (r : JobRecord) :
    ∃ md tms u, w.apply c r =
      { r with mediaDurationSeconds := md, transcodeMediaSeconds := tms, updatedAt := u } ∧
      (u = r.updatedAt ∨ u = c) := by
  cases w with
  | duration seconds => exact ⟨_, _, _, rfl, .inl rfl⟩
  | progress processedSeconds mediaDuration => exact ⟨_, _, _, rfl, .inr rfl⟩
  | finalSeconds =>
    by_cases hmd : r.mediaDurationSeconds ≠ none
    · exact ⟨_, _, _, by simp only [EngineWrite.apply, if_pos hmd]; rfl, .inl rfl⟩
    · exact ⟨_, _, _, by simp only [EngineWrite.apply, if_neg hmd]; rfl, .inl rfl⟩

@[simp]
lemma fireCallback_heap (item : WorkItem) (r : JobRecord) (message : Option String) :
    (fireCallback s item r message).heap = s.heap := by
  unfold fireCallback; split <;> rfl

@[simp]
lemma fireCallback_files (item : WorkItem) (r : JobRecord) (message : Option String) :
    (fireCallback s item r message).files = s.files := by
  unfold fireCallback; split <;> rfl

@[simp]
lemma fireCallback_clock (item : WorkItem) (r : JobRecord) (message : Option String) :
    (fireCallback s item r message).clock = s.clock := by
  unfold fireCallback; split <;> rfl

@[simp]
lemma fireCallback_records (item : WorkItem) (r : JobRecord) (message : Option String) :
    (fireCallback s item r message).records = s.records := by
  unfold fireCallback; split <;> rfl

@[simp]
lemma fireCallback_submits (item : WorkItem) (r : JobRecord) (message : Option String) :
    (fireCallback s item r message).submits = s.submits := by
  unfold fireCallback; split <;> rfl

namespace RecordChange

/-- A step whose records are those of `s.setRecord j' r'`, for a write from `r` to `r'`. -/
lemma setRecord {j' : ℕ} {r r' : JobRecord} (hr : s.heap j' = some r)
    (hw : RecordWrite s.clock j' r r') (hheap : t.heap = (s.setRecord j' r').heap)
    (hfile : r'.status = .completed → s.engine = some j' ∧ t.engine = none ∧
      t.files (.output j') = true) (j : ℕ) :
    RecordChange s t j := by
  rcases eq_or_ne j j' with rfl | hj
  · exact .written r r' hr (by rw [hheap]; exact s.setRecord_heap_self j r') hw hfile
  · exact .same (by rw [hheap]; exact s.setRecord_heap_of_ne r' hj)

/-- A write of the engine thread into the record of the job it runs. -/
lemma engineWrite (h : s.Invariant) {j' : ℕ} (he : s.engine = some j') (w : EngineWrite)
    (j : ℕ) : RecordChange s (s.modifyRecord j' (w.apply s.clock)) j := by
  unfold JobManager.modifyRecord
  split
  · next r hr =>
    obtain ⟨r₀, hr₀, hrun⟩ := h.engine_running j' he
    rw [hr] at hr₀; cases hr₀
    obtain ⟨md, tms, u, heq, -⟩ := w.apply_eq s.clock r
    exact setRecord hr (.engine r w hrun) rfl
      (fun hc => (hrun.unfinished.1 (by rw [heq] at hc; exact hc)).elim) j
  · exact .same rfl

/-- The end of the worker's transcode, with the record `r'` written from `r`. -/
lemma finish (h : s.Invariant) {item : WorkItem} (hw : s.worker = .transcoding item)
    {r : JobRecord} (hr : s.heap item.record = some r)
    {r' : JobRecord} (hr' : r.status.Running → RecordWrite s.clock item.record r r')
    {files : Path → Bool} (hfile : r'.status = .completed → files (.output item.record) = true)
    (message : Option String) (j : ℕ) :
    RecordChange s (fireCallback { s.setRecord item.record r' with engine := none, files := files }
      item r' message) j := by
  obtain ⟨he, r₀, hr₀, hrun, -⟩ := h.transcoding item hw
  rw [hr] at hr₀; cases hr₀
  refine setRecord hr (hr' hrun) (by rw [fireCallback_heap]) (fun hc => ⟨he, ?_, ?_⟩) j
  · unfold fireCallback; split <;> rfl
  · rw [fireCallback_files]; exact hfile hc

end RecordChange

/-- **What a step does to a record.** From a state satisfying the invariant, every step leaves
the record of each job alone, creates it from the job's persisting `submit_job`, or makes one
`RecordWrite` into it. -/
theorem Step.recordChange (h : s.Invariant) (hst : Step settings s t) (j : ℕ) :
    RecordChange s t j := by
  cases hst with
  | persistDone j' name request ts ds hp =>
    rcases eq_or_ne j j' with rfl | hj
    · exact .created name request ts ds hp
        (by rw [persistDone_heap]; exact Function.update_same _ _ _)
    · exact .same (by rw [persistDone_heap]; exact Function.update_noteq hj _ _)
  | dequeue item rest hw hq =>
    unfold MediaEngine.dequeue
    split
    · next r hr =>
      split_ifs with hc
      · exact .same rfl
      · obtain ⟨r₀, hr₀, hwait⟩ := h.queue_status item (hq ▸ List.mem_cons_self _ _)
        rw [hr] at hr₀; cases hr₀
        exact .setRecord hr (.start r (hwait.resolve_right hc)) (by rfl) nofun j
    · exact .same rfl
  | engineDuration j' duration he => exact .engineWrite h he (.duration duration) j
  | engineProgress j' seconds duration he => exact .engineWrite h he (.progress seconds duration) j
  | engineFinalSeconds j' he => exact .engineWrite h he .finalSeconds j
  | transcodeOk item hw =>
    unfold MediaEngine.transcodeOk
    split
    · next r hr => exact .finish h hw hr (.complete r) (fun _ => by simp) _ j
    · exact .same rfl
  | transcodeFail item message hw =>
    unfold MediaEngine.transcodeFail
    split
    · next r hr => exact .finish h hw hr (.fail r message) nofun _ j
    · exact .same rfl
  | cancel j' =>
    unfold cancelJob
    split
    · split
      · next r hr =>
        split
        · exact .same rfl
        · next hnt => exact .setRecord hr (.cancel r (Bool.not_eq_true _ ▸ hnt)) (by rfl) nofun j
      · exact .same rfl
    · exact .same rfl
  | purge unlink =>
    obtain ⟨popped, files, heq⟩ := purgeExpiredJobs_eq unlink settings s
    rw [heq]
    exact .same rfl
  | _ => exact .same rfl

/-- A property that every step from a reachable state keeps holds along every run from a
reachable state that has it. -/
lemma Reachable.run_of_step (P : JobManager → Prop)
    (hP : ∀ {v w : JobManager}, Reachable settings v → P v → Step settings v w → P w)
    (hs : Reachable settings s) (h0 : P s) {u : JobManager}
    (hu : Relation.ReflTransGen (Step settings) s u) : P u := by
  induction hu with
  | refl => exact h0
  | tail hsv hst ih => exact hP (hs.trans hsv) ih hst

/-! ## Finished records -/

/-- No write is made into a completed or failed record. -/
lemma RecordWrite.unfinished {c j : ℕ} {r r' : JobRecord} (hw : RecordWrite c j r r') :
    r.status ≠ .completed ∧ r.status ≠ .failed := by
  cases hw with
  | start hq => exact JobStatus.Waiting.unfinished (.inl hq)
  | engine _ hrun | complete hrun | fail _ hrun => exact hrun.unfinished
  | cancel hnt =>
    constructor <;> intro hs <;> rw [hs] at hnt <;> cases hnt

/-- A step leaves a completed or failed record as it is. -/
lemma RecordChange.heap_of_finished {j : ℕ} (h : s.Invariant) (hc : RecordChange s t j)
    {r : JobRecord} (hr : s.heap j = some r) (hfin : r.status = .completed ∨ r.status = .failed) :
    t.heap j = some r := by
  cases hc with
  | same h' => rw [h', hr]
  | created _ _ _ _ hp _ => rw [h.persisting_heap _ _ _ _ _ hp] at hr; cases hr
  | written r₀ _ hr₀ _ hw _ =>
    rw [hr] at hr₀; cases hr₀
    exact (hfin.elim hw.unfinished.1 hw.unfinished.2).elim

/-- **A finished record never changes.** In every reachable state, once job `j`'s record has
completed or failed, every later state of every run, under any interleaving of submissions,
cancellations, purges, the worker and the engine thread, has the very same record: its
status, output path, error, timestamps, duration and processed seconds are final. -/
theorem reachable_finished_frozen (hs : Reachable settings s) {j : ℕ} {r : JobRecord}
    (hr : s.heap j = some r) (hfin : r.status = .completed ∨ r.status = .failed) {u : JobManager}
    (hu : Relation.ReflTransGen (Step settings) s u) : u.heap j = some r :=
  Invariant.run_of_step (fun u => u.heap j = some r)
    (fun hv hvr hst => (hst.recordChange hv j).heap_of_finished hv hvr hfin)
    (Invariant.reachable hs) hr hu

/-- A job that has completed keeps its record when `cancel_job` is then called on it. -/
theorem reachable_finished_frozen_cancel :
    let s := transcodeOk (dequeue (persistDone {} (submitBegin .init "a.mp4" {}) 0 "a.mp4" {} 0 0)
      ⟨0, {}⟩ []) ⟨0, {}⟩
    Reachable {} s ∧ ∃ r, s.heap 0 = some r ∧ r.status = .completed ∧
      (cancelJob s 0).1.heap 0 = some r := by
  intro s
  have hs : Reachable {} s := .tail (.tail (.tail (.single (.submitBegin _ "a.mp4" {}))
    (.persistDone _ 0 "a.mp4" {} 0 0 rfl)) (.dequeue _ ⟨0, {}⟩ [] rfl rfl))
    (.transcodeOk _ ⟨0, {}⟩ rfl)
  exact ⟨hs, _, rfl, rfl, reachable_finished_frozen hs (show s.heap 0 = some _ from rfl) (.inl rfl) (.single (.cancel _ 0))⟩

/-! ## The clock, the keys, the uploads in flight and the files -/

/-- What a step does outside the records: the clock only moves forward, a new key of
`self.records` is a job whose upload was persisting, an upload persisting after the step was
already persisting or has just started at the current clock, and a file is deleted only as
the upload or the output of a record whose key leaves `self.records` in the same step. -/
structure FrameChange (s t : JobManager) : Prop where
  clock_le : s.clock ≤ t.clock
  records : ∀ j ∈ t.records,
    j ∈ s.records ∨ ∃ name request ts ds, s.submits j = some (.persisting name request ts ds)
  persisting : ∀ j name request ts ds, t.submits j = some (.persisting name request ts ds) →
    s.submits j = some (.persisting name request ts ds) ∨ ts = s.clock ∧ ds = s.clock
  deleted : ∀ p, s.files p = true → t.files p = false →
    ∃ k ∈ s.records, k ∉ t.records ∧
      ∃ r, s.heap k = some r ∧ (p = r.sourcePath ∨ r.outputPath = some p)

namespace FrameChange

/-- A step that keeps the clock, the keys and the uploads in flight, and deletes no file. -/
lemma of_files (hc : t.clock = s.clock) (hr : t.records = s.records)
    (hs : t.submits = s.submits) (hf : ∀ p, s.files p = true → t.files p = true) :
    FrameChange s t :=
  ⟨hc.ge, fun j hj => .inl (hr ▸ hj), fun _ _ _ _ _ hp => .inl (hs ▸ hp),
    fun p h h' => by rw [hf p h] at h'; cases h'⟩

/-- A step that changes none of them. -/
lemma of_eq (hc : t.clock = s.clock) (hr : t.records = s.records) (hs : t.submits = s.submits)
    (hf : t.files = s.files) : FrameChange s t :=
  of_files hc hr hs fun _ h => hf ▸ h

/-- An update of the coroutines that starts no upload. -/
lemma persisting_update {f : ℕ → Option SubmitPc} {j' j : ℕ} {v : Option SubmitPc}
    {name : String} {request : JobRequest} {ts ds : ℕ}
    (h : Function.update f j' v j = some (.persisting name request ts ds))
    (hv : ∀ name request ts ds, v ≠ some (.persisting name request ts ds)) :
    f j = some (.persisting name request ts ds) := by
  rcases eq_or_ne j j' with rfl | hj
  · rw [Function.update_same] at h; exact (hv _ _ _ _ h).elim
  · rwa [Function.update_noteq hj] at h

end FrameChange

/-- **What a step does outside the records.** -/
theorem Step.frameChange (hst : Step settings s t) : FrameChange s t := by
  cases hst with
  | tick d =>
    exact ⟨Nat.le_add_right _ d, fun j hj => .inl hj, fun _ _ _ _ _ hp => .inl hp,
      fun p h h' => by simp only [h] at h'; cases h'⟩
  | submitBegin name request =>
    refine ⟨le_rfl, fun j hj => .inl hj, fun j n r ts ds hp => ?_, fun p h h' => ?_⟩
    · simp only [MediaEngine.submitBegin, Function.update_apply] at hp
      split_ifs at hp
      · simp only [Option.some.injEq, SubmitPc.persisting.injEq] at hp
        exact .inr ⟨hp.2.2.1.symm, hp.2.2.2.symm⟩
      · exact .inl hp
    · simp only [MediaEngine.submitBegin, Function.update_apply] at h'
      split_ifs at h'
      rw [h] at h'; cases h'
  | persistDone j' name request ts ds hp =>
    have hframe : (MediaEngine.persistDone settings s j' name request ts ds).clock = s.clock ∧
        (MediaEngine.persistDone settings s j' name request ts ds).files = s.files ∧
        ∃ v, (MediaEngine.persistDone settings s j' name request ts ds).submits =
          Function.update s.submits j' v ∧ ∀ n r a b, v ≠ some (.persisting n r a b) := by
      unfold MediaEngine.persistDone JobManager.put
      split <;> exact ⟨rfl, rfl, _, rfl, fun _ _ _ _ => nofun⟩
    obtain ⟨hclock, hfiles, v, hsub, hv⟩ := hframe
    refine ⟨hclock.ge, fun j hj => ?_,
      fun _ _ _ _ _ hq => .inl (FrameChange.persisting_update (hsub ▸ hq) hv),
      fun p h h' => by rw [hfiles, h] at h'; cases h'⟩
    rw [persistDone_records] at hj
    rcases mem_insertKey.mp hj with hj | rfl
    exacts [.inl hj, .inr ⟨_, _, _, _, hp⟩]
  | putResume j' request =>
    exact ⟨le_rfl, fun j hj => .inl hj,
      fun _ _ _ _ _ hq => .inl (FrameChange.persisting_update hq fun _ _ _ _ => nofun),
      fun p h h' => by rw [show (s.enqueue j' request).files = s.files from rfl, h] at h'; cases h'⟩
  | submitCancel j' =>
    exact ⟨le_rfl, fun j hj => .inl hj,
      fun _ _ _ _ _ hq => .inl (FrameChange.persisting_update hq fun _ _ _ _ => nofun),
      fun p h h' => by rw [show (MediaEngine.submitCancel s j').files = s.files from rfl, h] at h'; cases h'⟩
  | dequeue =>
    unfold MediaEngine.dequeue; (repeat' split) <;> exact .of_eq rfl rfl rfl rfl
  | engineDuration | engineProgress | engineFinalSeconds =>
    unfold JobManager.modifyRecord; (repeat' split) <;> exact .of_eq rfl rfl rfl rfl
  | transcodeOk =>
    unfold MediaEngine.transcodeOk
    split
    · refine .of_files (by simp [JobManager.setRecord]) (by simp [JobManager.setRecord])
        (by simp [JobManager.setRecord]) fun p h => ?_
      simp only [fireCallback_files, Function.update_apply]
      split_ifs <;> simp [h]
    · exact .of_eq rfl rfl rfl rfl
  | transcodeFail =>
    unfold MediaEngine.transcodeFail
    split
    · exact .of_eq (by simp [JobManager.setRecord]) (by simp [JobManager.setRecord])
        (by simp [JobManager.setRecord]) (by simp [JobManager.setRecord])
    · exact .of_eq rfl rfl rfl rfl
  | engineExit j ok =>
    refine .of_files rfl rfl rfl fun p h => ?_
    split
    · simp only [Function.update_apply]; split_ifs <;> simp [h]
    · exact h
  | cancel => unfold cancelJob; (repeat' split) <;> exact .of_eq rfl rfl rfl rfl
  | purge unlink =>
    obtain ⟨popped, files, heq⟩ := purgeExpiredJobs_eq unlink settings s
    refine ⟨?_, fun j hj => .inl ?_, fun _ _ _ _ _ hq => .inl ?_, fun p h h' => ?_⟩
    · rw [heq]
    · rw [heq] at hj; exact List.mem_of_mem_filter hj
    · rw [heq] at hq; exact hq
    · rcases purgeExpiredJobs_files unlink settings s p with h'' | hdel
      · have h2 : (purgeExpiredJobs settings unlink s).1.files p = false := h'
        rw [h'', h] at h2; cases h2
      · exact hdel
  | _ => exact .of_eq rfl rfl rfl rfl

/-! ## Timestamps -/

/-- The timestamps of a record at clock `c`: all in the past, `created_at ≤ updated_at`, the
download and the transcode each end after they start, and a queued job has not started. -/
structure JobRecord.Chronological (c : ℕ) (r : JobRecord) : Prop where
  created_le_updated : r.createdAt ≤ r.updatedAt
  updated_le : r.updatedAt ≤ c
  download : ∀ a b, r.downloadStartedAt = some a → r.downloadFinishedAt = some b → a ≤ b ∧ b ≤ c
  started_le : ∀ a, r.transcodeStartedAt = some a → a ≤ c
  finished : ∀ b, r.transcodeFinishedAt = some b →
    b ≤ c ∧ ∀ a, r.transcodeStartedAt = some a → a ≤ b
  queued : r.status = .queued → r.transcodeStartedAt = none ∧ r.transcodeFinishedAt = none

namespace JobRecord.Chronological

variable {c : ℕ} {r : JobRecord}

lemma mono (h : r.Chronological c) {c' : ℕ} (hc : c ≤ c') : r.Chronological c' :=
  ⟨h.created_le_updated, h.updated_le.trans hc,
    fun a b ha hb => ⟨(h.download a b ha hb).1, (h.download a b ha hb).2.trans hc⟩,
    fun a ha => (h.started_le a ha).trans hc,
    fun b hb => ⟨(h.finished b hb).1.trans hc, (h.finished b hb).2⟩, h.queued⟩

/-- The record `submit_job` builds at clock `c` from times read earlier. -/
lemma newRecord {j : ℕ} {name : String} {request : JobRequest} {ts ds : ℕ} (hts : ts ≤ c)
    (hds : ds ≤ c) : (MediaEngine.newRecord j name request ts ds c).Chronological c :=
  ⟨le_rfl, hts, fun a b ha hb => by cases ha; cases hb; exact ⟨hds, le_rfl⟩, nofun, nofun,
    fun _ => ⟨rfl, rfl⟩⟩

/-- Every write at clock `c` keeps the timestamps in the past and in order. -/
lemma write (h : r.Chronological c) {j : ℕ} {r' : JobRecord} (hw : RecordWrite c j r r') :
    r'.Chronological c := by
  have hup : r.createdAt ≤ c := h.created_le_updated.trans h.updated_le
  cases hw with
  | start hq =>
    refine ⟨hup, le_rfl, h.download, fun a ha => by cases ha; exact le_rfl, fun b hb => ?_, nofun⟩
    rw [(h.queued hq).2] at hb
    cases hb
  | engine w _ =>
    obtain ⟨md, tms, u, heq, hu⟩ := w.apply_eq c r
    rw [heq]
    rcases hu with rfl | rfl
    exacts [⟨h.1, h.2, h.3, h.4, h.5, h.6⟩, ⟨hup, le_rfl, h.3, h.4, h.5, h.6⟩]
  | complete _ =>
    exact ⟨hup, le_rfl, h.download, h.started_le,
      fun b hb => by cases hb; exact ⟨le_rfl, h.started_le⟩, nofun⟩
  | fail message _ =>
    refine ⟨hup, le_rfl, h.download, h.started_le, fun b hb => ?_, nofun⟩
    simp only [JobRecord.fail] at hb
    split_ifs at hb
    · cases hb; exact ⟨le_rfl, h.started_le⟩
    · exact h.finished b hb
  | cancel _ => exact ⟨hup, le_rfl, h.download, h.started_le, h.finished, nofun⟩

/-- `(b - a).total_seconds()` is not negative when `a ≤ b`. -/
lemma totalSeconds_nonneg {a b : ℕ} (h : a ≤ b) : 0 ≤ totalSeconds a b :=
  div_nonneg (Int.cast_nonneg.mpr (by omega)) (by norm_num)

/-- The view of a record, read at a time `now` past the clock `c`. -/
lemma toDetail (h : r.Chronological c) {now : ℕ} (hnow : c ≤ now) :
    (r.toDetail now).createdAt ≤ (r.toDetail now).updatedAt ∧
      (r.toDetail now).updatedAt ≤ now ∧
      (∀ x, (r.toDetail now).downloadSeconds = some x → 0 ≤ x) ∧
      ∀ x, (r.toDetail now).transcodeSeconds = some x → 0 ≤ x := by
  refine ⟨h.created_le_updated, h.updated_le.trans hnow, fun x hx => ?_, fun x hx => ?_⟩
  · simp only [JobRecord.toDetail] at hx
    split at hx
    · next a b ha hb => cases hx; exact totalSeconds_nonneg (h.download a b ha hb).1
    · cases hx
  · simp only [JobRecord.toDetail, Option.map_eq_some'] at hx
    obtain ⟨a, ha, rfl⟩ := hx
    cases hf : r.transcodeFinishedAt with
    | none => exact totalSeconds_nonneg ((h.started_le a ha).trans hnow)
    | some b => exact totalSeconds_nonneg ((h.finished b hf).2 a ha)

end JobRecord.Chronological

/-- Every record, and every `submit_job` persisting its upload, carries only times up to the
clock, in order. -/
structure JobManager.Chronological (s : JobManager) : Prop where
  records : ∀ j r, s.heap j = some r → r.Chronological s.clock
  persisting : ∀ j name request ts ds, s.submits j = some (.persisting name request ts ds) →
    ts ≤ s.clock ∧ ds ≤ s.clock

lemma JobManager.Chronological.step (h : s.Invariant) (hc : s.Chronological)
    (hst : Step settings s t) : t.Chronological := by
  have hclock := hst.frameChange.clock_le
  refine ⟨fun j r hr => ?_, fun j name request ts ds hp => ?_⟩
  · cases hst.recordChange h j with
    | same h' => exact (hc.records j r (h' ▸ hr)).mono hclock
    | created name request ts ds hp h' =>
      rw [h'] at hr; cases hr
      obtain ⟨hts, hds⟩ := hc.persisting j name request ts ds hp
      exact (JobRecord.Chronological.newRecord hts hds).mono hclock
    | written r₀ r' hr₀ h' hw _ =>
      rw [h'] at hr; cases hr
      exact ((hc.records j r₀ hr₀).write hw).mono hclock
  · rcases hst.frameChange.persisting j name request ts ds hp with hp | ⟨rfl, rfl⟩
    · obtain ⟨hts, hds⟩ := hc.persisting j name request ts ds hp
      exact ⟨hts.trans hclock, hds.trans hclock⟩
    · exact ⟨hclock, hclock⟩

lemma reachable_chronological (hs : Reachable settings s) : s.Chronological :=
  Invariant.run_of_step _ (fun hv hc hst => hc.step hv hst) Invariant.init
    ⟨fun _ _ h => (nomatch h), fun _ _ _ _ _ h => (nomatch h)⟩ hs

/-- **The times a job shows.** In every reachable state, the view `get_job` returns for any
job at any time `now` from the clock on has `created_at ≤ updated_at ≤ now`, and a download
time and a transcode time that are never negative, for a job still transcoding as for a
finished one. -/
theorem reachable_toDetail_times (hs : Reachable settings s) {j now : ℕ} {d : JobDetail}
    (hnow : s.clock ≤ now) (hd : s.getJob j now = some d) :
    d.createdAt ≤ d.updatedAt ∧ d.updatedAt ≤ now ∧
      (∀ x, d.downloadSeconds = some x → 0 ≤ x) ∧ ∀ x, d.transcodeSeconds = some x → 0 ≤ x := by
  unfold JobManager.getJob at hd
  split_ifs at hd
  obtain ⟨r, hr, rfl⟩ := Option.map_eq_some'.mp hd
  exact ((reachable_chronological hs).records j r hr).toDetail hnow

/-- A job uploaded in 5 µs and transcoding for 2 µs, read at the clock. -/
theorem reachable_toDetail_times_transcoding :
    let s := { dequeue { persistDone {} { submitBegin .init "a.mp4" {} with clock := 5 } 0 "a.mp4"
      {} 0 0 with clock := 8 } ⟨0, {}⟩ [] with clock := 10 }
    Reachable {} s ∧ ∃ d, s.getJob 0 10 = some d ∧
      d.createdAt ≤ d.updatedAt ∧ d.updatedAt ≤ 10 ∧
      (∀ x, d.downloadSeconds = some x → 0 ≤ x) ∧ ∀ x, d.transcodeSeconds = some x → 0 ≤ x := by
  intro s
  have hs : Reachable {} s := .tail (.tail (.tail (.tail (.tail (.single
    (.submitBegin _ "a.mp4" {})) (.tick _ 5)) (.persistDone _ 0 "a.mp4" {} 0 0 rfl)) (.tick _ 3))
    (.dequeue _ ⟨0, {}⟩ [] rfl rfl)) (.tick _ 2)
  exact ⟨hs, _, rfl, reachable_toDetail_times hs le_rfl (show s.getJob 0 10 = some _ from rfl)⟩

/-! ## The files of a record -/

/-- The upload of job `j` is `input/{j}_{source_filename}`, and its output, once set,
`output/{j}.mp4`. -/
structure JobRecord.FilePaths (j : ℕ) (r : JobRecord) : Prop where
  source : r.sourcePath = .input j r.sourceFilename
  output : ∀ p, r.outputPath = some p → p = .output j

lemma JobRecord.FilePaths.write {c j : ℕ} {r r' : JobRecord} (h : r.FilePaths j)
    (hw : RecordWrite c j r r') : r'.FilePaths j := by
  cases hw with
  | engine w _ =>
    obtain ⟨md, tms, u, heq, -⟩ := w.apply_eq c r
    rw [heq]
    exact ⟨h.1, h.2⟩
  | complete _ => exact ⟨h.1, fun p hp => (Option.some.inj hp).symm⟩
  | start _ | fail _ _ | cancel _ => exact ⟨h.1, h.2⟩

/-- Every record of a reachable state names the job's own upload and output. -/
lemma reachable_filePaths (hs : Reachable settings s) :
    ∀ j r, s.heap j = some r → r.FilePaths j :=
  Invariant.run_of_step (fun s => ∀ j r, s.heap j = some r → r.FilePaths j)
    (fun hv hp hst j r hr => by
      cases hst.recordChange hv j with
      | same h' => exact hp j r (h' ▸ hr)
      | created _ _ _ _ _ h' => rw [h'] at hr; cases hr; exact ⟨rfl, nofun⟩
      | written r₀ _ hr₀ h' hw _ => rw [h'] at hr; cases hr; exact (hp j r₀ hr₀).write hw)
    Invariant.init (fun _ _ h => (nomatch h)) hs

end MediaEngine
