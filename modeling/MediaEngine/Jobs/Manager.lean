import MediaEngine.Jobs.Record
import Mathlib.Logic.Relation
import Mathlib.Logic.Function.Basic

set_option autoImplicit false

/-!
# The job manager

`JobManager` of `app/jobs.py` as a state machine. Its coroutines run on one event loop and
interleave only at `await`s, so each stretch of code between two suspension points is one
atomic step. `_process_sync` runs on an executor thread, so its writes into the record
interleave with everything else.

## Main definitions

* `MediaEngine.JobManager` — the manager's state: the clock, every `JobRecord` object created
  so far (`heap`), the keys of `self.records`, the queue, the worker's suspension point, the
  `submit_job` coroutines in flight, the engine thread, the files on disk, and the log of
  webhook dispatches.
* `MediaEngine.submitBegin`, `persistDone`, `putResume`, `dequeue`, `transcodeOk`,
  `transcodeFail`, `cancelJob`, `purgeExpiredJobs`, … — the atomic stretches of
  `submit_job`, `_worker`, `cancel_job`, `purge_expired_jobs` and of the engine thread.
* `MediaEngine.Step` — one atomic step of any party; `MediaEngine.Reachable` — the states of
  every interleaving from the empty manager.

## Design

* `self.records` maps a job id to the record object, and a `WorkItem` holds the same object;
  `purge_expired_jobs` drops the key but the queued `WorkItem` keeps the object alive. The
  model keeps every object in `heap` by id, `records` lists the dict's keys in insertion
  order, and a `WorkItem` names its record by id.
* `submit_job` has two kinds of suspension: inside `_persist_upload`, before the record
  exists, and in `queue.put`, which waits while the queue is full (`asyncio.Queue.full`:
  `0 < maxsize ≤ qsize`). Either can end by cancellation of the coroutine.
* `await self.transcoder.process(...)` resumes after the engine thread has returned; the
  thread's own writes (`engineDuration`, `engineProgress`, `engineFinalSeconds`) are steps
  of their own. `stop()` cancels the worker, but the thread runs on, and its result is
  dropped (`engineExit`).
* `_fire_callback` calls `CallbackDispatcher.dispatch` before its first suspension, so the
  step that finalises a job also records the dispatch. `dispatch` catches every `Exception`
  of its attempts, so the `await` returns normally (`callbackDone`).
* The scratch file in `work_dir` is not modelled; the upload and the output are.
-/

namespace MediaEngine

/-- The settings the manager reads: `max_queue_size` and `job_retention_minutes`. -/
structure Settings where
  maxQueueSize : ℤ := 50
  jobRetentionMinutes : ℤ := 120

/-- Where `_worker` is suspended. -/
inductive WorkerPc
  | idle
  | transcoding (item : WorkItem)
  | notifying (item : WorkItem)
  | stopped
  deriving DecidableEq, Repr

/-- Where a `submit_job` coroutine is suspended: inside `_persist_upload`, with the values it
computed before (`original_name`, the request, `timestamp`, `download_started`), or in
`queue.put`. -/
inductive SubmitPc
  | persisting (name : String) (request : JobRequest) (timestamp downloadStarted : ℕ)
  | putting (request : JobRequest)
  deriving DecidableEq, Repr

/-- The state of a `JobManager` and of the parties acting on it. -/
@[ext]
structure JobManager where
  clock : ℕ
  heap : ℕ → Option JobRecord
  records : List ℕ
  queue : List WorkItem
  worker : WorkerPc
  maintenanceAlive : Bool
  submits : ℕ → Option SubmitPc
  engine : Option ℕ
  files : Path → Bool
  dispatched : List CallbackPayload
  nextId : ℕ

/-- A manager after `start()`, with no job. -/
def JobManager.init : JobManager :=
  ⟨0, fun _ => none, [], [], .idle, true, fun _ => none, none, fun _ => false, [], 0⟩

/-- `asyncio.Queue.full()` for `maxsize = max_queue_size`. -/
def JobManager.queueFull (settings : Settings) (s : JobManager) : Prop :=
  0 < settings.maxQueueSize ∧ settings.maxQueueSize ≤ s.queue.length

instance (settings : Settings) (s : JobManager) : Decidable (s.queueFull settings) :=
  inferInstanceAs (Decidable (_ ∧ _))

/-- Replace the record object of job `j`. -/
def JobManager.setRecord (s : JobManager) (j : ℕ) (r : JobRecord) : JobManager :=
  { s with heap := Function.update s.heap j (some r) }

@[simp]
lemma JobManager.setRecord_heap_self (s : JobManager) (j : ℕ) (r : JobRecord) :
    (s.setRecord j r).heap j = some r :=
  Function.update_same _ _ _

lemma JobManager.setRecord_heap_of_ne (s : JobManager) {j k : ℕ} (r : JobRecord) (h : k ≠ j) :
    (s.setRecord j r).heap k = s.heap k :=
  Function.update_noteq h _ _

/-- Apply `f` to the record of job `j`, if there is one. -/
def JobManager.modifyRecord (s : JobManager) (j : ℕ) (f : JobRecord → JobRecord) :
    JobManager :=
  match s.heap j with
  | some r => s.setRecord j (f r)
  | none => s

/-! ## `submit_job` -/

/-- `submit_job` up to its first suspension in `_persist_upload`: a fresh id, `timestamp` and
`download_started`, and the destination file opened for writing. -/
def submitBegin (s : JobManager) (name : String) (request : JobRequest) : JobManager :=
  { s with
    nextId := s.nextId + 1
    submits := Function.update s.submits s.nextId (some (.persisting name request s.clock s.clock))
    files := Function.update s.files (.input s.nextId name) true }

/-- The record `submit_job` builds once the upload is persisted. -/
def newRecord (j : ℕ) (name : String) (request : JobRequest)
    (timestamp downloadStarted downloadFinished : ℕ) : JobRecord where
  jobId := j
  status := .queued
  createdAt := timestamp
  updatedAt := timestamp
  sourcePath := .input j name
  sourceFilename := name
  outputPath := none
  quality := request.quality
  codec := request.codec
  callbackUrl := if pyTruthy request.callbackUrl then request.callbackUrl else none
  downloadStartedAt := some downloadStarted
  downloadFinishedAt := some downloadFinished

/-- `self.records[job_id] = record` on the list of keys. -/
def insertKey (keys : List ℕ) (j : ℕ) : List ℕ :=
  if j ∈ keys then keys else keys ++ [j]

@[simp]
lemma mem_insertKey {keys : List ℕ} {j k : ℕ} : k ∈ insertKey keys j ↔ k ∈ keys ∨ k = j := by
  unfold insertKey
  split_ifs with hj
  · exact ⟨.inl, fun h => h.elim id fun hk => hk ▸ hj⟩
  · simp

/-- `queue.put_nowait(item)`, which returns the coroutine `submit_job` holds for job `j`. -/
def JobManager.enqueue (s : JobManager) (j : ℕ) (request : JobRequest) : JobManager :=
  { s with queue := s.queue ++ [⟨j, request⟩], submits := Function.update s.submits j none }

/-- `await self.queue.put(item)` for job `j`'s coroutine: it enqueues at once, unless the
queue is full and it suspends. -/
def JobManager.put (settings : Settings) (s : JobManager) (j : ℕ) (request : JobRequest) :
    JobManager :=
  if s.queueFull settings then { s with submits := Function.update s.submits j (some (.putting request)) }
  else s.enqueue j request

/-- `submit_job` from the end of `_persist_upload` of job `j`: `download_finished`, the record,
`self.records[job_id] = record`, and `queue.put`. -/
def persistDone (settings : Settings) (s : JobManager) (j : ℕ) (name : String)
    (request : JobRequest) (timestamp downloadStarted : ℕ) : JobManager :=
  JobManager.put settings
    { s.setRecord j (newRecord j name request timestamp downloadStarted s.clock) with
      records := insertKey s.records j } j request

/-- A `submit_job` coroutine cancelled, or failing, at its current `await`. -/
def submitCancel (s : JobManager) (j : ℕ) : JobManager :=
  { s with submits := Function.update s.submits j none }

/-! ## `_worker` -/

/-- `_worker` after `queue.get()` returned `item`: a cancelled record is skipped; otherwise
it is marked `processing`, `transcode_started_at` is set and the engine thread starts. -/
def dequeue (s : JobManager) (item : WorkItem) (rest : List WorkItem) : JobManager :=
  match s.heap item.record with
  | some r =>
    if r.status = .cancelled then { s with queue := rest }
    else
      { s.setRecord item.record
          { r with status := .processing, updatedAt := s.clock, transcodeStartedAt := some s.clock } with
        queue := rest, worker := .transcoding item, engine := some item.record }
  | none => { s with queue := rest }

/-- `_fire_callback(record, message)`: a dispatch when the record has a callback URL, and the
worker then suspends inside it. -/
def fireCallback (s : JobManager) (item : WorkItem) (r : JobRecord) (message : Option String) :
    JobManager :=
  if pyTruthy r.callbackUrl then
    { s with
      dispatched := s.dispatched ++ [⟨r.jobId, r.status, r.outputPath, message⟩]
      worker := .notifying item }
  else { s with worker := .idle }

/-- The writes of the success branch of `_worker` into job `j`'s record. -/
def JobRecord.complete (r : JobRecord) (j : ℕ) (now : ℕ) : JobRecord :=
  { r with
    transcodeFinishedAt := some now, outputPath := some (.output j), status := .completed,
    updatedAt := now }

/-- The writes of the `except Exception as exc` branch of `_worker` into a record. -/
def JobRecord.fail (r : JobRecord) (message : String) (now : ℕ) : JobRecord :=
  { r with
    status := .failed, updatedAt := now, error := some message,
    transcodeFinishedAt :=
      if r.transcodeFinishedAt = none ∧ r.transcodeStartedAt ≠ none then some now
      else r.transcodeFinishedAt }

/-- The success branch of `_worker`: the engine returned, the output was moved into place. -/
def transcodeOk (s : JobManager) (item : WorkItem) : JobManager :=
  match s.heap item.record with
  | some r =>
    fireCallback { s.setRecord item.record (r.complete item.record s.clock) with
      engine := none, files := Function.update s.files (.output item.record) true } item
      (r.complete item.record s.clock) (some "completed")
  | none => { s with engine := none, worker := .idle }

/-- The `except Exception as exc` branch of `_worker`. -/
def transcodeFail (s : JobManager) (item : WorkItem) (message : String) : JobManager :=
  match s.heap item.record with
  | some r =>
    fireCallback { s.setRecord item.record (r.fail message s.clock) with engine := none } item
      (r.fail message s.clock) (some message)
  | none => { s with engine := none, worker := .idle }

/-! ## `get_job`, `list_jobs`, `cancel_job` and `purge_expired_jobs` -/

/-- `get_job(job_id)` at time `now`: the detail of the record keyed by `job_id`. -/
def JobManager.getJob (s : JobManager) (j : ℕ) (now : ℕ) : Option JobDetail :=
  if j ∈ s.records then (s.heap j).map (·.toDetail now) else none

/-- `list_jobs()` at time `now`: the details of the records in `self.records`, in insertion
order. -/
def JobManager.listJobs (s : JobManager) (now : ℕ) : List JobDetail :=
  s.records.filterMap fun j => (s.heap j).map (·.toDetail now)

/-- `cancel_job(job_id)`: a known, non-terminal record becomes `cancelled`. -/
def cancelJob (s : JobManager) (j : ℕ) : JobManager × Bool :=
  if j ∈ s.records then
    match s.heap j with
    | some r =>
      if r.status.isTerminal then (s, false)
      else (s.setRecord j { r with status := .cancelled, updatedAt := s.clock }, true)
    | none => (s, false)
  else (s, false)

/-- What one `Path.unlink()` call does. -/
inductive UnlinkOutcome
  | removed
  | fileNotFound
  | osError (message : String)
  deriving DecidableEq, Repr

/-- `path.unlink()` inside `contextlib.suppress(FileNotFoundError)`: the files after it, and
the exception that escapes, if any. -/
def unlinkSuppressed (files : Path → Bool) (p : Path) : UnlinkOutcome → (Path → Bool) × Option String
  | .removed => (Function.update files p false, none)
  | .fileNotFound => (files, none)
  | .osError e => (files, some e)

/-- The `unlink`s for one popped record: its source, then its output if it has one. -/
def unlinkRecordFiles (unlink : Path → UnlinkOutcome) (files : Path → Bool) (r : JobRecord) :
    (Path → Bool) × Option String :=
  match unlinkSuppressed files r.sourcePath (unlink r.sourcePath) with
  | (files, some e) => (files, some e)
  | (files, none) =>
    match r.outputPath with
    | some out => unlinkSuppressed files out (unlink out)
    | none => (files, none)

/-- The loop body of `purge_expired_jobs` for job `j`: `self.records.pop(job_id)`, then the
`unlink`s of the popped record. -/
def purgeOne (unlink : Path → UnlinkOutcome) (s : JobManager) (j : ℕ) :
    JobManager × Option String :=
  match s.heap j with
  | some r =>
    ({ s with
        records := s.records.filter (· ≠ j)
        files := (unlinkRecordFiles unlink s.files r).1 },
      (unlinkRecordFiles unlink s.files r).2)
  | none => ({ s with records := s.records.filter (· ≠ j) }, none)

/-- The `for job_id in to_delete` loop; an escaping exception ends it. -/
def purgeLoop (unlink : Path → UnlinkOutcome) : JobManager → List ℕ → JobManager × Option String
  | s, [] => (s, none)
  | s, j :: js =>
    match purgeOne unlink s j with
    | (s', some e) => (s', some e)
    | (s', none) => purgeLoop unlink s' js

/-- `updated_at < cutoff` with `cutoff = now - timedelta(minutes=job_retention_minutes)`, read
when the cutoff is a `datetime` (`cutoffOverflow` is `none`). -/
def JobManager.Expired (settings : Settings) (s : JobManager) (j : ℕ) : Prop :=
  ∃ r, s.heap j = some r ∧ (r.updatedAt : ℤ) < s.clock - settings.jobRetentionMinutes * 60000000

instance (settings : Settings) (s : JobManager) (j : ℕ) : Decidable (s.Expired settings j) :=
  match h : s.heap j with
  | some r => decidable_of_iff ((r.updatedAt : ℤ) < s.clock - settings.jobRetentionMinutes * 60000000)
      ⟨fun hlt => ⟨r, h, hlt⟩, fun ⟨r', hr', hlt⟩ => by rw [h, Option.some.injEq] at hr'; exact hr' ▸ hlt⟩
  | none => isFalse fun ⟨_, hr, _⟩ => by rw [h] at hr; cases hr

/-- `datetime.max`, `9999-12-31 23:59:59.999999`, as a clock value. -/
def datetimeMax : ℤ := 315537897599999999

/-- The `OverflowError` that `datetime.utcnow() - timedelta(minutes=job_retention_minutes)`
raises at clock `now`, if any. `timedelta` normalises the minutes to `minutes // 1440` days,
which must fit a C `int` and have magnitude at most `999999999`; the difference must lie
between `datetime.min` and `datetime.max`. -/
def cutoffOverflow (settings : Settings) (now : ℕ) : Option String :=
  let days := settings.jobRetentionMinutes / 1440
  if days < -2147483648 ∨ 2147483647 < days then some "Python int too large to convert to C int"
  else if days < -999999999 ∨ 999999999 < days then
    some s!"days={days}; must have magnitude <= 999999999"
  else if (now : ℤ) - settings.jobRetentionMinutes * 60000000 < 0 ∨
      datetimeMax < (now : ℤ) - settings.jobRetentionMinutes * 60000000 then
    some "date value out of range"
  else none

/-- `purge_expired_jobs`, with the outcome of every `unlink` it may call: the state after it,
and the exception that escapes, if any. An `OverflowError` of the cutoff escapes before any
key is popped. -/
def purgeExpiredJobs (settings : Settings) (unlink : Path → UnlinkOutcome) (s : JobManager) :
    JobManager × Option String :=
  match cutoffOverflow settings s.clock with
  | some e => (s, some e)
  | none => purgeLoop unlink s (s.records.filter fun j => s.Expired settings j)

/-! ## Steps -/

/-- One atomic step of the manager, of a `submit_job` coroutine, of the worker, of the engine
thread, of the maintenance loop, or of `cancel_job`. -/
inductive Step (settings : Settings) : JobManager → JobManager → Prop
  /-- Time passes. -/
  | tick (s : JobManager) (d : ℕ) : Step settings s { s with clock := s.clock + d }
  /-- A request enters `submit_job`. -/
  | submitBegin (s : JobManager) (name : String) (request : JobRequest) :
      Step settings s (submitBegin s name request)
  /-- `_persist_upload` returns. -/
  | persistDone (s : JobManager) (j : ℕ) (name : String) (request : JobRequest)
      (timestamp downloadStarted : ℕ) :
      s.submits j = some (.persisting name request timestamp downloadStarted) →
      Step settings s (persistDone settings s j name request timestamp downloadStarted)
  /-- `queue.put` wakes up with room in the queue. -/
  | putResume (s : JobManager) (j : ℕ) (request : JobRequest) :
      s.submits j = some (.putting request) → ¬ s.queueFull settings →
      Step settings s (s.enqueue j request)
  /-- A `submit_job` coroutine is cancelled or fails at its `await`. -/
  | submitCancel (s : JobManager) (j : ℕ) (pc : SubmitPc) :
      s.submits j = some pc → Step settings s (submitCancel s j)
  /-- `queue.get()` returns the head of the queue to the idle worker. -/
  | dequeue (s : JobManager) (item : WorkItem) (rest : List WorkItem) :
      s.worker = .idle → s.queue = item :: rest → Step settings s (dequeue s item rest)
  /-- The engine thread sets `record.media_duration_seconds = info.duration`. -/
  | engineDuration (s : JobManager) (j : ℕ) (duration : Option ℚ) :
      s.engine = some j →
      Step settings s (s.modifyRecord j fun r => { r with mediaDurationSeconds := duration })
  /-- The engine thread calls `_update_progress`. -/
  | engineProgress (s : JobManager) (j : ℕ) (seconds duration : ℚ) :
      s.engine = some j →
      Step settings s (s.modifyRecord j fun r => r.updateProgress seconds duration s.clock)
  /-- The engine thread's last write: `transcode_media_seconds = media_duration_seconds`. -/
  | engineFinalSeconds (s : JobManager) (j : ℕ) :
      s.engine = some j →
      Step settings s (s.modifyRecord j fun r =>
        if r.mediaDurationSeconds ≠ none then { r with transcodeMediaSeconds := r.mediaDurationSeconds }
        else r)
  /-- `process` returns its result to the worker. -/
  | transcodeOk (s : JobManager) (item : WorkItem) :
      s.worker = .transcoding item → Step settings s (transcodeOk s item)
  /-- `process` raises. -/
  | transcodeFail (s : JobManager) (item : WorkItem) (message : String) :
      s.worker = .transcoding item → Step settings s (transcodeFail s item message)
  /-- `dispatch` returns to the worker. -/
  | callbackDone (s : JobManager) (item : WorkItem) :
      s.worker = .notifying item → Step settings s { s with worker := .idle }
  /-- The engine thread of a cancelled worker returns; `ok` when it moved an output into
  place. -/
  | engineExit (s : JobManager) (j : ℕ) (ok : Bool) :
      s.engine = some j → s.worker = .stopped →
      Step settings s { s with
        engine := none
        files := if ok then Function.update s.files (.output j) true else s.files }
  /-- `cancel_job(j)`. -/
  | cancel (s : JobManager) (j : ℕ) : Step settings s (cancelJob s j).1
  /-- The maintenance loop runs `purge_expired_jobs`; an escaping exception ends the loop. -/
  | purge (s : JobManager) (unlink : Path → UnlinkOutcome) :
      s.maintenanceAlive = true →
      Step settings s { (purgeExpiredJobs settings unlink s).1 with
        maintenanceAlive := (purgeExpiredJobs settings unlink s).2.isNone }
  /-- `stop()` cancels the worker and the maintenance loop. -/
  | stop (s : JobManager) : Step settings s { s with worker := .stopped, maintenanceAlive := false }

/-- The states of every interleaving from a started, empty manager. -/
def Reachable (settings : Settings) (s : JobManager) : Prop :=
  Relation.ReflTransGen (Step settings) JobManager.init s

end MediaEngine
