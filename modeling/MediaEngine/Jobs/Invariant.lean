import MediaEngine.Jobs.Purge
import Mathlib.Data.List.Nodup

set_option autoImplicit false

/-!
# The invariant of reachable managers

What holds of every state some interleaving reaches: which party refers to each record, what
status a record can have while it is referred to, and what each record looks like for its
status.

## Main definitions

* `MediaEngine.WorkerPc.Holds` — the worker is transcoding or notifying job `j`.
* `MediaEngine.JobRecord.expectedDispatches` — the dispatches a record's history implies:
  one for a completed or failed job with a callback URL, none otherwise.
* `MediaEngine.JobManager.Invariant` — the invariant.

## Main results

* `MediaEngine.JobManager.Invariant.step` — every step keeps the invariant.
* `MediaEngine.JobManager.Invariant.reachable` — it holds in every reachable state.

## Design

Each job is referred to by at most one party at a time: its `submit_job` coroutine while that
waits in `queue.put`, then the queue, then the worker. A job's id is fresh when its coroutine
starts, it has no record while the upload is persisted, and it enters the queue only from its
own coroutine. Nothing refers to a job again once the worker has finished it.
-/

namespace MediaEngine

/-- The worker is transcoding job `j`, or notifying its webhook. -/
def WorkerPc.Holds : WorkerPc → ℕ → Prop
  | .transcoding item, j | .notifying item, j => item.record = j
  | .idle, _ | .stopped, _ => False

/-- The webhook calls a record's history has made: `_fire_callback` runs once, when the job
completes or fails, and dispatches only when the record has a callback URL. -/
def JobRecord.expectedDispatches (r : JobRecord) : List CallbackPayload :=
  if pyTruthy r.callbackUrl then
    match r.status with
    | .completed => [⟨r.jobId, .completed, r.outputPath, some "completed"⟩]
    | .failed => [⟨r.jobId, .failed, r.outputPath, r.error⟩]
    | _ => []
  else []

/-- The dispatches that carry job `j`. -/
def JobManager.dispatchesOf (s : JobManager) (j : ℕ) : List CallbackPayload :=
  s.dispatched.filter (·.jobId = j)

/-- The job ids in the queue. -/
def JobManager.queuedIds (s : JobManager) : List ℕ := s.queue.map (·.record)

/-- The status a record has while it waits for the queue or in it. -/
def JobStatus.Waiting (st : JobStatus) : Prop := st = .queued ∨ st = .cancelled

/-- The status a record has while the worker transcodes it. -/
def JobStatus.Running (st : JobStatus) : Prop := st = .processing ∨ st = .cancelled

/-- A value read from an updated function comes from the update or from the old function. -/
lemma update_eq_some {α : Type} {f : ℕ → Option α} {j k : ℕ} {v : Option α} {a : α}
    (h : Function.update f j v k = some a) : (k = j ∧ v = some a) ∨ (k ≠ j ∧ f k = some a) := by
  by_cases hkj : k = j
  · subst hkj; simp at h; exact .inl ⟨rfl, h⟩
  · rw [Function.update_noteq hkj] at h; exact .inr ⟨hkj, h⟩

/-! ## Records -/

lemma JobStatus.Waiting.unfinished {st : JobStatus} (h : st.Waiting) :
    st ≠ .completed ∧ st ≠ .failed := by
  rcases h with rfl | rfl <;> decide

lemma JobStatus.Running.unfinished {st : JobStatus} (h : st.Running) :
    st ≠ .completed ∧ st ≠ .failed := by
  rcases h with rfl | rfl <;> decide

/-- A job that has neither completed nor failed has had no dispatch. -/
lemma JobRecord.expectedDispatches_eq_nil {r : JobRecord}
    (h : r.status ≠ .completed ∧ r.status ≠ .failed) : r.expectedDispatches = [] := by
  cases hs : r.status <;> simp_all [JobRecord.expectedDispatches]

/-- A record that has neither completed nor failed is well-formed when it has no output and
no error. -/
lemma JobRecord.wellFormed_of_unfinished {r : JobRecord}
    (h : r.status ≠ .completed ∧ r.status ≠ .failed) (ho : r.outputPath = none)
    (he : r.error = none) : r.WellFormed :=
  ⟨by simp [ho, h.1], by simp [he, h.2], fun hf => (hf.elim h.1 h.2).elim⟩

lemma JobRecord.WellFormed.outputPath_eq_none {r : JobRecord} (hr : r.WellFormed)
    (hc : r.status ≠ .completed) : r.outputPath = none :=
  Option.not_isSome_iff_eq_none.1 fun ho => hc (hr.output_iff.1 ho)

lemma JobRecord.WellFormed.error_eq_none {r : JobRecord} (hr : r.WellFormed)
    (hf : r.status ≠ .failed) : r.error = none :=
  Option.not_isSome_iff_eq_none.1 fun he => hf (hr.error_iff.1 he)

/-- Two records agree on everything the invariant reads. -/
structure JobRecord.SameShape (r r' : JobRecord) : Prop where
  jobId : r'.jobId = r.jobId
  status : r'.status = r.status
  outputPath : r'.outputPath = r.outputPath
  error : r'.error = r.error
  callbackUrl : r'.callbackUrl = r.callbackUrl
  transcodeStartedAt : r'.transcodeStartedAt = r.transcodeStartedAt
  transcodeFinishedAt : r'.transcodeFinishedAt = r.transcodeFinishedAt

lemma JobRecord.SameShape.expectedDispatches {r r' : JobRecord} (h : r.SameShape r') :
    r'.expectedDispatches = r.expectedDispatches := by
  simp only [JobRecord.expectedDispatches, h.jobId, h.status, h.outputPath, h.error, h.callbackUrl]

lemma JobRecord.SameShape.wellFormed {r r' : JobRecord} (h : r.SameShape r') (hr : r.WellFormed) :
    r'.WellFormed := by
  obtain ⟨-, hs, ho, he, -, hst, hfin⟩ := h
  exact ⟨by rw [ho, hs]; exact hr.output_iff, by rw [he, hs]; exact hr.error_iff,
    by rw [hs, hst, hfin]; exact hr.finished⟩

/-- The invariant of reachable managers. -/
structure JobManager.Invariant (s : JobManager) : Prop where
  /-- Ids from `nextId` on have not been handed out. -/
  fresh_heap : ∀ j, s.nextId ≤ j → s.heap j = none
  fresh_submits : ∀ j, s.nextId ≤ j → s.submits j = none
  /-- A job still persisting its upload has no record yet. -/
  persisting_heap : ∀ j name request ts ds,
    s.submits j = some (.persisting name request ts ds) → s.heap j = none
  /-- Every key of `self.records` has a record. -/
  records_heap : ∀ j ∈ s.records, (s.heap j).isSome
  /-- Every record carries its own id, is well-formed, and has had the dispatches its status
  implies. -/
  record_id : ∀ j r, s.heap j = some r → r.jobId = j
  wellFormed : ∀ j r, s.heap j = some r → r.WellFormed
  dispatches : ∀ j, s.dispatchesOf j = ((s.heap j).map JobRecord.expectedDispatches).getD []
  /-- A job waiting in `queue.put` or in the queue is queued or cancelled. -/
  putting_status : ∀ j request, s.submits j = some (.putting request) →
    ∃ r, s.heap j = some r ∧ r.status.Waiting
  queue_status : ∀ item ∈ s.queue, ∃ r, s.heap item.record = some r ∧ r.status.Waiting
  /-- The job the worker transcodes is processing or cancelled, has started, and the engine
  thread runs it. -/
  transcoding : ∀ item, s.worker = .transcoding item → s.engine = some item.record ∧
    ∃ r, s.heap item.record = some r ∧ r.status.Running ∧ r.transcodeStartedAt.isSome
  /-- The engine thread runs a job that is processing or cancelled, also after `stop()`. -/
  engine_running : ∀ j, s.engine = some j → ∃ r, s.heap j = some r ∧ r.status.Running
  /-- The job whose webhook the worker awaits has completed or failed. -/
  notifying : ∀ item, s.worker = .notifying item →
    ∃ r, s.heap item.record = some r ∧ (r.status = .completed ∨ r.status = .failed)
  held_heap : ∀ j, s.worker.Holds j → (s.heap j).isSome
  /-- One party at a time refers to a job. -/
  queue_nodup : s.queuedIds.Nodup
  putting_not_queued : ∀ j request, s.submits j = some (.putting request) → j ∉ s.queuedIds
  putting_not_held : ∀ j request, s.submits j = some (.putting request) → ¬ s.worker.Holds j
  queued_not_held : ∀ j ∈ s.queuedIds, ¬ s.worker.Holds j

namespace JobManager.Invariant

variable {s : JobManager}

lemma init : JobManager.init.Invariant where
  fresh_heap _ _ := rfl
  fresh_submits _ _ := rfl
  persisting_heap _ _ _ _ _ h := by cases h
  records_heap _ h := by cases h
  record_id _ _ h := by cases h
  wellFormed _ _ h := by cases h
  dispatches _ := rfl
  putting_status _ _ h := by cases h
  queue_status _ h := by cases h
  transcoding _ h := by cases h
  engine_running _ h := by cases h
  notifying _ h := by cases h
  held_heap _ h := h.elim
  queue_nodup := List.nodup_nil
  putting_not_queued _ _ h := by cases h
  putting_not_held _ _ h := by cases h
  queued_not_held _ h := by cases h

/-! ## Steps that touch no record, queue or coroutine -/

/-- A step that changes nothing the invariant reads, apart from dropping keys of
`self.records`, keeps the invariant. -/
lemma of_frame {s t : JobManager} (h : s.Invariant) (hheap : t.heap = s.heap)
    (hsubmits : t.submits = s.submits) (hqueue : t.queue = s.queue) (hworker : t.worker = s.worker)
    (hengine : t.engine = s.engine) (hdispatched : t.dispatched = s.dispatched)
    (hnext : t.nextId = s.nextId) (hrecords : ∀ j ∈ t.records, j ∈ s.records) : t.Invariant := by
  obtain ⟨_, heap, records, queue, worker, _, submits, engine, _, dispatched, nextId⟩ := t
  subst hheap hsubmits hqueue hworker hengine hdispatched hnext
  exact { h with records_heap := fun j hj => h.records_heap j (hrecords j hj) }

/-- A job with a record has been handed its id. -/
lemma lt_nextId (h : s.Invariant) {j : ℕ} (hj : (s.heap j).isSome) : j < s.nextId :=
  Nat.lt_of_not_le fun hge => by rw [h.fresh_heap j hge] at hj; cases hj

/-- A job with a record is no longer persisting its upload. -/
lemma not_persisting (h : s.Invariant) {j : ℕ} (hj : (s.heap j).isSome) (name : String)
    (request : JobRequest) (ts ds : ℕ) : s.submits j ≠ some (.persisting name request ts ds) :=
  fun hp => by rw [h.persisting_heap j name request ts ds hp] at hj; cases hj

/-- A job that has neither completed nor failed has had no dispatch. -/
lemma dispatchesOf_eq_nil (h : s.Invariant) {j : ℕ} {r : JobRecord} (hr : s.heap j = some r)
    (hun : r.status ≠ .completed ∧ r.status ≠ .failed) : s.dispatchesOf j = [] := by
  rw [h.dispatches j, hr]; exact JobRecord.expectedDispatches_eq_nil hun

/-! ## The worker and the queue -/

/-- The worker may move to `w`, with the engine at `e`, when the job `w` transcodes runs on
the engine and is running, and every job `w` holds has a record no other party refers to. -/
lemma setWorker (h : s.Invariant) (w : WorkerPc) (e : Option ℕ)
    (htrans : ∀ item, w = .transcoding item → e = some item.record ∧
      ∃ r, s.heap item.record = some r ∧ r.status.Running ∧ r.transcodeStartedAt.isSome)
    (hengine : ∀ j, e = some j → ∃ r, s.heap j = some r ∧ r.status.Running)
    (hnotify : ∀ item, w = .notifying item →
      ∃ r, s.heap item.record = some r ∧ (r.status = .completed ∨ r.status = .failed))
    (hheld : ∀ j, w.Holds j → (s.heap j).isSome ∧ j ∉ s.queuedIds ∧
      ∀ request, s.submits j ≠ some (.putting request)) :
    { s with worker := w, engine := e }.Invariant :=
  { h with
    transcoding := htrans
    engine_running := hengine
    notifying := hnotify
    held_heap := fun j hj => (hheld j hj).1
    putting_not_held := fun j r hp hj => (hheld j hj).2.2 r hp
    queued_not_held := fun j hj hj' => (hheld j hj').2.1 hj }

/-- The worker may drop every reference: it goes idle or is stopped, while the engine thread
goes on with its job or is done. -/
lemma release (h : s.Invariant) (w : WorkerPc) (hw : w = .idle ∨ w = .stopped) (e : Option ℕ)
    (he : e = s.engine ∨ e = none) : { s with worker := w, engine := e }.Invariant :=
  h.setWorker w e (by rcases hw with rfl | rfl <;> nofun)
    (fun j hj => by rcases he with rfl | rfl; exacts [h.engine_running j hj, nomatch hj])
    (by rcases hw with rfl | rfl <;> nofun)
    (by rcases hw with rfl | rfl <;> exact fun _ h => h.elim)

/-- `queue.get()` takes the head of the queue. -/
lemma popQueue (h : s.Invariant) {item : WorkItem} {rest : List WorkItem}
    (hq : s.queue = item :: rest) : { s with queue := rest }.Invariant := by
  have hids : s.queuedIds = item.record :: rest.map (·.record) := by simp [queuedIds, hq]
  have hsub : ∀ k ∈ rest.map (·.record), k ∈ s.queuedIds := fun k hk =>
    hids ▸ List.mem_cons_of_mem _ hk
  exact { h with
    queue_status := fun i hi => h.queue_status i (hq ▸ List.mem_cons_of_mem _ hi)
    queue_nodup := (hids ▸ h.queue_nodup).of_cons
    putting_not_queued := fun k r hk hk' => h.putting_not_queued k r hk (hsub k hk')
    queued_not_held := fun k hk => h.queued_not_held k (hsub k hk) }

/-! ## Writing one record -/

/-- Writing the record of a handed-out job `j` keeps the invariant when the job is not
persisting its upload, the new record carries its id and is well-formed, its status is the
one each party referring to the job expects, and the dispatch log `d` carries for `j`
exactly what the new status implies and for every other job what it carried before. -/
lemma setRecord (h : s.Invariant) {j : ℕ} (r' : JobRecord) (d : List CallbackPayload)
    (hlt : j < s.nextId)
    (hpers : ∀ name request ts ds, s.submits j ≠ some (.persisting name request ts ds))
    (hput : ∀ request, s.submits j = some (.putting request) → r'.status.Waiting)
    (hq : j ∈ s.queuedIds → r'.status.Waiting)
    (hrun : ∀ item, s.worker = .transcoding item → item.record = j →
      r'.status.Running ∧ r'.transcodeStartedAt.isSome)
    (heng : s.engine = some j → r'.status.Running)
    (hnot : ∀ item, s.worker = .notifying item → item.record = j →
      r'.status = .completed ∨ r'.status = .failed) (hid : r'.jobId = j) (hwf : r'.WellFormed)
    (hd : d.filter (·.jobId = j) = r'.expectedDispatches)
    (hother : ∀ k, k ≠ j → d.filter (·.jobId = k) = s.dispatchesOf k) :
    { s.setRecord j r' with dispatched := d }.Invariant := by
  have hne : ∀ {k}, k ≠ j → (s.setRecord j r').heap k = s.heap k := fun hk =>
    s.setRecord_heap_of_ne r' hk
  refine { h with
    fresh_heap := fun k (hk : s.nextId ≤ k) => (hne (by omega)).trans (h.fresh_heap k hk)
    persisting_heap := fun k n req a b hk => ?_
    records_heap := fun k hk => ?_
    record_id := fun k r hr => ?_
    wellFormed := fun k r hr => ?_
    dispatches := fun k => ?_
    putting_status := fun k req hk => ?_
    queue_status := fun item hi => ?_
    transcoding := fun item hw => ?_
    engine_running := fun k hk => ?_
    notifying := fun item hw => ?_
    held_heap := fun k hk => ?_ }
  · rcases eq_or_ne k j with rfl | hkj
    · exact (hpers n req a b hk).elim
    · exact (hne hkj).trans (h.persisting_heap k n req a b hk)
  · rcases eq_or_ne k j with rfl | hkj
    · simp
    · rw [hne hkj]; exact h.records_heap k hk
  · rcases update_eq_some hr with ⟨hkj, hr⟩ | ⟨-, hr⟩
    · cases hr; exact hkj ▸ hid
    · exact h.record_id k r hr
  · rcases update_eq_some hr with ⟨-, hr⟩ | ⟨-, hr⟩
    · cases hr; exact hwf
    · exact h.wellFormed k r hr
  · rcases eq_or_ne k j with rfl | hkj
    · simpa [dispatchesOf] using hd
    · simpa [dispatchesOf, hne hkj] using (hother k hkj).trans (h.dispatches k)
  · rcases eq_or_ne k j with rfl | hkj
    · exact ⟨r', by simp, hput req hk⟩
    · rw [hne hkj]; exact h.putting_status k req hk
  · rcases eq_or_ne item.record j with hkj | hkj
    · exact ⟨r', by simp [hkj], hq (hkj ▸ List.mem_map_of_mem _ hi)⟩
    · rw [hne hkj]; exact h.queue_status item hi
  · refine ⟨(h.transcoding item hw).1, ?_⟩
    rcases eq_or_ne item.record j with hkj | hkj
    · exact ⟨r', by simp [hkj], hrun item hw hkj⟩
    · rw [hne hkj]; exact (h.transcoding item hw).2
  · rcases eq_or_ne k j with rfl | hkj
    · exact ⟨r', by simp, heng hk⟩
    · rw [hne hkj]; exact h.engine_running k hk
  · rcases eq_or_ne item.record j with hkj | hkj
    · exact ⟨r', by simp [hkj], hnot item hw hkj⟩
    · rw [hne hkj]; exact h.notifying item hw
  · rcases eq_or_ne k j with rfl | hkj
    · simp
    · rw [hne hkj]; exact h.held_heap k hk

/-- A key of `self.records` may be added for a job that has a record. -/
lemma addKey (h : s.Invariant) {j : ℕ} (hj : (s.heap j).isSome) :
    { s with records := insertKey s.records j }.Invariant :=
  { h with
    records_heap := fun k hk => (mem_insertKey.1 hk).elim (h.records_heap k) fun hkj => hkj ▸ hj }

/-- A write into one record that keeps its shape keeps the invariant. -/
lemma modifyRecord (h : s.Invariant) (j : ℕ) {f : JobRecord → JobRecord}
    (hf : ∀ r : JobRecord, r.SameShape (f r)) : (s.modifyRecord j f).Invariant := by
  unfold JobManager.modifyRecord
  split
  · next r hr =>
    have hs := hf r
    have hsome : (s.heap j).isSome := by simp [hr]
    have hstatus : ∀ P : JobStatus → Prop, (∃ r0, s.heap j = some r0 ∧ P r0.status) →
        P (f r).status := fun P ⟨r0, hr0, hp⟩ => by
      rw [hr] at hr0; cases hr0; rw [hs.status]; exact hp
    refine h.setRecord (f r) s.dispatched (h.lt_nextId hsome) (h.not_persisting hsome)
      (fun req hp => hstatus _ (h.putting_status j req hp)) (fun hq => ?_) (fun item hw hj => ?_)
      (fun he => hstatus _ (h.engine_running j he))
      (fun item hw hj => hstatus (fun st => st = _ ∨ st = _) (hj ▸ h.notifying item hw))
      (hs.jobId.trans (h.record_id j r hr)) (hs.wellFormed (h.wellFormed j r hr))
      (by rw [hs.expectedDispatches]; exact (h.dispatches j).trans (by rw [hr]; rfl))
      fun _ _ => rfl
    · obtain ⟨item, hi, rfl⟩ := List.mem_map.1 hq
      exact hstatus _ (h.queue_status item hi)
    · obtain ⟨-, r0, hr0, hrun, hst⟩ := h.transcoding item hw
      rw [hj, hr] at hr0; cases hr0
      exact ⟨hs.status ▸ hrun, hs.transcodeStartedAt ▸ hst⟩
  · exact h

/-! ## `submit_job` -/

lemma submitBegin (h : s.Invariant) (name : String) (request : JobRequest) :
    (MediaEngine.submitBegin s name request).Invariant := by
  have hput : ∀ j r, (MediaEngine.submitBegin s name request).submits j = some (.putting r) →
      s.submits j = some (.putting r) := fun j r hp => by
    simp only [MediaEngine.submitBegin, Function.update_apply] at hp
    split_ifs at hp
    · cases hp
    · exact hp
  refine { h with
    fresh_heap := fun j hj => h.fresh_heap j (Nat.le_of_succ_le hj)
    fresh_submits := fun j hj => ?_
    persisting_heap := fun j n r a b hp => ?_
    putting_status := fun j r hp => h.putting_status j r (hput j r hp)
    putting_not_queued := fun j r hp => h.putting_not_queued j r (hput j r hp)
    putting_not_held := fun j r hp => h.putting_not_held j r (hput j r hp) }
  · have hj' : s.nextId + 1 ≤ j := hj
    simp only [MediaEngine.submitBegin, Function.update_apply, if_neg (show j ≠ s.nextId by omega)]
    exact h.fresh_submits j (by omega)
  · simp only [MediaEngine.submitBegin, Function.update_apply] at hp
    split_ifs at hp with hj
    · subst hj; exact h.fresh_heap _ le_rfl
    · exact h.persisting_heap j n r a b hp

/-- A coroutine that ends, by cancellation or by returning, keeps the invariant. -/
lemma submitCancel (h : s.Invariant) (j : ℕ) : (MediaEngine.submitCancel s j).Invariant := by
  have hsub : ∀ k pc, (MediaEngine.submitCancel s j).submits k = some pc → s.submits k = some pc :=
    fun k pc hk => by
      rcases update_eq_some hk with ⟨-, h'⟩ | ⟨-, h'⟩
      · cases h'
      · exact h'
  exact { h with
    fresh_submits := fun k hk => by
      by_cases hkj : k = j
      · subst hkj; exact Function.update_same _ _ _
      · exact (Function.update_noteq hkj _ _).trans (h.fresh_submits k hk)
    persisting_heap := fun k n r a b hk => h.persisting_heap k n r a b (hsub k _ hk)
    putting_status := fun k r hk => h.putting_status k r (hsub k _ hk)
    putting_not_queued := fun k r hk => h.putting_not_queued k r (hsub k _ hk)
    putting_not_held := fun k r hk => h.putting_not_held k r (hsub k _ hk) }

/-- A job with no coroutine, a waiting record, and no other reference, may be parked in
`queue.put`. -/
lemma park (h : s.Invariant) {j : ℕ} (hsub : s.submits j = none)
    (hwait : ∃ r, s.heap j = some r ∧ r.status.Waiting) (hq : j ∉ s.queuedIds)
    (hw : ¬ s.worker.Holds j) (request : JobRequest) :
    { s with submits := Function.update s.submits j (some (.putting request)) }.Invariant := by
  have hjlt : j < s.nextId := by
    by_contra hge; obtain ⟨r, hr, -⟩ := hwait; rw [h.fresh_heap j (not_lt.1 hge)] at hr; cases hr
  refine { h with
    fresh_submits := fun k (hk : s.nextId ≤ k) => ?_
    persisting_heap := fun k n r a b hk => ?_
    putting_status := fun k r hk => ?_
    putting_not_queued := fun k r hk => ?_
    putting_not_held := fun k r hk => ?_ }
  · exact (Function.update_noteq (by omega) _ _).trans (h.fresh_submits k hk)
  all_goals rcases update_eq_some hk with ⟨rfl, hpc⟩ | ⟨-, hk⟩
  · cases hpc
  · exact h.persisting_heap k n r a b hk
  · exact hwait
  · exact h.putting_status k r hk
  · exact hq
  · exact h.putting_not_queued k r hk
  · exact hw
  · exact h.putting_not_held k r hk

/-- A job with no coroutine, a waiting record, and no other reference, may join the queue. -/
lemma pushQueue (h : s.Invariant) {j : ℕ} (hsub : s.submits j = none)
    (hwait : ∃ r, s.heap j = some r ∧ r.status.Waiting) (hq : j ∉ s.queuedIds)
    (hw : ¬ s.worker.Holds j) (request : JobRequest) :
    { s with queue := s.queue ++ [WorkItem.mk j request] }.Invariant := by
  have hids : ({ s with queue := s.queue ++ [WorkItem.mk j request] } : JobManager).queuedIds =
      s.queuedIds ++ [j] := by simp [queuedIds]
  refine { h with
    queue_status := fun item hi => ?_
    queue_nodup := by
      rw [hids]; exact h.queue_nodup.append (List.nodup_singleton j) (by simpa using hq)
    putting_not_queued := fun k r hk => ?_
    queued_not_held := fun k hk => ?_ }
  · rcases List.mem_append.1 hi with hi | hi
    · exact h.queue_status item hi
    · rw [List.mem_singleton.1 hi]; exact hwait
  · rw [hids, List.mem_append, List.mem_singleton, not_or]
    exact ⟨h.putting_not_queued k r hk, by rintro rfl; rw [hsub] at hk; cases hk⟩
  · rw [hids, List.mem_append, List.mem_singleton] at hk
    rcases hk with hk | rfl
    · exact h.queued_not_held k hk
    · exact hw

/-- `queue.put` resuming with room enqueues its job. -/
lemma enqueue (h : s.Invariant) {j : ℕ} {request : JobRequest}
    (hp : s.submits j = some (.putting request)) : (s.enqueue j request).Invariant :=
  (h.submitCancel j).pushQueue (Function.update_same _ _ _) (h.putting_status j request hp)
    (h.putting_not_queued j request hp) (h.putting_not_held j request hp) request


/-- Once the upload is persisted, the new queued record is in place and nothing refers to the
job yet. -/
lemma installRecord (h : s.Invariant) {j : ℕ} {name : String} {request : JobRequest} {ts ds : ℕ}
    (hp : s.submits j = some (.persisting name request ts ds)) :
    { s.setRecord j (newRecord j name request ts ds s.clock) with
      records := insertKey s.records j
      submits := Function.update s.submits j none }.Invariant ∧ j ∉ s.queuedIds ∧
      ¬ s.worker.Holds j := by
  have hj0 : s.heap j = none := h.persisting_heap j _ _ _ _ hp
  have hjlt : j < s.nextId :=
    Nat.lt_of_not_le fun hge => by rw [h.fresh_submits j hge] at hp; cases hp
  have hjq : j ∉ s.queuedIds := fun hq => by
    obtain ⟨item, hi, rfl⟩ := List.mem_map.1 hq
    obtain ⟨r, hr, -⟩ := h.queue_status item hi; rw [hj0] at hr; cases hr
  have hjw : ¬ s.worker.Holds j := fun hw => by simpa [hj0] using h.held_heap j hw
  have hun : (newRecord j name request ts ds s.clock).status.Waiting := .inl rfl
  have hsub : (MediaEngine.submitCancel s j).submits j = none := Function.update_same _ _ _
  have hset := (h.submitCancel j).setRecord (newRecord j name request ts ds s.clock) s.dispatched
    hjlt (fun _ _ _ _ hp => by rw [hsub] at hp; cases hp) (fun _ hp => by rw [hsub] at hp; cases hp)
    (fun hq => (hjq hq).elim) (fun item (hw : s.worker = _) hj => (hjw (by rw [hw]; exact hj)).elim)
    (fun he => by obtain ⟨r, hr, -⟩ := h.engine_running j he; rw [hj0] at hr; cases hr)
    (fun item (hw : s.worker = _) hj => (hjw (by rw [hw]; exact hj)).elim) rfl
    (JobRecord.wellFormed_of_unfinished hun.unfinished rfl rfl)
    (by rw [JobRecord.expectedDispatches_eq_nil hun.unfinished]
        exact (h.dispatches j).trans (by rw [hj0]; rfl))
    fun _ _ => rfl
  exact ⟨hset.addKey (by simp), hjq, hjw⟩

/-- `_persist_upload` returning keeps the invariant: the record is installed, then queued or
parked in `queue.put`. -/
lemma persistDone (settings : Settings) (h : s.Invariant) {j : ℕ} {name : String}
    {request : JobRequest} {ts ds : ℕ} (hp : s.submits j = some (.persisting name request ts ds)) :
    (MediaEngine.persistDone settings s j name request ts ds).Invariant := by
  obtain ⟨ht, hjq, hjw⟩ := h.installRecord hp
  have hwait : ∃ r, (s.setRecord j (newRecord j name request ts ds s.clock)).heap j = some r ∧
      r.status.Waiting := ⟨_, s.setRecord_heap_self j _, .inl rfl⟩
  unfold MediaEngine.persistDone JobManager.put
  split
  · convert ht.park (Function.update_same _ _ _) hwait hjq hjw request using 2
    exact (Function.update_idem _ _ _).symm
  · exact ht.pushQueue (Function.update_same _ _ _) hwait hjq hjw request

/-! ## `_worker` -/

/-- `queue.get()` returning to the idle worker keeps the invariant: a cancelled job is
skipped, any other starts transcoding. -/
lemma dequeue (h : s.Invariant) {item : WorkItem} {rest : List WorkItem} (hw : s.worker = .idle)
    (hq : s.queue = item :: rest) : (MediaEngine.dequeue s item rest).Invariant := by
  obtain ⟨r, hr, hwait⟩ := h.queue_status item (hq ▸ List.mem_cons_self _ _)
  have hsome : (s.heap item.record).isSome := by simp [hr]
  have hnq : item.record ∉ rest.map (·.record) := by
    have hnd := h.queue_nodup
    simp only [queuedIds, hq, List.map_cons, List.nodup_cons] at hnd
    exact hnd.1
  have hnp : ∀ request, s.submits item.record ≠ some (.putting request) := fun req hp =>
    h.putting_not_queued _ req hp (by simp [queuedIds, hq])
  unfold MediaEngine.dequeue
  rw [hr]
  dsimp only
  split_ifs with hc
  · exact h.popQueue hq
  · have hun := hwait.unfinished
    have hwf := h.wellFormed _ _ hr
    refine ((h.popQueue hq).setRecord
      { r with status := .processing, updatedAt := s.clock, transcodeStartedAt := some s.clock }
      s.dispatched (h.lt_nextId hsome) (h.not_persisting hsome) (fun req hp => (hnp req hp).elim)
      (fun hq' => (hnq hq').elim) (fun i hi => by rw [hw] at hi; cases hi) (fun _ => .inl rfl)
      (fun i hi => by rw [hw] at hi; cases hi) (h.record_id _ r hr)
      (JobRecord.wellFormed_of_unfinished (JobStatus.Running.unfinished (.inl rfl))
        (hwf.outputPath_eq_none hun.1) (hwf.error_eq_none hun.2))
      ((h.dispatchesOf_eq_nil hr hun).trans
        (JobRecord.expectedDispatches_eq_nil (JobStatus.Running.unfinished (.inl rfl))).symm)
      fun _ _ => rfl).setWorker (.transcoding item) (some item.record) ?_ ?_ nofun ?_
    · rintro i ⟨⟩
      exact ⟨rfl, _, JobManager.setRecord_heap_self _ _ _, .inl rfl, rfl⟩
    · rintro k ⟨⟩
      exact ⟨_, JobManager.setRecord_heap_self _ _ _, .inl rfl⟩
    · rintro k (rfl : item.record = k)
      exact ⟨by simp, hnq, hnp⟩

/-- The worker finishing the job it transcodes keeps the invariant, when the new record `r'`
carries the job's id and is well-formed, and the dispatch `_fire_callback` makes with
`message` is the one `r'`'s status implies. -/
lemma finish (h : s.Invariant) {item : WorkItem} (hw : s.worker = .transcoding item)
    (r' : JobRecord) (message : Option String) (files : Path → Bool)
    (hfin : r'.status = .completed ∨ r'.status = .failed)
    (hid : r'.jobId = item.record) (hwf : r'.WellFormed) (hmsg : pyTruthy r'.callbackUrl →
      r'.expectedDispatches = [⟨r'.jobId, r'.status, r'.outputPath, message⟩]) :
    (fireCallback { s.setRecord item.record r' with engine := none, files := files } item r'
      message).Invariant := by
  obtain ⟨-, r, hr, hrun, -⟩ := h.transcoding item hw
  have hsome : (s.heap item.record).isSome := by simp [hr]
  have hheld : s.worker.Holds item.record := by rw [hw]; rfl
  have hnq : item.record ∉ s.queuedIds := fun hq => h.queued_not_held _ hq hheld
  have hnp : ∀ request, s.submits item.record ≠ some (.putting request) := fun req hp =>
    h.putting_not_held _ req hp hheld
  have hnone : s.dispatchesOf item.record = [] := h.dispatchesOf_eq_nil hr hrun.unfinished
  have hset : ∀ d : List CallbackPayload, d.filter (·.jobId = item.record) = r'.expectedDispatches →
      (∀ k, k ≠ item.record → d.filter (·.jobId = k) = s.dispatchesOf k) →
      { ({ s with worker := .idle, engine := none } : JobManager).setRecord item.record r' with
        dispatched := d }.Invariant := fun d hd hother =>
    (h.setWorker .idle none nofun nofun nofun fun _ h => h.elim).setRecord r' d
      (h.lt_nextId hsome) (h.not_persisting hsome) (fun req hp => (hnp req hp).elim)
      (fun hq => (hnq hq).elim) nofun nofun nofun hid hwf hd hother
  unfold fireCallback
  split
  · next htruthy =>
    have h2 := hset (s.dispatched ++ [⟨r'.jobId, r'.status, r'.outputPath, message⟩])
      (by simpa [dispatchesOf, List.filter_append, hid, hmsg htruthy] using hnone)
      (fun k hk => by simp [List.filter_append, hid, Ne.symm hk, dispatchesOf])
    exact (h2.setWorker (.notifying item) none nofun nofun
      (by rintro i ⟨⟩; exact ⟨r', JobManager.setRecord_heap_self _ _ _, hfin⟩)
      (fun k (hk : item.record = k) => hk ▸ ⟨by simp, hnq, hnp⟩)).of_frame rfl rfl rfl rfl rfl rfl
      rfl fun _ => id
  · next htruthy =>
    have h2 := hset s.dispatched (by
      rw [JobRecord.expectedDispatches, if_neg htruthy]; exact hnone) fun _ _ => rfl
    exact h2.of_frame rfl rfl rfl rfl rfl rfl rfl fun _ => id

/-- The success branch of `_worker` keeps the invariant. -/
lemma transcodeOk (h : s.Invariant) {item : WorkItem} (hw : s.worker = .transcoding item) :
    (MediaEngine.transcodeOk s item).Invariant := by
  unfold MediaEngine.transcodeOk
  split
  · next r hr =>
    obtain ⟨-, r0, hr0, hrun, hst⟩ := h.transcoding item hw
    rw [hr] at hr0; cases hr0
    have herr := (h.wellFormed _ _ hr).error_eq_none hrun.unfinished.2
    refine h.finish hw _ _ _ (.inl rfl) (h.record_id _ r hr)
      ⟨by simp [JobRecord.complete], ?_, ?_⟩ ?_
    · simp [JobRecord.complete, herr]
    · exact fun _ => ⟨hst, rfl⟩
    · intro (ht : pyTruthy r.callbackUrl)
      simp [JobRecord.expectedDispatches, JobRecord.complete, ht]
  · exact h.release .idle (.inl rfl) none (.inr rfl)

/-- The `except` branch of `_worker` keeps the invariant. -/
lemma transcodeFail (h : s.Invariant) {item : WorkItem} (hw : s.worker = .transcoding item)
    (message : String) : (MediaEngine.transcodeFail s item message).Invariant := by
  unfold MediaEngine.transcodeFail
  split
  · next r hr =>
    obtain ⟨-, r0, hr0, hrun, hst⟩ := h.transcoding item hw
    rw [hr] at hr0; cases hr0
    have hout := (h.wellFormed _ _ hr).outputPath_eq_none hrun.unfinished.1
    refine h.finish hw _ _ _ (.inr rfl) (h.record_id _ r hr)
      ⟨by simp [JobRecord.fail, hout], ?_, ?_⟩ ?_
    · simp [JobRecord.fail]
    · intro _
      refine ⟨hst, ?_⟩
      simp only [JobRecord.fail]
      split_ifs with hfin
      · rfl
      · simp only [not_and, not_not] at hfin
        exact Option.isSome_iff_ne_none.2 fun hn => Option.isSome_iff_ne_none.1 hst (hfin hn)
    · intro (ht : pyTruthy r.callbackUrl)
      simp [JobRecord.expectedDispatches, JobRecord.fail, ht]
  · exact h.release .idle (.inl rfl) none (.inr rfl)

/-! ## `cancel_job`, `purge_expired_jobs` and `stop` -/

/-- `cancel_job` keeps the invariant. -/
lemma cancel (h : s.Invariant) (j : ℕ) : (cancelJob s j).1.Invariant := by
  unfold cancelJob
  split
  · split
    · next r hr =>
      split
      · exact h
      · next hnt =>
        have hsome : (s.heap j).isSome := by simp [hr]
        have hun : r.status ≠ .completed ∧ r.status ≠ .failed := by
          cases hs : r.status <;> simp_all [JobStatus.isTerminal]
        have hwf := h.wellFormed _ _ hr
        have hcan := JobStatus.Running.unfinished (.inr rfl)
        refine h.setRecord { r with status := .cancelled, updatedAt := s.clock } s.dispatched
          (h.lt_nextId hsome) (h.not_persisting hsome) (fun _ _ => .inr rfl) (fun _ => .inr rfl)
          (fun item hw hj => ⟨.inr rfl, ?_⟩) (fun _ => .inr rfl) (fun item hw hj => ?_)
          (h.record_id _ r hr) (JobRecord.wellFormed_of_unfinished hcan
            (hwf.outputPath_eq_none hun.1) (hwf.error_eq_none hun.2))
          ((h.dispatchesOf_eq_nil hr hun).trans (JobRecord.expectedDispatches_eq_nil hcan).symm)
          fun _ _ => rfl
        · obtain ⟨-, r0, hr0, -, hst⟩ := h.transcoding item hw
          rw [hj, hr] at hr0; cases hr0; exact hst
        · obtain ⟨r0, hr0, hfin⟩ := h.notifying item hw
          rw [hj, hr] at hr0; cases hr0; exact (hfin.elim hun.1 hun.2).elim
    · exact h
  · exact h

/-- A run of the maintenance loop keeps the invariant, whatever its `unlink`s do. -/
lemma purge (settings : Settings) (unlink : Path → UnlinkOutcome) (h : s.Invariant) :
    { (purgeExpiredJobs settings unlink s).1 with
      maintenanceAlive := (purgeExpiredJobs settings unlink s).2.isNone }.Invariant := by
  obtain ⟨popped, files, heq⟩ := purgeExpiredJobs_eq unlink settings s
  rw [heq]
  exact h.of_frame rfl rfl rfl rfl rfl rfl rfl fun _ hj => List.mem_of_mem_filter hj

/-! ## Every reachable state -/

/-- Every step keeps the invariant. -/
theorem step {settings : Settings} {t : JobManager} (h : s.Invariant) (hs : Step settings s t) :
    t.Invariant := by
  cases hs with
  | tick => exact h.of_frame rfl rfl rfl rfl rfl rfl rfl fun _ => id
  | submitBegin name request => exact h.submitBegin name request
  | persistDone j name request ts ds hp => exact h.persistDone settings hp
  | putResume j request hp => exact h.enqueue hp
  | submitCancel j => exact h.submitCancel j
  | dequeue item rest hw hq => exact h.dequeue hw hq
  | engineDuration => exact h.modifyRecord _ fun _ => ⟨rfl, rfl, rfl, rfl, rfl, rfl, rfl⟩
  | engineProgress => exact h.modifyRecord _ fun _ => ⟨rfl, rfl, rfl, rfl, rfl, rfl, rfl⟩
  | engineFinalSeconds =>
    exact h.modifyRecord _ fun r => by split <;> exact ⟨rfl, rfl, rfl, rfl, rfl, rfl, rfl⟩
  | transcodeOk item hw => exact h.transcodeOk hw
  | transcodeFail item message hw => exact h.transcodeFail hw message
  | callbackDone => exact h.release .idle (.inl rfl) s.engine (.inl rfl)
  | engineExit j ok _ hstop =>
    exact (h.release s.worker (.inr hstop) none (.inr rfl)).of_frame rfl rfl rfl rfl rfl rfl rfl
      fun _ => id
  | cancel j => exact h.cancel j
  | purge unlink => exact h.purge settings unlink
  | stop =>
    exact (h.release .stopped (.inr rfl) s.engine (.inl rfl)).of_frame rfl rfl rfl rfl rfl rfl rfl
      fun _ => id

/-- The invariant holds along every run from a state that satisfies it. -/
theorem run {settings : Settings} {t : JobManager} (h : s.Invariant)
    (hrun : Relation.ReflTransGen (Step settings) s t) : t.Invariant := by
  induction hrun with
  | refl => exact h
  | tail _ hstep ih => exact ih.step hstep

/-- The invariant holds in every reachable state. -/
theorem reachable {settings : Settings} (hs : Reachable settings s) : s.Invariant :=
  init.run hs

/-- A property that every step from a state satisfying the invariant keeps holds along every
run from a state satisfying both. -/
theorem run_of_step {settings : Settings} (P : JobManager → Prop)
    (hP : ∀ {s t : JobManager}, s.Invariant → P s → Step settings s t → P t) {t : JobManager}
    (h : s.Invariant) (h0 : P s) (hrun : Relation.ReflTransGen (Step settings) s t) : P t := by
  induction hrun with
  | refl => exact h0
  | tail hst hstep ih => exact hP (h.run hst) ih hstep

end JobManager.Invariant

end MediaEngine
