import MediaEngine.Jobs.Invariant

set_option autoImplicit false

/-!
# What one step does to one job

The effect of a step on a single job, seen from everything that can refer to the job: its
record, its `submit_job` coroutine, the queue, the worker and the engine thread. Properties of
one job over whole runs are proved from this one case analysis of the steps.

## Main definitions

* `MediaEngine.JobEffect` — the ways one step can change what refers to a job.

## Main results

* `MediaEngine.Step.jobEffect` — from a state satisfying the invariant, every step has one of
  these effects on every job.
* `MediaEngine.Step.nextId_le` — ids are handed out in increasing order.
-/

namespace MediaEngine

open JobManager

/-- What one step from `s` to `t` does to job `j`. -/
inductive JobEffect (s t : JobManager) (j : ℕ) : Prop
  /-- The record is unchanged, the coroutine unchanged or ended, and no party starts to refer
  to the job. -/
  | frame : t.heap j = s.heap j → (t.submits j = s.submits j ∨ t.submits j = none) →
      (j ∈ t.queuedIds → j ∈ s.queuedIds) → (t.worker.Holds j → s.worker.Holds j) →
      (t.engine = some j → s.engine = some j) → JobEffect s t j
  /-- `submit_job` starts with the fresh id `j`. -/
  | begin : j = s.nextId → s.heap j = none → t.heap j = none → JobEffect s t j
  /-- `_persist_upload` of `j` returns and the record appears. -/
  | persisted (name : String) (request : JobRequest) (ts ds : ℕ) :
      s.submits j = some (.persisting name request ts ds) → s.heap j = none →
      t.heap j = some (newRecord j name request ts ds s.clock) → JobEffect s t j
  /-- `queue.put` of `j` resumes and enqueues it. -/
  | resumed (request : JobRequest) : s.submits j = some (.putting request) →
      t.heap j = s.heap j → (t.worker.Holds j → s.worker.Holds j) →
      (t.engine = some j → s.engine = some j) → JobEffect s t j
  /-- The worker takes `j` from the queue and starts transcoding it. -/
  | started (r r' : JobRecord) : j ∈ s.queuedIds → s.heap j = some r → r.status = .queued →
      t.heap j = some r' → r'.status = .processing → JobEffect s t j
  /-- The engine thread writes into the record of `j`. -/
  | written (r r' : JobRecord) : s.engine = some j → s.heap j = some r → t.heap j = some r' →
      r.SameShape r' → t.submits j = s.submits j → (j ∈ t.queuedIds → j ∈ s.queuedIds) →
      (t.worker.Holds j → s.worker.Holds j) → JobEffect s t j
  /-- The worker finishes `j`. -/
  | finished (r r' : JobRecord) : s.worker.Holds j → s.heap j = some r → r.status.Running →
      t.heap j = some r' → (r'.status = .completed ∨ r'.status = .failed) → JobEffect s t j
  /-- `cancel_job(j)` cancels it. -/
  | cancelled (r r' : JobRecord) : s.heap j = some r →
      (r.status = .queued ∨ r.status = .processing) → t.heap j = some r' →
      r'.status = .cancelled → t.submits j = s.submits j → (j ∈ t.queuedIds → j ∈ s.queuedIds) →
      (t.worker.Holds j → s.worker.Holds j) → (t.engine = some j → s.engine = some j) →
      JobEffect s t j

namespace JobEffect

variable {s : JobManager}

lemma refl (j : ℕ) : JobEffect s s j := .frame rfl (.inl rfl) id id id

/-- A job stays queued only if it was; the worker moving to `w` and the engine to `e` start
no reference to a job they do not name. -/
lemma holds_of_ne {w : WorkerPc} {item : WorkItem} {j : ℕ}
    (hw : w = .transcoding item ∨ w = .notifying item ∨ w = .idle ∨ w = .stopped)
    (hj : j ≠ item.record) : ¬ w.Holds j := by
  rcases hw with rfl | rfl | rfl | rfl
  · exact fun h => hj h.symm
  · exact fun h => hj h.symm
  · exact id
  · exact id

lemma mem_queuedIds_of_tail {t : JobManager} {item : WorkItem} {rest : List WorkItem}
    (hq : s.queue = item :: rest) (ht : t.queue = rest) {j : ℕ} (hj : j ∈ t.queuedIds) :
    j ∈ s.queuedIds := by
  simp only [queuedIds, hq, ht, List.map_cons, List.mem_cons] at hj ⊢
  exact .inr hj

lemma mem_queuedIds_of_append {t : JobManager} {item : WorkItem}
    (ht : t.queue = s.queue ++ [item]) {j : ℕ} (hj : j ∈ t.queuedIds) (hne : j ≠ item.record) :
    j ∈ s.queuedIds := by
  simp only [queuedIds, ht, List.map_append, List.mem_append, List.map_cons, List.map_nil,
    List.mem_singleton] at hj
  exact hj.resolve_right hne

/-- `_fire_callback` changes only the dispatch log and the worker. -/
lemma fireCallback_eq (item : WorkItem) (r : JobRecord) (message : Option String) :
    ∃ d w, fireCallback s item r message = { s with dispatched := d, worker := w } ∧
      (w = .notifying item ∨ w = .idle) := by
  unfold fireCallback
  split
  · exact ⟨_, _, rfl, .inl rfl⟩
  · exact ⟨_, _, rfl, .inr rfl⟩

/-- The worker finishing its job with the record `r'`. -/
lemma finish (h : s.Invariant) {item : WorkItem} (hw : s.worker = .transcoding item)
    {r : JobRecord} (hr : s.heap item.record = some r) {r' : JobRecord}
    (hr' : r'.status = .completed ∨ r'.status = .failed) (files : Path → Bool)
    (message : Option String) (j : ℕ) :
    JobEffect s (fireCallback { s.setRecord item.record r' with engine := none, files := files }
      item r' message) j := by
  obtain ⟨d, w, heq, hw'⟩ := fireCallback_eq item r' message
  rw [heq]
  rcases eq_or_ne j item.record with rfl | hj
  · obtain ⟨-, r0, hr0, hrun, -⟩ := h.transcoding item hw
    rw [hr] at hr0; cases hr0
    exact .finished r r' (by rw [hw]; rfl) hr hrun (s.setRecord_heap_self _ _) hr'
  · exact .frame (s.setRecord_heap_of_ne r' hj) (.inl rfl) id
      (fun hh => (holds_of_ne (by rcases hw' with rfl | rfl <;> simp) hj hh).elim) nofun

/-- An engine write into the record of the job it runs. -/
lemma write {j' : ℕ} (he : s.engine = some j') {f : JobRecord → JobRecord}
    (hf : ∀ r : JobRecord, r.SameShape (f r)) (j : ℕ) : JobEffect s (s.modifyRecord j' f) j := by
  unfold JobManager.modifyRecord
  split
  · next r hr =>
    rcases eq_or_ne j j' with rfl | hj
    · exact .written r (f r) he hr (s.setRecord_heap_self _ _) (hf r) rfl id id
    · exact .frame (s.setRecord_heap_of_ne _ hj) (.inl rfl) id id id
  · exact refl j

end JobEffect

variable {settings : Settings} {s t : JobManager}

/-- **What a step does to a job.** From a state satisfying the invariant, every step has one
of the effects of `JobEffect` on every job. -/
theorem Step.jobEffect (h : s.Invariant) (hst : Step settings s t) (j : ℕ) : JobEffect s t j := by
  cases hst with
  | tick => exact .frame rfl (.inl rfl) id id id
  | submitBegin name request =>
    rcases eq_or_ne j s.nextId with rfl | hj
    · exact .begin rfl (h.fresh_heap _ le_rfl) (h.fresh_heap _ le_rfl)
    · exact .frame rfl (.inl (Function.update_noteq hj _ _)) id id id
  | persistDone j' name request ts ds hp =>
    have hheap : (MediaEngine.persistDone settings s j' name request ts ds).heap =
        Function.update s.heap j' (some (newRecord j' name request ts ds s.clock)) := by
      unfold MediaEngine.persistDone JobManager.put; split <;> rfl
    rcases eq_or_ne j j' with rfl | hj
    · exact .persisted name request ts ds hp (h.persisting_heap _ _ _ _ _ hp)
        (by rw [hheap]; exact Function.update_same _ _ _)
    · have hh := s.setRecord_heap_of_ne (newRecord j' name request ts ds s.clock) hj
      unfold MediaEngine.persistDone JobManager.put
      split
      · exact .frame hh (.inl (Function.update_noteq hj _ _)) id id id
      · exact .frame hh (.inl (Function.update_noteq hj _ _))
          (fun hq => JobEffect.mem_queuedIds_of_append rfl hq hj) id id
  | putResume j' request hp =>
    rcases eq_or_ne j j' with rfl | hj
    · exact .resumed request hp rfl id id
    · exact .frame rfl (.inl (Function.update_noteq hj _ _))
        (fun hq => JobEffect.mem_queuedIds_of_append rfl hq hj) id id
  | submitCancel j' =>
    rcases eq_or_ne j j' with rfl | hj
    · exact .frame rfl (.inr (Function.update_same _ _ _)) id id id
    · exact .frame rfl (.inl (Function.update_noteq hj _ _)) id id id
  | dequeue item rest hw hq =>
    have htail : ∀ {t : JobManager}, t.queue = rest → j ∈ t.queuedIds → j ∈ s.queuedIds :=
      fun ht hj => JobEffect.mem_queuedIds_of_tail hq ht hj
    unfold MediaEngine.dequeue
    split
    · next r hr =>
      split_ifs with hc
      · exact .frame rfl (.inl rfl) (htail rfl) id id
      · rcases eq_or_ne j item.record with rfl | hj
        · obtain ⟨r0, hr0, hwait⟩ := h.queue_status item (hq ▸ List.mem_cons_self _ _)
          rw [hr] at hr0; cases hr0
          exact .started r _ (by simp [queuedIds, hq]) hr (hwait.resolve_right hc)
            (s.setRecord_heap_self _ _) rfl
        · exact .frame (s.setRecord_heap_of_ne _ hj) (.inl rfl) (htail rfl)
            (fun hh => (JobEffect.holds_of_ne (.inl rfl) hj hh).elim)
            (fun he => (hj (Option.some.inj he).symm).elim)
    · exact .frame rfl (.inl rfl) (htail rfl) id id
  | engineDuration j' duration he =>
    exact .write he (by intro _; exact ⟨rfl, rfl, rfl, rfl, rfl, rfl, rfl⟩) j
  | engineProgress j' seconds duration he =>
    exact .write he (by intro _; exact ⟨rfl, rfl, rfl, rfl, rfl, rfl, rfl⟩) j
  | engineFinalSeconds j' he =>
    exact .write he (by intro _; split <;> exact ⟨rfl, rfl, rfl, rfl, rfl, rfl, rfl⟩) j
  | transcodeOk item hw =>
    unfold MediaEngine.transcodeOk
    split
    · next r hr => exact .finish h hw hr (.inl rfl) _ _ j
    · exact .frame rfl (.inl rfl) id (fun hh => hh.elim) nofun
  | transcodeFail item message hw =>
    unfold MediaEngine.transcodeFail
    split
    · next r hr => exact .finish h hw hr (.inr rfl) _ _ j
    · exact .frame rfl (.inl rfl) id (fun hh => hh.elim) nofun
  | callbackDone => exact .frame rfl (.inl rfl) id (fun hh => hh.elim) id
  | engineExit => exact .frame rfl (.inl rfl) id id nofun
  | cancel j' =>
    unfold cancelJob
    split
    · split
      · next r hr =>
        split
        · exact .refl j
        · next hnt =>
          rcases eq_or_ne j j' with rfl | hj
          · exact .cancelled r _ hr (by cases hs : r.status <;> simp_all [JobStatus.isTerminal])
              (s.setRecord_heap_self _ _) rfl rfl id id id
          · exact .frame (s.setRecord_heap_of_ne _ hj) (.inl rfl) id id id
      · exact .refl j
    · exact .refl j
  | purge unlink =>
    obtain ⟨popped, files, heq⟩ := purgeExpiredJobs_eq unlink settings s
    rw [heq]
    exact .frame rfl (.inl rfl) id id id
  | stop => exact .frame rfl (.inl rfl) id (fun hh => hh.elim) id

/-- Ids are handed out in increasing order: no step lowers `nextId`. -/
theorem Step.nextId_le (hst : Step settings s t) : s.nextId ≤ t.nextId := by
  cases hst with
  | submitBegin => exact Nat.le_succ _
  | purge unlink =>
    obtain ⟨popped, files, heq⟩ := purgeExpiredJobs_eq unlink settings s
    rw [heq]
  | persistDone => unfold MediaEngine.persistDone JobManager.put; split <;> exact le_rfl
  | dequeue => unfold MediaEngine.dequeue; (repeat' split) <;> exact le_rfl
  | transcodeOk => unfold MediaEngine.transcodeOk fireCallback; (repeat' split) <;> exact le_rfl
  | transcodeFail => unfold MediaEngine.transcodeFail fireCallback; (repeat' split) <;> exact le_rfl
  | engineDuration | engineProgress | engineFinalSeconds =>
    unfold JobManager.modifyRecord; (repeat' split) <;> exact le_rfl
  | cancel => unfold cancelJob; (repeat' split) <;> exact le_rfl
  | _ => exact le_rfl

end MediaEngine
