import MediaEngine.Jobs.Effect

set_option autoImplicit false

/-!
# Admission: `submit_job`

What a `submit_job` coroutine leaves behind at each of its two kinds of suspension point:
inside `_persist_upload`, before the record exists, and in `queue.put`, after
`self.records[job_id] = record`.

## Main definitions

* `MediaEngine.JobManager.Unborn` — a handed-out id with no record and no coroutine.
* `MediaEngine.JobManager.Orphaned` — a record that no coroutine, queue entry or worker
  refers to.

## Main results

* `MediaEngine.submitJob_spec` — no submission is rejected: once the upload is persisted the
  record is in `self.records` and is queued at once or waits in `queue.put`; a coroutine
  cancelled while persisting never gets a record, and one cancelled in `queue.put` leaves a
  record that is never queued nor processed.
* `MediaEngine.submitJob_orphan` — with `max_queue_size = 1`, a second submission waits in
  `queue.put` with its record visible, and cancelling it leaves the record behind.
-/

namespace MediaEngine

open JobManager

variable {settings : Settings} {s t : JobManager} {j : ℕ}

/-! ## A coroutine cancelled while persisting -/

/-- Job `j` has been handed its id, and has neither a record nor a coroutine. -/
def JobManager.Unborn (s : JobManager) (j : ℕ) : Prop :=
  s.heap j = none ∧ s.submits j = none ∧ j < s.nextId

/-- No step gives an unborn job a record or a coroutine. -/
lemma JobManager.Unborn.step (h : s.Invariant) (hp : s.Unborn j) (hst : Step settings s t) :
    t.Unborn j := by
  obtain ⟨h0, hsub, hlt⟩ := hp
  have hlt' : j < t.nextId := lt_of_lt_of_le hlt hst.nextId_le
  cases hst.jobEffect h j with
  | frame hheap hsub' =>
    exact ⟨hheap.trans h0, hsub'.elim (fun e => e.trans hsub) id, hlt'⟩
  | begin hj => omega
  | persisted _ _ _ _ hp => rw [hsub] at hp; cases hp
  | resumed _ hp => rw [hsub] at hp; cases hp
  | started _ _ _ hr => rw [h0] at hr; cases hr
  | written _ _ _ hr => rw [h0] at hr; cases hr
  | finished _ _ _ hr => rw [h0] at hr; cases hr
  | cancelled _ _ hr => rw [h0] at hr; cases hr

/-! ## A coroutine cancelled in `queue.put` -/

/-- Job `j` has a queued or cancelled record, and no coroutine, queue entry or worker refers
to it. -/
def JobManager.Orphaned (s : JobManager) (j : ℕ) : Prop :=
  (∃ r, s.heap j = some r ∧ r.status.Waiting) ∧ s.submits j = none ∧ j ∉ s.queuedIds ∧
    ¬ s.worker.Holds j

/-- No step queues an orphaned job or hands it to the worker. -/
lemma JobManager.Orphaned.step (h : s.Invariant) (hp : s.Orphaned j) (hst : Step settings s t) :
    t.Orphaned j := by
  obtain ⟨⟨r, hr, hw⟩, hsub, hq, hh⟩ := hp
  cases hst.jobEffect h j with
  | frame hheap hsub' hq' hh' =>
    exact ⟨⟨r, hheap.trans hr, hw⟩, hsub'.elim (fun e => e.trans hsub) id, fun h' => hq (hq' h'),
      fun h' => hh (hh' h')⟩
  | begin _ h0 => rw [h0] at hr; cases hr
  | persisted _ _ _ _ _ h0 => rw [h0] at hr; cases hr
  | resumed _ hp => rw [hsub] at hp; cases hp
  | started _ _ hq' => exact (hq hq').elim
  | written r0 r' _ hr0 hr' hs hsub' hq' hh' =>
    rw [hr] at hr0; cases hr0
    exact ⟨⟨r', hr', hs.status ▸ hw⟩, hsub'.trans hsub, fun h' => hq (hq' h'),
      fun h' => hh (hh' h')⟩
  | finished _ _ hh' => exact (hh hh').elim
  | cancelled _ r' _ _ hr' hc hsub' hq' hh' =>
    exact ⟨⟨r', hr', .inr hc⟩, hsub'.trans hsub, fun h' => hq (hq' h'), fun h' => hh (hh' h')⟩

/-! ## `_persist_upload` returning -/

lemma persistDone_heap (name : String) (request : JobRequest) (ts ds : ℕ) :
    (persistDone settings s j name request ts ds).heap =
      Function.update s.heap j (some (newRecord j name request ts ds s.clock)) := by
  unfold persistDone JobManager.put; split <;> rfl

lemma persistDone_records (name : String) (request : JobRequest) (ts ds : ℕ) :
    (persistDone settings s j name request ts ds).records = insertKey s.records j := by
  unfold persistDone JobManager.put; split <;> rfl

/-- With room in the queue, the work item is enqueued in the same step. -/
lemma persistDone_of_not_full (name : String) (request : JobRequest) (ts ds : ℕ)
    (hfull : ¬ s.queueFull settings) :
    (persistDone settings s j name request ts ds).queuedIds = s.queuedIds ++ [j] ∧
      (persistDone settings s j name request ts ds).submits j = none := by
  unfold persistDone JobManager.put
  split
  · next hf => exact (hfull hf).elim
  · exact ⟨by simp [queuedIds, JobManager.enqueue]; rfl, Function.update_same _ _ _⟩

/-- With a full queue, the coroutine suspends in `queue.put`. -/
lemma persistDone_of_full (name : String) (request : JobRequest) (ts ds : ℕ)
    (hfull : s.queueFull settings) :
    (persistDone settings s j name request ts ds).queuedIds = s.queuedIds ∧
      (persistDone settings s j name request ts ds).submits j = some (.putting request) := by
  unfold persistDone JobManager.put
  split
  · exact ⟨rfl, Function.update_same _ _ _⟩
  · next hf => exact (hf hfull).elim

/-- **`submit_job`.** In every reachable state, for every job `j`:
* while its upload is persisted, `j` has no record, no key in `self.records` and no work item;
  if the coroutine is cancelled or fails there, `self.records` and the queue are left as they
  were, and no run that follows ever creates a record for it;
* when `_persist_upload` returns, whatever the queue holds, the new `queued` record is stored
  and keyed in `self.records`, and the work item is enqueued in the same step when the queue
  has room; when it is full the coroutine suspends in `queue.put`, the record already visible;
* while it waits in `queue.put`, `j` has a queued or cancelled record and no work item; if the
  coroutine is cancelled there, the record stays, in no run that follows is it queued or taken
  by the worker, and its key leaves `self.records` only in a run of `purge_expired_jobs` that
  finds it expired. -/
theorem submitJob_spec (hs : Reachable settings s) (j : ℕ) :
    (∀ name request ts ds, s.submits j = some (.persisting name request ts ds) →
      s.heap j = none ∧ j ∉ s.records ∧ j ∉ s.queuedIds ∧
      (submitCancel s j).records = s.records ∧ (submitCancel s j).queue = s.queue ∧
      ∀ u, Relation.ReflTransGen (Step settings) (submitCancel s j) u → u.heap j = none) ∧
    (∀ name request ts ds, s.submits j = some (.persisting name request ts ds) →
      let t := persistDone settings s j name request ts ds
      t.heap j = some (newRecord j name request ts ds s.clock) ∧ j ∈ t.records ∧
      (¬ s.queueFull settings → t.queuedIds = s.queuedIds ++ [j] ∧ t.submits j = none) ∧
      (s.queueFull settings → t.queuedIds = s.queuedIds ∧ t.submits j = some (.putting request))) ∧
    (∀ request, s.submits j = some (.putting request) →
      (∃ r, s.heap j = some r ∧ r.status.Waiting) ∧ j ∉ s.queuedIds ∧
      ∀ u, Relation.ReflTransGen (Step settings) (submitCancel s j) u →
        j ∉ u.queuedIds ∧ ¬ u.worker.Holds j ∧ (∃ r, u.heap j = some r ∧ r.status.Waiting) ∧
        ∀ v, Step settings u v → j ∈ u.records → j ∉ v.records →
          ∃ unlink, u.maintenanceAlive = true ∧
            v = { (purgeExpiredJobs settings unlink u).1 with
              maintenanceAlive := (purgeExpiredJobs settings unlink u).2.isNone } ∧
            u.Expired settings j) := by
  have h := Invariant.reachable hs
  have hcancel : ∀ pc, s.submits j = some pc → Step settings s (submitCancel s j) :=
    fun pc hp => .submitCancel s j pc hp
  have hlt : ∀ pc, s.submits j = some pc → j < s.nextId := fun pc hp =>
    Nat.lt_of_not_le fun hge => by rw [h.fresh_submits j hge] at hp; cases hp
  refine ⟨fun name request ts ds hp => ?_, fun name request ts ds hp => ?_, fun request hp => ?_⟩
  · have h0 := h.persisting_heap j _ _ _ _ hp
    refine ⟨h0, fun hj => by simpa [h0] using h.records_heap j hj, fun hq => ?_, rfl, rfl,
      fun u hu => ?_⟩
    · obtain ⟨item, hi, rfl⟩ := List.mem_map.1 hq
      obtain ⟨r, hr, -⟩ := h.queue_status item hi
      rw [h0] at hr; cases hr
    · exact (Invariant.run_of_step _ (fun hv hp hst => JobManager.Unborn.step hv hp hst)
        (h.step (hcancel _ hp)) ⟨h0, Function.update_same _ _ _, hlt _ hp⟩ hu).1
  · refine ⟨by rw [persistDone_heap]; exact Function.update_same _ _ _,
      by rw [persistDone_records]; exact mem_insertKey.2 (.inr rfl),
      persistDone_of_not_full name request ts ds, persistDone_of_full name request ts ds⟩
  · refine ⟨h.putting_status j request hp, h.putting_not_queued j request hp, fun u hu => ?_⟩
    obtain ⟨hw, -, hq, hh⟩ := Invariant.run_of_step _
      (fun hv hp hst => JobManager.Orphaned.step hv hp hst) (h.step (hcancel _ hp))
      ⟨h.putting_status j request hp, Function.update_same _ _ _,
        h.putting_not_queued j request hp, h.putting_not_held j request hp⟩ hu
    exact ⟨hq, hh, hw, fun v hst hj hj' => hst.key_mem hj hj'⟩

/-- With `max_queue_size = 1`, job 0 queued, job 1 waiting in `queue.put` and job 2 persisting
its upload, each part of the theorem applies: job 2, cancelled now, leaves `self.records` and
the queue as they are and never gets a record, and once persisted it waits in `queue.put`;
job 1, cancelled now, stays unqueued with its record, whose key only a purge removes. -/
theorem submitJob_spec_queueFull :
    let settings : Settings := { maxQueueSize := 1 }
    let u := submitBegin (persistDone settings (submitBegin (persistDone settings
      (submitBegin .init "a.mp4" {}) 0 "a.mp4" {} 0 0) "b.mp4" {}) 1 "b.mp4" {} 0 0) "c.mp4" {}
    Reachable settings u ∧ u.submits 2 = some (.persisting "c.mp4" {} 0 0) ∧
    u.submits 1 = some (.putting {}) ∧ u.queueFull settings ∧
    (u.heap 2 = none ∧ 2 ∉ u.records ∧ 2 ∉ u.queuedIds ∧
      (submitCancel u 2).records = u.records ∧ (submitCancel u 2).queue = u.queue ∧
      ∀ v, Relation.ReflTransGen (Step settings) (submitCancel u 2) v → v.heap 2 = none) ∧
    (let t := persistDone settings u 2 "c.mp4" {} 0 0;
      t.heap 2 = some (newRecord 2 "c.mp4" {} 0 0 u.clock) ∧ 2 ∈ t.records ∧
      (¬ u.queueFull settings → t.queuedIds = u.queuedIds ++ [2] ∧ t.submits 2 = none) ∧
      (u.queueFull settings → t.queuedIds = u.queuedIds ∧ t.submits 2 = some (.putting {}))) ∧
    ((∃ r, u.heap 1 = some r ∧ r.status.Waiting) ∧ 1 ∉ u.queuedIds ∧
      ∀ v, Relation.ReflTransGen (Step settings) (submitCancel u 1) v →
        1 ∉ v.queuedIds ∧ ¬ v.worker.Holds 1 ∧ (∃ r, v.heap 1 = some r ∧ r.status.Waiting) ∧
        ∀ w, Step settings v w → 1 ∈ v.records → 1 ∉ w.records →
          ∃ unlink, v.maintenanceAlive = true ∧
            w = { (purgeExpiredJobs settings unlink v).1 with
              maintenanceAlive := (purgeExpiredJobs settings unlink v).2.isNone } ∧
            v.Expired settings 1) := by
  intro settings u
  have hu : Reachable settings u :=
    .tail (.tail (.tail (.tail (.single (.submitBegin _ _ _)) (.persistDone _ 0 "a.mp4" {} 0 0 rfl))
      (.submitBegin _ _ _)) (.persistDone _ 1 "b.mp4" {} 0 0 rfl)) (.submitBegin _ _ _)
  exact ⟨hu, rfl, rfl, by decide, (submitJob_spec hu 2).1 _ _ _ _ rfl,
    (submitJob_spec hu 2).2.1 _ _ _ _ rfl, (submitJob_spec hu 1).2.2 _ rfl⟩

/-- With `max_queue_size = 1` and job 0 queued, job 1's `submit_job` raises nothing: once its
upload is persisted it waits in `queue.put` with no work item while `get_job` already returns
its queued record; and when the coroutine is then cancelled, `self.records` keeps the key it
did not have before the submission. -/
theorem submitJob_orphan :
    let settings : Settings := { maxQueueSize := 1 }
    let s := submitBegin (persistDone settings (submitBegin .init "a.mp4" {}) 0 "a.mp4" {} 0 0)
      "b.mp4" {}
    let t := persistDone settings s 1 "b.mp4" {} 0 0
    Reachable settings t ∧ t.queueFull settings ∧ t.submits 1 = some (.putting {}) ∧
    1 ∉ t.queuedIds ∧ (t.getJob 1 t.clock).map (·.status) = some .queued ∧
    Step settings t (submitCancel t 1) ∧ s.records = [0] ∧ (submitCancel t 1).records = [0, 1] := by
  intro settings s t
  have hs : Reachable settings s :=
    .tail (.tail (.single (.submitBegin _ _ _)) (.persistDone _ 0 "a.mp4" {} 0 0 rfl))
      (.submitBegin _ _ _)
  exact ⟨.tail hs (.persistDone _ 1 "b.mp4" {} 0 0 rfl), by decide, rfl, by decide, rfl,
    .submitCancel _ 1 _ rfl, rfl, rfl⟩

end MediaEngine
