import MediaEngine.Jobs.Writes

set_option autoImplicit false

/-!
# The files on disk

The uploads and the outputs of the jobs, under every interleaving. `submit_job` creates the
upload, the worker moves the output into place in the step that completes the job, and
`purge_expired_jobs` deletes the upload and the output of each record whose key it pops.
Nothing else deletes a file.

## Main definitions

* `MediaEngine.Path.jobId` — the job a stored file belongs to.
* `MediaEngine.JobManager.OutputsOnDisk` — every completed job in `self.records` has its
  output on disk.

## Main results

* `MediaEngine.Step.deleted_jobId` — a step deletes a file only when the key of the file's
  job leaves `self.records` in that step.
* `MediaEngine.reachable_completed_output` — in every reachable state, a completed job in
  `self.records` has its output at `output/{id}.mp4`, and that file is on disk.
* `MediaEngine.reachable_unkeyed_files_kept` — once a job's key has left `self.records`, no
  later step deletes a file of the job: the output of a job purged before it finished stays on
  disk for good.
-/

namespace MediaEngine

open JobManager

/-- The job a stored file belongs to. -/
def Path.jobId : Path → ℕ
  | .input j _ | .work j | .output j => j

variable {settings : Settings} {s t : JobManager}

/-- A step deletes a file only when the key of the file's job leaves `self.records` in that
step. -/
lemma Step.deleted_jobId (hpaths : ∀ j r, s.heap j = some r → r.FilePaths j)
    (hst : Step settings s t) {p : Path} (h : s.files p = true) (h' : t.files p = false) :
    p.jobId ∈ s.records ∧ p.jobId ∉ t.records := by
  obtain ⟨k, hk, hkt, r, hr, hp⟩ := hst.frameChange.deleted p h h'
  have hpk : p.jobId = k := by
    rcases hp with rfl | hp
    · rw [(hpaths k r hr).source]; rfl
    · rw [(hpaths k r hr).output p hp]; rfl
  exact hpk ▸ ⟨hk, hkt⟩

/-! ## Outputs of completed jobs -/

/-- Every completed job in `self.records` has its output on disk. -/
def JobManager.OutputsOnDisk (s : JobManager) : Prop :=
  ∀ j ∈ s.records, ∀ r, s.heap j = some r → r.status = .completed → s.files (.output j) = true

lemma JobManager.OutputsOnDisk.step (h : s.Invariant)
    (hpaths : ∀ j r, s.heap j = some r → r.FilePaths j) (ho : s.OutputsOnDisk)
    (hst : Step settings s t) : t.OutputsOnDisk := by
  intro j hj r hr hc
  cases hst.recordChange h j with
  | same h' =>
    have hjs : j ∈ s.records := (hst.frameChange.records j hj).resolve_right
      fun ⟨_, _, _, _, hsub⟩ => by rw [h', h.persisting_heap _ _ _ _ _ hsub] at hr; cases hr
    by_contra hno
    exact (hst.deleted_jobId hpaths (ho j hjs r (h' ▸ hr) hc) (Bool.eq_false_iff.mpr hno)).2 hj
  | created _ _ _ _ _ h' => rw [h'] at hr; cases hr; cases hc
  | written _ _ _ h' _ hfile => rw [h'] at hr; cases hr; exact (hfile hc).2.2

lemma reachable_outputsOnDisk (hs : Reachable settings s) : s.OutputsOnDisk := by
  induction hs with
  | refl => exact fun _ h => nomatch h
  | tail hr hst ih => exact ih.step (Invariant.reachable hr) (reachable_filePaths hr) hst

/-- **The outputs of completed jobs.** In every reachable state, a completed job whose key is
in `self.records` has `output_path = output/{id}.mp4`, and that file is on disk. -/
theorem reachable_completed_output (hs : Reachable settings s) {j : ℕ} (hj : j ∈ s.records)
    {r : JobRecord} (hr : s.heap j = some r) (hc : r.status = .completed) :
    r.outputPath = some (.output j) ∧ s.files (.output j) = true := by
  obtain ⟨p, hp⟩ := Option.isSome_iff_exists.mp
    (((Invariant.reachable hs).wellFormed j r hr).output_iff.mpr hc)
  exact ⟨hp.trans (congrArg some ((reachable_filePaths hs j r hr).output p hp)),
    reachable_outputsOnDisk hs j hj r hr hc⟩

/-! ## Files of purged jobs -/

/-- **The files of a purged job are never deleted.** In every reachable state in which job `j`
has a record but its key has left `self.records` (`purge_expired_jobs` popped it while the job
was queued or processing), no step of any later run deletes a file of the job: its upload, and
the output the worker moves into place when it completes the job, stay on disk for good. -/
theorem reachable_unkeyed_files_kept (hs : Reachable settings s) {j : ℕ}
    (hj : j ∉ s.records) (hheap : (s.heap j).isSome) {u : JobManager}
    (hu : Relation.ReflTransGen (Step settings) s u) {p : Path} (hpj : p.jobId = j)
    (hp : s.files p = true) : u.files p = true := by
  refine (Reachable.run_of_step
    (fun v => j ∉ v.records ∧ (v.heap j).isSome ∧ v.files p = true) ?_ hs ⟨hj, hheap, hp⟩ hu).2.2
  rintro v w hv ⟨hjv, hhv, hpv⟩ hst
  have hjw : j ∉ w.records := fun hjw =>
    ((hst.frameChange.records j hjw).resolve_left hjv).elim fun _ ⟨_, _, _, hsub⟩ => by
      rw [(Invariant.reachable hv).persisting_heap _ _ _ _ _ hsub] at hhv; cases hhv
  refine ⟨hjw, ?_, ?_⟩
  · cases hst.recordChange (Invariant.reachable hv) j with
    | same h' => rwa [h']
    | created _ _ _ _ _ h' | written _ _ _ h' _ _ => rw [h']; rfl
  · by_contra hno
    exact hjv (hpj ▸ (hst.deleted_jobId (reachable_filePaths hv) hpv (Bool.eq_false_iff.mpr hno)).1)

/-- Job 0 is purged two hours after it started transcoding and then completes: its output,
moved into place after the purge, survives the next purge. -/
theorem reachable_unkeyed_files_kept_output :
    ∃ s u : JobManager, Reachable {} s ∧ 0 ∉ s.records ∧ (s.heap 0).isSome ∧
      Relation.ReflTransGen (Step {}) s u ∧ s.files (.output 0) = true ∧
      u.files (.output 0) = true := by
  have hs : Reachable {} _ := .tail (.tail (.tail (.tail (.tail (.single
    (.submitBegin _ "a.mp4" {})) (.persistDone _ 0 "a.mp4" {} 0 0 rfl))
    (.dequeue _ ⟨0, {}⟩ [] rfl rfl)) (.tick _ 7200000001)) (.purge _ (fun _ => .removed) rfl))
    (.transcodeOk _ ⟨0, {}⟩ rfl)
  exact ⟨_, _, hs, by decide, rfl, .single (.purge _ (fun _ => .removed) rfl), rfl,
    reachable_unkeyed_files_kept hs (show 0 ∉ _ from by decide) rfl (.single (.purge _ (fun _ => .removed) rfl))
      (show Path.jobId (.output 0) = 0 from rfl) rfl⟩

end MediaEngine
