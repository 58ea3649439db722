import MediaEngine.Jobs.Files
import MediaEngine.Jobs.Lifecycle

set_option autoImplicit false

/-!
# The HTTP routes

The job routes of `app/main.py`: `GET /jobs/{job_id}`, `GET /jobs/{job_id}/download` and
`DELETE /jobs/{job_id}`. Each awaits one manager method that never suspends, so a route reads
or changes the manager in one atomic step and answers from that state.

## Main definitions

* `MediaEngine.HttpError` — an `HTTPException`: its status code and its `detail`.
* `MediaEngine.getJobRoute`, `MediaEngine.downloadJob`, `MediaEngine.cancelJobRoute` — the
  routes.

## Main results

* `MediaEngine.reachable_downloadJob` — in every reachable state the download route serves a
  file exactly for the jobs `get_job` shows as completed; the file is `output/{id}.mp4` under
  the name `{id}.mp4`, and it is on disk when the route answers. Every other request gets
  `404 Job output not ready`.

## Design

`job_id` is the manager's id of the job. A `Path` and a `JobDetail` are always truthy, so
`not job.output_path` holds exactly when the output path is `None`. `FileResponse` opens the
file only when the response is sent, after the route has returned; the model speaks of the
state the route answers from.
-/

namespace MediaEngine

open JobManager

/-- An `HTTPException(status_code, detail)`. -/
structure HttpError where
  statusCode : ℕ
  detail : String
  deriving DecidableEq, Repr

/-- `FileResponse(path=..., filename=..., media_type=...)`. -/
structure FileResponse where
  path : Path
  filename : String
  mediaType : String
  deriving DecidableEq, Repr

/-- The body `{"status": "cancelled", "job_id": job_id}` of an accepted `DELETE`. -/
structure CancelResponse where
  status : String
  jobId : ℕ
  deriving DecidableEq, Repr

/-- `GET /jobs/{job_id}` at time `now`. -/
def getJobRoute (s : JobManager) (j now : ℕ) : Except HttpError JobDetail :=
  match s.getJob j now with
  | some job => .ok job
  | none => .error ⟨404, "Job not found"⟩

/-- `GET /jobs/{job_id}/download` at time `now`. -/
def downloadJob (s : JobManager) (j now : ℕ) : Except HttpError FileResponse :=
  match s.getJob j now with
  | some job =>
    match job.outputPath with
    | some path => .ok ⟨path, path.name, "video/mp4"⟩
    | none => .error ⟨404, "Job output not ready"⟩
  | none => .error ⟨404, "Job output not ready"⟩

/-- `DELETE /jobs/{job_id}`: the manager after `cancel_job`, and the answer. -/
def cancelJobRoute (s : JobManager) (j : ℕ) : JobManager × Except HttpError CancelResponse :=
  if (cancelJob s j).2 then ((cancelJob s j).1, .ok ⟨"cancelled", j⟩)
  else ((cancelJob s j).1, .error ⟨404, "Unable to cancel job"⟩)

variable {settings : Settings} {s : JobManager}

lemma getJob_eq_some {j now : ℕ} {job : JobDetail} :
    s.getJob j now = some job ↔ j ∈ s.records ∧ ∃ r, s.heap j = some r ∧ r.toDetail now = job := by
  unfold JobManager.getJob
  split_ifs with hj <;> simp [hj, Option.map_eq_some']

/-- **Downloads.** In every reachable state, for every job id and every time: the download
route serves a file exactly when `GET /jobs/{job_id}` shows the job as completed. The file is
`output/{id}.mp4`, sent as `video/mp4` under the name `{id}.mp4`, and it is on disk in the
state the route answers from. Every other request, for an unknown, purged, queued,
processing, failed or cancelled job, is answered `404 Job output not ready`. -/
theorem reachable_downloadJob (hs : Reachable settings s) (j now : ℕ) :
    ((∃ resp, downloadJob s j now = .ok resp) ↔
      ∃ job, getJobRoute s j now = .ok job ∧ job.status = .completed) ∧
    (∀ resp, downloadJob s j now = .ok resp →
      resp = ⟨.output j, s!"{j}.mp4", "video/mp4"⟩ ∧ s.files (.output j) = true) ∧
    ∀ e, downloadJob s j now = .error e → e = ⟨404, "Job output not ready"⟩ := by
  unfold downloadJob getJobRoute
  cases hg : s.getJob j now with
  | none => exact ⟨by simp, nofun, fun e he => by cases he; rfl⟩
  | some job =>
    obtain ⟨hj, r, hr, rfl⟩ := getJob_eq_some.mp hg
    have hwf := (Invariant.reachable hs).wellFormed j r hr
    by_cases hc : r.status = .completed
    · obtain ⟨hout, hfile⟩ := reachable_completed_output hs hj hr hc
      simp only [JobRecord.toDetail, hout, hc]
      exact ⟨by simp, fun resp h => by cases h; exact ⟨rfl, hfile⟩, nofun⟩
    · simp only [JobRecord.toDetail, hwf.outputPath_eq_none hc]
      exact ⟨by simpa using hc, nofun, fun e he => by cases he; rfl⟩

/-- The download of a job completed at time 0, read at the clock. -/
theorem reachable_downloadJob_completed :
    let s := transcodeOk (dequeue (persistDone {} (submitBegin .init "a.mp4" {}) 0 "a.mp4" {} 0 0)
      ⟨0, {}⟩ []) ⟨0, {}⟩
    Reachable {} s ∧ downloadJob s 0 0 = .ok ⟨.output 0, "0.mp4", "video/mp4"⟩ ∧
      s.files (.output 0) = true := by
  intro s
  have hs : Reachable {} s := .tail (.tail (.tail (.single (.submitBegin _ "a.mp4" {}))
    (.persistDone _ 0 "a.mp4" {} 0 0 rfl)) (.dequeue _ ⟨0, {}⟩ [] rfl rfl))
    (.transcodeOk _ ⟨0, {}⟩ rfl)
  exact ⟨hs, rfl, ((reachable_downloadJob hs 0 0).2.1 _ rfl).2⟩

end MediaEngine
