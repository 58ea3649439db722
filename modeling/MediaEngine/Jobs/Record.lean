import MediaEngine.Models
import Mathlib.Algebra.Order.Field.Rat

set_option autoImplicit false

/-!
# Job records

`JobRecord`, `WorkItem` and `JobRecord.to_detail` of `app/jobs.py`, and the one write the
transcode engine makes into a record, `TranscodeEngine._update_progress`.

## Main definitions

* `MediaEngine.JobRecord` — the mutable record of one job.
* `MediaEngine.JobRecord.toDetail` — `to_detail`: durations, progress fraction and ETA,
  computed on read at time `now`.
* `MediaEngine.JobRecord.updateProgress` — `_update_progress`.
* `MediaEngine.JobRecord.WellFormed` — the record's shape for its status: an output exactly
  when completed, an error exactly when failed, and both transcode timestamps once finished.

## Design

Media seconds are exact rationals. A `datetime` difference's `total_seconds()` is the
difference of two microsecond counts divided by `10^6`. A float is truthy when it is
non-zero.
-/

namespace MediaEngine

/-- `JobRecord` of `jobs.py`. -/
structure JobRecord where
  jobId : ℕ
  status : JobStatus
  createdAt : ℕ
  updatedAt : ℕ
  sourcePath : Path
  sourceFilename : String
  outputPath : Option Path
  quality : QualityTarget
  codec : CodecPreference
  callbackUrl : Option String
  error : Option String := none
  downloadStartedAt : Option ℕ := none
  downloadFinishedAt : Option ℕ := none
  transcodeStartedAt : Option ℕ := none
  transcodeFinishedAt : Option ℕ := none
  mediaDurationSeconds : Option ℚ := none
  transcodeMediaSeconds : Option ℚ := none
  deriving DecidableEq

/-- `WorkItem` of `jobs.py`: a reference to the job's record and the original request. -/
structure WorkItem where
  record : ℕ
  request : JobRequest
  deriving DecidableEq, Repr

/-- The name of a stored file: `Path.name`. -/
def Path.name : Path → String
  | .input j name => s!"{j}_{name}"
  | .work j | .output j => s!"{j}.mp4"

/-- `JobDetail` of `models.py`: the view `get_job` and `list_jobs` return. -/
structure JobDetail where
  jobId : ℕ
  status : JobStatus
  createdAt : ℕ
  updatedAt : ℕ
  sourceFilename : String
  outputFilename : Option String
  outputPath : Option Path
  quality : QualityTarget
  codec : CodecPreference
  callbackUrl : Option String
  error : Option String
  mediaDurationSeconds : Option ℚ
  downloadSeconds : Option ℚ
  transcodeSeconds : Option ℚ
  transcodeProgress : Option ℚ
  transcodeEtaSeconds : Option ℚ
  deriving DecidableEq

/-- `(b - a).total_seconds()`. -/
def totalSeconds (a b : ℕ) : ℚ := (((b : ℤ) - a : ℤ) : ℚ) / 1000000

/-- The progress fraction and ETA of `to_detail`: both need a non-zero duration, a processed
time and a start; the ETA also needs a positive fraction, a running transcode, elapsed time
and a positive speed. -/
def JobRecord.progressEta (r : JobRecord) (now : ℕ) : Option ℚ × Option ℚ :=
  match r.mediaDurationSeconds, r.transcodeMediaSeconds, r.transcodeStartedAt with
  | some mediaDuration, some transcodeMedia, some started =>
    if mediaDuration = 0 then (none, none)
    else
      let processed := min transcodeMedia mediaDuration
      let progress := processed / mediaDuration
      let eta :=
        if progress ≠ 0 ∧ progress > 0 ∧ r.transcodeFinishedAt = none then
          let elapsed := totalSeconds started now
          if elapsed > 0 then
            let speed := processed / elapsed
            let remainingMedia := max (mediaDuration - processed) 0
            if speed > 0 then some (remainingMedia / speed) else none
          else none
        else none
      (some progress, eta)
  | _, _, _ => (none, none)

/-- `to_detail`, at time `now`. -/
def JobRecord.toDetail (r : JobRecord) (now : ℕ) : JobDetail where
  jobId := r.jobId
  status := r.status
  createdAt := r.createdAt
  updatedAt := r.updatedAt
  sourceFilename := r.sourceFilename
  outputFilename := r.outputPath.map Path.name
  outputPath := r.outputPath
  quality := r.quality
  codec := r.codec
  callbackUrl := r.callbackUrl
  error := r.error
  mediaDurationSeconds := r.mediaDurationSeconds
  downloadSeconds :=
    match r.downloadStartedAt, r.downloadFinishedAt with
    | some started, some finished => some (totalSeconds started finished)
    | _, _ => none
  transcodeSeconds := r.transcodeStartedAt.map fun started =>
    totalSeconds started (r.transcodeFinishedAt.getD now)
  transcodeProgress := (r.progressEta now).1
  transcodeEtaSeconds := (r.progressEta now).2

/-- `_update_progress(record, processed_seconds, media_duration)` at time `now`. -/
def JobRecord.updateProgress (r : JobRecord) (processedSeconds mediaDuration : ℚ)
    (now : ℕ) : JobRecord :=
  { r with
    transcodeMediaSeconds := some processedSeconds
    mediaDurationSeconds :=
      if r.mediaDurationSeconds = none ∧ mediaDuration > 0 then some mediaDuration
      else r.mediaDurationSeconds
    updatedAt := now }

/-- The shape of a record for its status: `output_path` is set iff the job completed,
`error` is set iff it failed, and a completed or failed job has both transcode
timestamps. -/
structure JobRecord.WellFormed (r : JobRecord) : Prop where
  output_iff : r.outputPath.isSome ↔ r.status = .completed
  error_iff : r.error.isSome ↔ r.status = .failed
  finished : r.status = .completed ∨ r.status = .failed →
    r.transcodeStartedAt.isSome ∧ r.transcodeFinishedAt.isSome

/-- The engine's progress write keeps the status, output, error and transcode timestamps. -/
lemma JobRecord.WellFormed.updateProgress {r : JobRecord} (h : r.WellFormed)
    (processedSeconds mediaDuration : ℚ) (now : ℕ) :
    (r.updateProgress processedSeconds mediaDuration now).WellFormed :=
  ⟨h.output_iff, h.error_iff, h.finished⟩

end MediaEngine
