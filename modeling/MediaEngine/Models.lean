import Mathlib.Data.List.Infix
import Mathlib.Data.Rat.Defs

set_option autoImplicit false

/-!
# The data model of the media engine

The enumerations and request records of `app/models.py`, and the few primitive values the
rest of the core passes around: job identifiers, timestamps and the files the core names.

## Main definitions

* `MediaEngine.JobStatus`, `MediaEngine.QualityTarget`, `MediaEngine.CodecPreference` —
  the three string enumerations.
* `MediaEngine.JobRequest`, `MediaEngine.CallbackPayload` — the request of a submission and
  the body of a webhook.
* `MediaEngine.Path` — the three kinds of file the core creates and deletes.
* `MediaEngine.pyLower`, `MediaEngine.pyTruthy` — Python's `str.lower` and the truthiness of
  an optional string.

## Design

* A job identifier is `str(uuid.uuid4())`; the model draws it, a natural number, from a
  counter, so two submissions never share one.
* A `datetime` is a natural number of microseconds since `datetime.min`
  (`0001-01-01 00:00:00`), the resolution of `datetime`, and `datetime.utcnow()` reads the
  clock of the state it is called in.
* `Path` has one constructor per directory the code writes into: `input_dir /
  f"{job_id}_{name}"`, `work_dir / f"{job_id}.mp4"` and `output_dir / f"{job_id}.mp4"`.
  A uuid has no `_` and no `.`, so these paths are pairwise distinct even when two of the
  directories coincide.
* `str.lower` is modelled on the characters, by `Char.toLower`. It differs from Python's
  only on characters outside ASCII, none of which lowers to a character of the ASCII tokens
  (`"mp4"`, codec names) that the code compares the result with.
-/

namespace MediaEngine

/-- `JobStatus` of `models.py`. -/
inductive JobStatus
  | queued
  | processing
  | completed
  | failed
  | cancelled
  deriving DecidableEq, Repr

/-- `QualityTarget` of `models.py`. -/
inductive QualityTarget
  | auto
  | uhd2160p
  | fhd1080p
  | hd720p
  | sd480p
  deriving DecidableEq, Repr

/-- `CodecPreference` of `models.py`. -/
inductive CodecPreference
  | auto
  | h264
  | h265
  deriving DecidableEq, Repr

/-- `JobRequest` of `models.py`: the form fields of a submission. -/
structure JobRequest where
  quality : QualityTarget := .auto
  codec : CodecPreference := .auto
  callbackUrl : Option String := none
  deriving DecidableEq, Repr

/-- A file the core names: an upload, a scratch output or a finished output. -/
inductive Path
  | input (jobId : ℕ) (name : String)
  | work (jobId : ℕ)
  | output (jobId : ℕ)
  deriving DecidableEq, Repr

/-- `CallbackPayload` of `models.py`: the body of a webhook. -/
structure CallbackPayload where
  jobId : ℕ
  status : JobStatus
  outputPath : Option Path := none
  message : Option String := none
  deriving DecidableEq, Repr

/-- The statuses `cancel_job` refuses to change: `{completed, failed, cancelled}`. -/
def JobStatus.isTerminal : JobStatus → Bool
  | .completed | .failed | .cancelled => true
  | .queued | .processing => false

/-- Python's `s.lower()`, as a list of characters. -/
def pyLower (s : String) : List Char := s.toList.map Char.toLower

/-- The truthiness of an `Optional[str]`: present and not empty. -/
def pyTruthy : Option String → Bool
  | some s => s != ""
  | none => false

end MediaEngine
