import MediaEngine.Transcode.Engine
import MediaEngine.Jobs.Effect
import Mathlib.Algebra.Order.Field.Basic
import Mathlib.Data.List.Sort
import Mathlib.Tactic.NormNum.Ineq

set_option autoImplicit false

/-!
# Progress and ETA

The progress fraction and the ETA that `JobRecord.to_detail` derives from the record, and how
the fraction moves while the engine thread writes into the record.

## Main definitions

* `MediaEngine.Rising` — the writes still to come never lower the processed seconds.
* `MediaEngine.EngineRising` — a state of the engine thread past its duration write whose
  remaining writes are `Rising`.

## Main results

* `MediaEngine.toDetail_progress_eta_bounds` — for every record and every `now`: the ETA is
  never negative, and the progress lies in `[0, 1]` exactly when the processed seconds `t`
  and the duration `d` have `0 < d ∧ 0 ≤ t` or `d < 0 ∧ d ≤ t`.
* `MediaEngine.negative_out_time_progress` — a negative `out_time_ms` gives a reachable job a
  negative progress.
* `MediaEngine.Step.engineWrite` — every write of the engine thread is a step of the manager.
* `MediaEngine.reachable_dequeue_record` — in every reachable state, the engine starts on a
  record with neither a duration nor processed seconds.
* `MediaEngine.processSync_progress_monotone` — for a positive duration, when at most one
  ffmpeg child reports progress, the progress never decreases along the engine's writes.
* `MediaEngine.rkmpp_fallback_progress_decreases` — with `/dev/rga`, a failed `rkrga` run
  followed by the `format` run sends the progress back.

## Design

The progress fraction depends on the duration, the processed seconds and the start only, so
it does not change between two writes of the engine thread; the times of the writes are free.
-/

namespace MediaEngine

open Relation

/-! ## The view -/

namespace JobRecord

/-- `to_detail`'s `transcode_progress`: `min(processed, duration) / duration`, once a non-zero
duration, a processed time and a start are known. -/
lemma toDetail_transcodeProgress_eq_some {r : JobRecord} {now : ℕ} {p : ℚ} :
    (r.toDetail now).transcodeProgress = some p ↔
      ∃ d t, r.mediaDurationSeconds = some d ∧ r.transcodeMediaSeconds = some t ∧
        r.transcodeStartedAt.isSome ∧ d ≠ 0 ∧ p = min t d / d := by
  simp only [toDetail, progressEta]
  split
  · next d t started hd ht hs =>
    by_cases h0 : d = 0 <;> simp [hd, ht, hs, h0, eq_comm]
  · next hnot =>
    simp only [reduceCtorEq, false_iff, not_exists, not_and]
    intro d t hd ht hs
    obtain ⟨started, hs⟩ := Option.isSome_iff_exists.mp hs
    exact absurd hs (hnot d t started hd ht)

/-- `to_detail`'s ETA divides a remaining time clamped at `0` by a positive speed. -/
lemma toDetail_transcodeEtaSeconds_nonneg {r : JobRecord} {now : ℕ} {e : ℚ}
    (h : (r.toDetail now).transcodeEtaSeconds = some e) : 0 ≤ e := by
  simp only [toDetail, progressEta] at h
  split at h
  · split_ifs at h with h0 h1 h2 h3
    cases h
    exact div_nonneg (le_max_right _ _) h3.le
  · cases h

end JobRecord

/-- The clamp `min(processed, duration)` keeps the fraction at most `1` only for a positive
duration, and at least `0` only for processed seconds on the right side of `0`. -/
lemma progress_mem_unit_iff {d : ℚ} (t : ℚ) (hd : d ≠ 0) :
    0 ≤ min t d / d ∧ min t d / d ≤ 1 ↔ 0 < d ∧ 0 ≤ t ∨ d < 0 ∧ d ≤ t := by
  rcases lt_or_gt_of_ne hd with hneg | hpos
  · have hmin : min t d ≤ 0 := (min_le_right t d).trans hneg.le
    rw [div_le_one_of_neg hneg, le_min_iff]
    simp [div_nonneg_iff, hmin, hneg, hneg.le, not_lt.mpr hneg.le]
  · rw [div_le_one hpos, div_nonneg_iff]
    simp [hpos, hpos.le, not_le.mpr hpos, not_lt.mpr hpos.le]

/-- **The range of the view.** For every record and every `now`, `transcode_eta_seconds` is
never negative, and `transcode_progress` lies in `[0, 1]` exactly when the processed seconds
`t` and the duration `d` have `0 < d ∧ 0 ≤ t`, or `d < 0 ∧ d ≤ t`. -/
theorem toDetail_progress_eta_bounds (r : JobRecord) (now : ℕ) :
    (∀ p, (r.toDetail now).transcodeProgress = some p →
      ∃ d t, r.mediaDurationSeconds = some d ∧ r.transcodeMediaSeconds = some t ∧
        (0 ≤ p ∧ p ≤ 1 ↔ 0 < d ∧ 0 ≤ t ∨ d < 0 ∧ d ≤ t)) ∧
    ∀ e, (r.toDetail now).transcodeEtaSeconds = some e → 0 ≤ e := by
  refine ⟨fun p hp => ?_, fun e he => JobRecord.toDetail_transcodeEtaSeconds_nonneg he⟩
  obtain ⟨d, t, hd, ht, -, h0, rfl⟩ := JobRecord.toDetail_transcodeProgress_eq_some.mp hp
  exact ⟨d, t, hd, ht, progress_mem_unit_iff t h0⟩

/-- A progress line with a negative `out_time_ms` is read, and after it a reachable job with a
10-second source reports a progress of `-1/10`. -/
theorem negative_out_time_progress :
    progressSeconds "out_time_ms=-1000000\n" = some (-1) ∧
      ∃ s : JobManager, Reachable {} s ∧
        (s.getJob 0 s.clock).bind (·.transcodeProgress) = some (-1 / 10) := by
  refine ⟨?_, _, .tail (.tail (.tail (.tail (.single (.submitBegin _ "a.mp4" {}))
    (.persistDone _ 0 "a.mp4" {} 0 0 rfl)) (.dequeue _ ⟨0, {}⟩ [] rfl rfl))
    (.engineDuration _ 0 (some 10) rfl)) (.engineProgress _ 0 (-1) 10 rfl), ?_⟩
  · have h : progressMicroseconds "out_time_ms=-1000000\n" = some (-1000000) := by decide
    rw [progressSeconds, h]
    norm_num
  · show some (min (-1 : ℚ) 10 / 10) = _
    rw [min_eq_left (by norm_num)]

/-! ## The engine thread in the manager -/

/-- Every write of the engine thread is a step of the manager from a state in which the
engine runs the job: the engine's writes refine the manager's `engineDuration`,
`engineProgress` and `engineFinalSeconds` steps. -/
theorem Step.engineWrite (settings : Settings) {s : JobManager} {j : ℕ} (he : s.engine = some j)
    (w : EngineWrite) : Step settings s (s.modifyRecord j (w.apply s.clock)) := by
  cases w with
  | duration seconds => exact .engineDuration s j seconds he
  | progress processedSeconds mediaDuration => exact .engineProgress s j processedSeconds mediaDuration he
  | finalSeconds => exact .engineFinalSeconds s j he

/-- A queued record carries no duration and no processed seconds: only the engine thread
writes them, into the record of a job that has left the queue. -/
def JobManager.QueuedFresh (s : JobManager) : Prop :=
  ∀ j r, s.heap j = some r → r.status = .queued →
    r.mediaDurationSeconds = none ∧ r.transcodeMediaSeconds = none

lemma JobManager.QueuedFresh.step {settings : Settings} {s t : JobManager} (h : s.Invariant)
    (hfresh : s.QueuedFresh) (hst : Step settings s t) : t.QueuedFresh := by
  intro j r hr hq
  cases hst.jobEffect h j with
  | frame hheap => exact hfresh j r (hheap.symm.trans hr) hq
  | begin _ _ h0 => rw [h0] at hr; cases hr
  | persisted _ _ _ _ _ _ h0 => rw [h0] at hr; cases hr; exact ⟨rfl, rfl⟩
  | resumed _ _ hheap => exact hfresh j r (hheap.symm.trans hr) hq
  | started _ _ _ _ _ h0 hproc => rw [h0] at hr; cases hr; rw [hproc] at hq; cases hq
  | written r₀ _ he hr₀ h0 hshape =>
    rw [h0] at hr; cases hr
    obtain ⟨r₁, hr₁, hrun⟩ := h.engine_running j he
    rw [hr₀] at hr₁; cases hr₁
    rw [hshape.status] at hq
    rcases hrun with h' | h' <;> rw [h'] at hq <;> cases hq
  | finished _ _ _ _ _ h0 hfin =>
    rw [h0] at hr; cases hr
    rcases hfin with h' | h' <;> rw [h'] at hq <;> cases hq
  | cancelled _ _ _ _ h0 hc => rw [h0] at hr; cases hr; rw [hc] at hq; cases hq

lemma reachable_queuedFresh {settings : Settings} {s : JobManager} (hs : Reachable settings s) :
    s.QueuedFresh :=
  JobManager.Invariant.run_of_step _ (fun hv hp hst => JobManager.QueuedFresh.step hv hp hst)
    JobManager.Invariant.init (fun _ _ h => by cases h) hs

/-- **The record the engine starts on.** In every reachable state, when the worker takes from
the queue a job that is not cancelled, the engine thread starts on the job's record with a
start time and with neither a duration nor processed seconds: the record `r₀` of
`processSync_progress_monotone`. -/
theorem reachable_dequeue_record {settings : Settings} {s : JobManager}
    (hs : Reachable settings s) {item : WorkItem} {rest : List WorkItem}
    (hq : s.queue = item :: rest) {r : JobRecord} (hr : s.heap item.record = some r)
    (hc : r.status ≠ .cancelled) :
    (dequeue s item rest).engine = some item.record ∧
      ∃ r₀, (dequeue s item rest).heap item.record = some r₀ ∧
        r₀.transcodeStartedAt = some s.clock ∧ r₀.mediaDurationSeconds = none ∧
        r₀.transcodeMediaSeconds = none := by
  obtain ⟨r', hr', hwait⟩ :=
    (JobManager.Invariant.reachable hs).queue_status item (hq ▸ List.mem_cons_self _ _)
  rw [hr] at hr'
  cases hr'
  obtain ⟨hmd, htms⟩ := reachable_queuedFresh hs _ r hr (hwait.resolve_right hc)
  exact ⟨by simp [dequeue, hr, hc],
    { r with status := .processing, updatedAt := s.clock, transcodeStartedAt := some s.clock },
    by simp [dequeue, hr, hc], rfl, hmd, htms⟩

/-! ## The progress along the engine's writes -/

/-- The writes still to come never lower the processed seconds `t` of a record whose duration
`d` is set: progress writes with non-decreasing seconds, and final writes. -/
def Rising (d : ℚ) : Option ℚ → List EngineWrite → Prop
  | _, [] => True
  | t, .progress v _ :: ws => (∀ t₀, t = some t₀ → t₀ ≤ v) ∧ Rising d (some v) ws
  | _, .finalSeconds :: ws => Rising d (some d) ws
  | _, .duration _ :: _ => False

/-- A state of the engine thread past its duration write `d`, whose remaining writes are
`Rising`. -/
structure EngineRising (d : ℚ) (x : JobRecord × List EngineWrite) : Prop where
  duration : x.1.mediaDurationSeconds = some d
  rising : Rising d x.1.transcodeMediaSeconds x.2

section Rising

variable {d : ℚ} {x y : JobRecord × List EngineWrite}

/-- Progress writes of non-decreasing seconds, each at least the processed seconds so far,
then at most the final write, are `Rising`. -/
lemma rising_progress_append (mediaDuration : ℚ) {vals : List ℚ} (hs : vals.Sorted (· ≤ ·))
    {t : Option ℚ} (ht : ∀ t₀, t = some t₀ → ∀ v ∈ vals, t₀ ≤ v) {tail : List EngineWrite}
    (htail : tail = [] ∨ tail = [.finalSeconds]) :
    Rising d t (vals.map (fun v => EngineWrite.progress v mediaDuration) ++ tail) := by
  induction vals generalizing t with
  | nil => rcases htail with rfl | rfl <;> trivial
  | cons v vs ih =>
    obtain ⟨hv, hvs⟩ := List.sorted_cons.mp hs
    exact ⟨fun t₀ h => ht t₀ h v (List.mem_cons_self v vs),
      ih hvs fun t₀ h => (Option.some.inj h) ▸ hv⟩

/-- **The step lemma.** A write keeps the state `EngineRising` and does not lower the
processed seconds, clamped at the duration. -/
lemma EngineRising.step (hx : EngineRising d x) (hst : EngineStep x y) :
    EngineRising d y ∧ ∃ v, y.1.transcodeMediaSeconds = some v ∧
      ∀ t, x.1.transcodeMediaSeconds = some t → min t d ≤ min v d := by
  cases hst with
  | write r w ws now =>
    obtain ⟨hd, hrise⟩ := hx
    dsimp only at hd hrise
    cases w with
    | duration seconds => exact hrise.elim
    | progress v mediaDuration =>
      refine ⟨⟨by simp [EngineWrite.apply, JobRecord.updateProgress, hd], hrise.2⟩, v, rfl,
        fun t ht => min_le_min_right d (hrise.1 t ht)⟩
    | finalSeconds =>
      have hfinal : EngineWrite.finalSeconds.apply now r = { r with transcodeMediaSeconds := some d } := by
        simp [EngineWrite.apply, hd]
      rw [hfinal]
      exact ⟨⟨hd, hrise⟩, d, rfl, fun t _ => (min_le_right t d).trans (min_self d).ge⟩

/-- **The run lemma.** Along any run of the engine thread from an `EngineRising` state, the
state stays `EngineRising` and the processed seconds, clamped at the duration, never go
down. -/
lemma EngineRising.run (hx : EngineRising d x) (hxy : ReflTransGen EngineStep x y) :
    EngineRising d y ∧ ∀ t, x.1.transcodeMediaSeconds = some t →
      ∃ v, y.1.transcodeMediaSeconds = some v ∧ min t d ≤ min v d := by
  induction hxy with
  | refl => exact ⟨hx, fun t ht => ⟨t, ht, le_rfl⟩⟩
  | tail _ hst ih =>
    obtain ⟨hz, hzt⟩ := ih
    obtain ⟨hy, v, hv, hle⟩ := hz.step hst
    refine ⟨hy, fun t ht => ?_⟩
    obtain ⟨u, hu, htu⟩ := hzt t ht
    exact ⟨v, hv, htu.trans (hle u hu)⟩

/-- Two records with the same positive duration `d`, the second with processed seconds at
least those of the first once clamped at `d`, report progress in that order. -/
lemma progress_le_of_min_le (hpos : 0 < d) {r r' : JobRecord}
    (hd : r.mediaDurationSeconds = some d) (hd' : r'.mediaDurationSeconds = some d)
    (h : ∀ t, r.transcodeMediaSeconds = some t →
      ∃ v, r'.transcodeMediaSeconds = some v ∧ min t d ≤ min v d)
    {a b : ℚ} {now now' : ℕ} (ha : (r.toDetail now).transcodeProgress = some a)
    (hb : (r'.toDetail now').transcodeProgress = some b) : a ≤ b := by
  obtain ⟨d₁, t, hd₁, ht, -, -, rfl⟩ := JobRecord.toDetail_transcodeProgress_eq_some.mp ha
  obtain ⟨d₂, v, hd₂, hv, -, -, rfl⟩ := JobRecord.toDetail_transcodeProgress_eq_some.mp hb
  obtain ⟨v', hv', hle⟩ := h t ht
  rw [hd] at hd₁
  rw [hd'] at hd₂
  rw [hv] at hv'
  cases hd₁; cases hd₂; cases hv'
  exact div_le_div_of_nonneg_right hle hpos.le

end Rising

/-- **The progress never goes back while one child reports it.** Take every job whose record
has no processed seconds yet, every probe with a positive duration, every request, ffmpeg
lists and state of `/dev/rga`, and every behaviour of the ffmpeg children in which each child
reports non-decreasing seconds. On the remux and CPU paths, which start one child whatever it
does, and on the RKMPP path when at most one child reports progress (no `/dev/rga`, or a first
candidate that exits with status 0 or reports nothing), the progress `to_detail` reports at
two moments of a run of the engine thread's writes never decreases. The record the engine starts on in a reachable state has no
processed seconds (`reachable_dequeue_record`), and each write is a step of the manager
(`Step.engineWrite`). -/
theorem processSync_progress_monotone (decoders encoders : List String) (rgaExists : Bool)
    (info : MediaInfo) (request : JobRequest) (runs : ℕ → FfmpegRun) {d : ℚ}
    (hd : info.duration = some d) (hpos : 0 < d)
    (hruns : ∀ i, (runs i).progressValues.Sorted (· ≤ ·))
    (hsingle : ∀ P T decoderName encoderName candidates,
      planTranscode decoders encoders rgaExists info request =
          .ok (P, T, .rkmpp decoderName encoderName candidates) →
        rgaExists = false ∨ (runs 0).returnCode = 0 ∨ (runs 0).progressValues = [])
    {r₀ : JobRecord} (hr₀ : r₀.transcodeMediaSeconds = none)
    {x y : JobRecord × List EngineWrite}
    (hx : ReflTransGen EngineStep
      (r₀, (processSync decoders encoders rgaExists (.ok info) request runs).1) x)
    (hxy : ReflTransGen EngineStep x y) {p q : ℚ} {now now' : ℕ}
    (hp : (x.1.toDetail now).transcodeProgress = some p)
    (hq : (y.1.toDetail now').transcodeProgress = some q) : p ≤ q := by
  have hstart : (r₀.toDetail now).transcodeProgress ≠ some p := fun h => by
    obtain ⟨_, _, _, ht, -⟩ := JobRecord.toDetail_transcodeProgress_eq_some.mp h
    rw [hr₀] at ht
    cases ht
  cases hplan : planTranscode decoders encoders rgaExists info request with
  | error e =>
    rw [show (processSync decoders encoders rgaExists (.ok info) request runs).1 = [] by
      simp [processSync, hplan]] at hx
    rcases hx.cases_head with rfl | ⟨z, hz, -⟩
    exacts [(hstart hp).elim, nomatch hz]
  | ok res =>
    obtain ⟨P, T, plan⟩ := res
    obtain ⟨tail, hws, htail⟩ := processSync_writes runs hplan
    rw [hws, hd, List.cons_append] at hx
    rcases hx.cases_head with rfl | ⟨z, hz, hzx⟩
    · exact (hstart hp).elim
    cases hz with
    | write _ _ _ now₀ =>
      have hrise : EngineRising d
          ((EngineWrite.duration (some d)).apply now₀ r₀,
            (transcodeWrites runs ((some d).getD 0) plan).1 ++ tail) := by
        refine ⟨rfl, ?_⟩
        have ht : ∀ t₀, ((EngineWrite.duration (some d)).apply now₀ r₀).transcodeMediaSeconds ≠
            some t₀ := by
          simp [EngineWrite.apply, hr₀]
        obtain ⟨i, hW | hW⟩ := transcodeWrites_single runs ((some d).getD 0)
          (planTranscode_plan hplan) (fun _ _ _ h => hsingle P T _ _ _ (h ▸ hplan)) <;> rw [hW]
        · exact rising_progress_append 0 List.sorted_nil (fun t₀ h => (ht t₀ h).elim) htail
        · exact rising_progress_append _ (hruns i) (fun t₀ h => (ht t₀ h).elim) htail
      obtain ⟨hxr, -⟩ := hrise.run hzx
      obtain ⟨hyr, hle⟩ := hxr.run hxy
      exact progress_le_of_min_le hpos hxr.duration hyr.duration hle hp hq

/-- A CPU run of a 10-second source that reports 1 s, then 2 s: the engine's writes show the
progress `1/10`, then `1/5`, as the theorem says. -/
theorem processSync_progress_monotone_cpu :
    let info : MediaInfo := ⟨some "matroska,webm", none, some 10,
      some ⟨"video", some "h264", some 1920, some 1080, none⟩, none⟩
    let runs : ℕ → FfmpegRun := fun _ => ⟨["out_time_ms=1000000\n", "out_time_ms=2000000\n"], 0⟩
    let r₀ : JobRecord := { newRecord 0 "a.mp4" {} 0 0 0 with transcodeStartedAt := some 0 }
    let x : JobRecord × List EngineWrite := ((EngineWrite.progress 1 10).apply 0
      ((EngineWrite.duration (some 10)).apply 0 r₀), [.progress 2 10, .finalSeconds])
    let y : JobRecord × List EngineWrite := ((EngineWrite.progress 2 10).apply 0 x.1, [.finalSeconds])
    ReflTransGen EngineStep (r₀, (processSync [] [] false (.ok info) {} runs).1) x ∧
      ReflTransGen EngineStep x y ∧ (x.1.toDetail 0).transcodeProgress = some (1 / 10) ∧
      (y.1.toDetail 0).transcodeProgress = some (1 / 5) ∧ (1 / 10 : ℚ) ≤ 1 / 5 := by
  intro info runs r₀ x y
  have hvals : (runs 0).progressValues = [1, 2] := by
    have h1 : progressMicroseconds "out_time_ms=1000000\n" = some 1000000 := by decide
    have h2 : progressMicroseconds "out_time_ms=2000000\n" = some 2000000 := by decide
    simp [runs, FfmpegRun.progressValues, progressSeconds, h1, h2]
    norm_num
  have hplan : planTranscode [] [] false info {} = .ok (fhd1080p, .h264, .cpu fhd1080p .h264) := rfl
  have hws : (processSync [] [] false (.ok info) {} runs).1 =
      [.duration (some 10), .progress 1 10, .progress 2 10, .finalSeconds] := by
    simp only [processSync, hplan, transcodeWrites, progressWrites, hvals]
    rfl
  have hx : ReflTransGen EngineStep (r₀, (processSync [] [] false (.ok info) {} runs).1) x := by
    rw [hws]; exact .tail (.single (.write _ _ _ 0)) (.write _ _ _ 0)
  have hp : (x.1.toDetail 0).transcodeProgress = some (1 / 10) := by
    show some (min (1 : ℚ) 10 / 10) = _
    rw [min_eq_left (by norm_num)]
  have hq : (y.1.toDetail 0).transcodeProgress = some (1 / 5) := by
    show some (min (2 : ℚ) 10 / 10) = _
    rw [min_eq_left (by norm_num)]; norm_num
  exact ⟨hx, .single (.write _ _ _ 0), hp, hq, processSync_progress_monotone [] [] false info {} runs
    rfl (by norm_num) (fun _ => by rw [hvals]; simp) (fun _ _ _ _ _ _ => .inl rfl) rfl hx (.single (.write _ _ _ 0)) hp hq⟩

/-- **A fallback sends the progress back.** A 10-second H.264 Matroska source, on a host with
`/dev/rga` whose ffmpeg lists `h264_rkmpp`, goes down the RKMPP chain. Its `rkrga` child
reports 5 s and exits with status 1; its `format` child reports 1 s and succeeds. Each child
reports non-decreasing, non-negative seconds, yet a job of the manager that makes these writes
reports progress `1/2`, then `1/10`, while it is still processing. -/
theorem rkmpp_fallback_progress_decreases :
    processSync [] ["h264_rkmpp"] true
        (.ok ⟨some "matroska,webm", none, some 10,
          some ⟨"video", some "h264", some 1920, some 1080, none⟩, none⟩) {}
        (fun i => if i = 0 then ⟨["out_time_ms=5000000\n"], 1⟩ else ⟨["out_time_ms=1000000\n"], 0⟩) =
      ([.duration (some 10), .progress 5 10, .progress 1 10, .finalSeconds], .ok ()) ∧
    ∃ s t : JobManager, Reachable {} s ∧ Step {} s t ∧
      (s.getJob 0 s.clock).bind (·.transcodeProgress) = some (1 / 2) ∧
      (t.getJob 0 t.clock).bind (·.transcodeProgress) = some (1 / 10) ∧
      (t.heap 0).map (·.status) = some .processing := by
  have h5 : progressMicroseconds "out_time_ms=5000000\n" = some 5000000 := by decide
  have h1 : progressMicroseconds "out_time_ms=1000000\n" = some 1000000 := by decide
  refine ⟨?_, _, _, .tail (.tail (.tail (.tail (.single (.submitBegin _ "a.mp4" {}))
    (.persistDone _ 0 "a.mp4" {} 0 0 rfl)) (.dequeue _ ⟨0, {}⟩ [] rfl rfl))
    (.engineDuration _ 0 (some 10) rfl)) (.engineProgress _ 0 5 10 rfl),
    .engineProgress _ 0 1 10 rfl, ?_, ?_, rfl⟩
  · have hplan : planTranscode [] ["h264_rkmpp"] true ⟨some "matroska,webm", none, some 10,
        some ⟨"video", some "h264", some 1920, some 1080, none⟩, none⟩ {} =
        .ok (fhd1080p, .h264, .rkmpp "" "h264_rkmpp" (filterCandidates true)) := rfl
    simp only [processSync, hplan, transcodeWrites, filterCandidates, if_true, List.singleton_append]
    simp [transcodeRkmppLoop, runFfmpeg, progressWrites, FfmpegRun.progressValues, progressSeconds, h5, h1]
    norm_num
  · show some (min (5 : ℚ) 10 / 10) = _
    rw [min_eq_left (by norm_num)]; norm_num
  · show some (min (1 : ℚ) 10 / 10) = _
    rw [min_eq_left (by norm_num)]

end MediaEngine
