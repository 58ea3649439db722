import MediaEngine.Api
import MediaEngine.Jobs.Progress
import MediaEngine.Transcode.FfmpegList

set_option autoImplicit false

/-!
# The service: the manager and the engine thread together

`MediaEngine.Step` lets the engine thread make any write into the record of the job it runs,
at any time, and lets `process` return to `_worker` or raise into it at any time. In the
service the engine thread runs `_process_sync`. When `_worker` starts a job, the thread's
program is the list of writes that `processSync` makes for the job's request, with the ffmpeg
lists that `TranscodeEngine.__init__` read and with whatever this run meets (`/dev/rga`, the
probe, the ffmpeg children). Each step of the thread makes the next write of its program, and
`await self.transcoder.process(...)` returns, or raises, only once the program has made all its
writes, on the branch its outcome says.

## Main definitions

* `MediaEngine.TranscodeEngine` — the decoder and encoder lists of the engine, which
  `MediaEngine.TranscodeEngine.init` reads from ffmpeg.
* `MediaEngine.JobEnv` — what one run of `_process_sync` meets.
* `MediaEngine.Service` — the manager, the writes the engine thread has still to make, and the
  outcome of its `_process_sync`.
* `MediaEngine.ServiceStep` — one step of the service.

## Main results

* `MediaEngine.ServiceStep.step` — every step of the service is a step of the manager, so the
  manager of every reachable service state is a reachable manager
  (`MediaEngine.ServiceReachable.reachable`), and every property proved of those holds of it.
* `MediaEngine.ServiceReachable.consistent` — while `_process_sync` runs towards a return, its
  final write is still to come or has set the processed seconds to the duration; and every
  completed record's processed seconds equal its duration.
* `MediaEngine.serviceReachable_completed_progress` — `GET /jobs/{job_id}` shows every completed
  job with a progress of `1`, or none, and no ETA.
* `MediaEngine.serviceReachable_progress_monotone` — while the engine thread runs a job whose
  ffmpeg children report progress one at a time, under every interleaving of the other
  parties, the progress `GET` shows never goes back. The engine thread's writes into the job's
  record are the steps `MediaEngine.EngineStep` of `Transcode.Engine`, and the other parties'
  steps keep the seconds those steps read (`MediaEngine.ProgressPhase.step`).

## Design

The steps of the other parties are the steps of the manager that keep the engine thread's job,
and that job's duration and processed seconds. Those are all the steps of `MediaEngine.Step`
but the writes of the engine thread, the `dequeue` that starts the thread and the three that
end it, except for writes that change neither value: a sound over-approximation for every
invariant below, which reads nothing else of what those writes change.
-/

namespace MediaEngine

open JobManager Relation

/-- A `TranscodeEngine`: the decoder and encoder names `__init__` reads from ffmpeg, once. -/
structure TranscodeEngine where
  ffmpegDecoders : List String
  ffmpegEncoders : List String
  deriving DecidableEq, Repr

/-- `TranscodeEngine.__init__`, from what `_query_ffmpeg_list` read of ffmpeg's standard output
for `-decoders` and `-encoders`. -/
def TranscodeEngine.init (decoders encoders : Option String) : TranscodeEngine :=
  ⟨queryFfmpegList decoders, queryFfmpegList encoders⟩

/-- What one run of `_process_sync` meets: whether `/dev/rga` exists, the outcome of `_probe`,
and the ffmpeg children it starts, in order. -/
structure JobEnv where
  rgaExists : Bool
  probe : Except String MediaInfo
  runs : ℕ → FfmpegRun

/-- `_process_sync(record, request)` run by `engine` in `env`: its writes and its outcome. -/
def TranscodeEngine.processSync (engine : TranscodeEngine) (env : JobEnv) (request : JobRequest) :
    List EngineWrite × Except String Unit :=
  MediaEngine.processSync engine.ffmpegDecoders engine.ffmpegEncoders env.rgaExists env.probe
    request env.runs

/-- The manager, the writes the engine thread has still to make, and the outcome of its
`_process_sync`. -/
structure Service where
  manager : JobManager
  pending : List EngineWrite
  outcome : Except String Unit

/-- A started, empty manager, and an engine thread that runs nothing. -/
def Service.init : Service := ⟨.init, [], .ok ()⟩

/-- The duration and the processed seconds of a record. -/
def JobRecord.seconds (r : JobRecord) : Option ℚ × Option ℚ :=
  (r.mediaDurationSeconds, r.transcodeMediaSeconds)

/-- A step of another party keeps the engine thread's job, and that job's duration and
processed seconds. -/
def EngineUntouched (s t : JobManager) : Prop :=
  t.engine = s.engine ∧
    ∀ j, s.engine = some j → (t.heap j).map JobRecord.seconds = (s.heap j).map JobRecord.seconds

/-- One step of the service, whose engine read the ffmpeg lists of `engine`. -/
inductive ServiceStep (settings : Settings) (engine : TranscodeEngine) : Service → Service → Prop
  /-- A step of another party. -/
  | party (x : Service) (t : JobManager) : Step settings x.manager t →
      EngineUntouched x.manager t → ServiceStep settings engine x { x with manager := t }
  /-- `_worker` takes a job that is not cancelled, and the engine thread starts
  `_process_sync` for it in `env`. -/
  | start (x : Service) (item : WorkItem) (rest : List WorkItem) (r : JobRecord) (env : JobEnv) :
      x.manager.worker = .idle → x.manager.queue = item :: rest →
      x.manager.heap item.record = some r → r.status ≠ .cancelled →
      ServiceStep settings engine x ⟨dequeue x.manager item rest,
        (engine.processSync env item.request).1, (engine.processSync env item.request).2⟩
  /-- The engine thread makes its next write. -/
  | write (x : Service) (j : ℕ) (w : EngineWrite) (ws : List EngineWrite) :
      x.manager.engine = some j → x.pending = w :: ws →
      ServiceStep settings engine x
        ⟨x.manager.modifyRecord j (w.apply x.manager.clock), ws, x.outcome⟩
  /-- `process` returns to `_worker`. -/
  | transcodeOk (x : Service) (item : WorkItem) : x.manager.worker = .transcoding item →
      x.pending = [] → x.outcome = .ok () →
      ServiceStep settings engine x { x with manager := transcodeOk x.manager item }
  /-- `process` raises `message` into `_worker`. -/
  | transcodeFail (x : Service) (item : WorkItem) (message : String) :
      x.manager.worker = .transcoding item → x.pending = [] → x.outcome = .error message →
      ServiceStep settings engine x { x with manager := transcodeFail x.manager item message }
  /-- The engine thread of a cancelled worker returns; it moved the output into place when
  `_process_sync` succeeded. -/
  | engineExit (x : Service) (j : ℕ) : x.manager.engine = some j →
      x.manager.worker = .stopped → x.pending = [] →
      ServiceStep settings engine x { x with manager := { x.manager with
        engine := none
        files := if x.outcome.isOk then Function.update x.manager.files (.output j) true
          else x.manager.files } }

/-- The states of every run of the service from its start. -/
def ServiceReachable (settings : Settings) (engine : TranscodeEngine) (x : Service) : Prop :=
  ReflTransGen (ServiceStep settings engine) Service.init x

variable {settings : Settings} {engine : TranscodeEngine} {s : JobManager} {x y : Service}

/-! ## The service refines the manager -/

/-- **The service refines the manager.** Every step of the service is a step of the manager:
the engine thread's writes are its `engineDuration`, `engineProgress` and `engineFinalSeconds`
steps, and the end of `process` is its `transcodeOk`, `transcodeFail` or `engineExit` step. -/
theorem ServiceStep.step (h : ServiceStep settings engine x y) :
    Step settings x.manager y.manager := by
  cases h with
  | party t hst _ => exact hst
  | start item rest _ _ hw hq _ _ => exact .dequeue _ item rest hw hq
  | write j w _ he _ => exact Step.engineWrite settings he w
  | transcodeOk item hw _ _ => exact .transcodeOk _ item hw
  | transcodeFail item message hw _ _ => exact .transcodeFail _ item message hw
  | engineExit j he hw _ => exact .engineExit _ j _ he hw

lemma ServiceReachable.reachable (hx : ServiceReachable settings engine x) :
    Reachable settings x.manager := by
  induction hx with
  | refl => exact .refl
  | tail _ hst ih => exact ih.tail hst.step

/-! ## What the manager's steps do to the engine thread's job -/

lemma modifyRecord_heap (j : ℕ) (f : JobRecord → JobRecord) (k : ℕ) :
    (s.modifyRecord j f).heap k = if k = j then (s.heap k).map f else s.heap k := by
  unfold JobManager.modifyRecord
  split
  · next r hr =>
    split_ifs with hk
    · rw [hk, hr, s.setRecord_heap_self]; rfl
    · exact s.setRecord_heap_of_ne _ hk
  · next hr => split_ifs with hk <;> simp [hk, hr]

@[simp]
lemma modifyRecord_engine (j : ℕ) (f : JobRecord → JobRecord) :
    (s.modifyRecord j f).engine = s.engine := by
  unfold JobManager.modifyRecord; split <;> rfl

@[simp]
lemma transcodeOk_engine (item : WorkItem) : (transcodeOk s item).engine = none := by
  unfold transcodeOk; split
  · unfold fireCallback; split <;> rfl
  · rfl

@[simp]
lemma transcodeFail_engine (item : WorkItem) (message : String) :
    (transcodeFail s item message).engine = none := by
  unfold transcodeFail; split
  · unfold fireCallback; split <;> rfl
  · rfl

/-- The end of a transcode writes only the record of the job it ran. -/
lemma transcodeOk_heap (item : WorkItem) (j : ℕ) :
    (transcodeOk s item).heap j = s.heap j ∨
      ∃ r, j = item.record ∧ s.heap j = some r ∧
        (transcodeOk s item).heap j = some (r.complete j s.clock) := by
  unfold transcodeOk
  split
  · next r hr =>
    rw [fireCallback_heap]
    rcases eq_or_ne j item.record with rfl | hj
    · exact .inr ⟨r, rfl, hr, s.setRecord_heap_self _ _⟩
    · exact .inl (s.setRecord_heap_of_ne _ hj)
  · exact .inl rfl

lemma transcodeFail_heap (item : WorkItem) (message : String) (j : ℕ) :
    (transcodeFail s item message).heap j = s.heap j ∨
      ∃ r : JobRecord, (transcodeFail s item message).heap j = some (r.fail message s.clock) := by
  unfold transcodeFail
  split
  · rw [fireCallback_heap]
    rcases eq_or_ne j item.record with rfl | hj
    · exact .inr ⟨_, s.setRecord_heap_self _ _⟩
    · exact .inl (s.setRecord_heap_of_ne _ hj)
  · exact .inl rfl

/-- A step completes a record only by ending the engine thread that ran its job. -/
lemma Step.completed_heap {t : JobManager} (h : s.Invariant) (hst : Step settings s t) {j : ℕ}
    {r : JobRecord} (hr : t.heap j = some r) (hc : r.status = .completed) :
    s.heap j = some r ∨ (s.engine = some j ∧ t.engine = none) := by
  cases hst.recordChange h j with
  | same h' => exact .inl (h' ▸ hr)
  | created _ _ _ _ _ h' => rw [h'] at hr; cases hr; cases hc
  | written _ _ _ h' _ hfile => rw [h'] at hr; cases hr; exact .inr ⟨(hfile hc).1, (hfile hc).2.1⟩

/-! ## What the engine thread has still to do -/

/-- The processed seconds of a record equal its duration, when that is known: what the final
write of `_process_sync` leaves. -/
def JobRecord.SecondsFinal (r : JobRecord) : Prop :=
  r.mediaDurationSeconds ≠ none → r.transcodeMediaSeconds = r.mediaDurationSeconds

/-- When `_process_sync` is to return, its final write is still to come, or it has made all its
writes and the record's seconds are final. -/
def FinalPending (ws : List EngineWrite) (outcome : Except String Unit) (r : JobRecord) : Prop :=
  outcome = .ok () → (∃ ws₀, ws = ws₀ ++ [.finalSeconds]) ∨ (ws = [] ∧ r.SecondsFinal)

lemma JobRecord.SecondsFinal.congr {r r' : JobRecord} (h : r.SecondsFinal)
    (hs : r'.seconds = r.seconds) : r'.SecondsFinal := by
  simp only [JobRecord.seconds, Prod.mk.injEq] at hs
  unfold JobRecord.SecondsFinal
  rw [hs.1, hs.2]
  exact h

lemma EngineWrite.finalSeconds_secondsFinal (c : ℕ) (r : JobRecord) :
    (EngineWrite.finalSeconds.apply c r).SecondsFinal := by
  dsimp only [EngineWrite.apply]
  split_ifs with hmd
  · exact fun _ => rfl
  · exact fun h => (h (not_not.mp hmd)).elim

namespace FinalPending

variable {ws : List EngineWrite} {outcome : Except String Unit} {r : JobRecord}

lemma congr (h : FinalPending ws outcome r) {r' : JobRecord} (hs : r'.seconds = r.seconds) :
    FinalPending ws outcome r' :=
  fun ho => (h ho).imp_right fun ⟨hws, hr⟩ => ⟨hws, hr.congr hs⟩

/-- The program of a fresh `_process_sync`. -/
lemma processSync (env : JobEnv) (request : JobRequest) :
    FinalPending (engine.processSync env request).1 (engine.processSync env request).2 r :=
  fun ho => .inl (processSync_ok ho)

/-- The next write keeps the promise: it is the final write, or the final write is still to
come after it. -/
lemma write {w : EngineWrite} (h : FinalPending (w :: ws) outcome r) (c : ℕ) :
    FinalPending ws outcome (w.apply c r) := by
  intro ho
  rcases h ho with ⟨ws₀, hws⟩ | ⟨hws, -⟩
  · cases ws₀ with
    | nil => cases hws; exact .inr ⟨rfl, EngineWrite.finalSeconds_secondsFinal c r⟩
    | cons w' ws₁ => cases hws; exact .inl ⟨ws₁, rfl⟩
  · cases hws

lemma done (h : FinalPending [] (.ok ()) r) : r.SecondsFinal :=
  (h rfl).elim (fun ⟨_, hws⟩ => absurd hws.symm (List.append_ne_nil_of_right_ne_nil _ nofun))
    And.right

end FinalPending

/-! ## The invariant of the service -/

/-- The engine thread's program ends with its final write, and a completed record has final
seconds. -/
structure Service.Consistent (x : Service) : Prop where
  engine : ∀ j r, x.manager.engine = some j → x.manager.heap j = some r →
    FinalPending x.pending x.outcome r
  completed : ∀ j r, x.manager.heap j = some r → r.status = .completed → r.SecondsFinal

lemma Service.Consistent.init : Service.init.Consistent :=
  ⟨fun _ _ h => (nomatch h), fun _ _ h => (nomatch h)⟩

lemma Service.Consistent.step (hx : x.Consistent) (h : x.manager.Invariant)
    (hst : ServiceStep settings engine x y) : y.Consistent := by
  have hstep := hst.step
  cases hst with
  | party t _ hu =>
    refine ⟨fun j r he hr => ?_, fun j r hr hc => ?_⟩
    · have hseconds := hu.2 j (hu.1 ▸ he)
      rw [hr] at hseconds
      obtain ⟨r₀, hr₀, hs₀⟩ := Option.map_eq_some'.mp hseconds.symm
      exact (hx.engine j r₀ (hu.1 ▸ he) hr₀).congr hs₀.symm
    · rcases hstep.completed_heap h hr hc with hr' | ⟨he, he'⟩
      · exact hx.completed j r hr' hc
      · rw [hu.1, he] at he'; cases he'
  | start item rest r₀ env hw hq hr₀ hnc =>
    refine ⟨fun _ _ _ _ => FinalPending.processSync env item.request, fun j r hr hc => ?_⟩
    rcases hstep.completed_heap h hr hc with hr' | ⟨-, he'⟩
    · exact hx.completed j r hr' hc
    · simp [dequeue, hr₀, hnc] at he'
  | write j₀ w ws he hws =>
    refine ⟨fun j r he' hr => ?_, fun j r hr hc => ?_⟩
    · rw [modifyRecord_engine, he] at he'
      cases he'
      rw [modifyRecord_heap, if_pos rfl] at hr
      obtain ⟨r₀, hr₀, rfl⟩ := Option.map_eq_some'.mp hr
      exact (hws ▸ hx.engine _ r₀ he hr₀).write _
    · rcases hstep.completed_heap h hr hc with hr' | ⟨he', he''⟩
      · exact hx.completed j r hr' hc
      · rw [modifyRecord_engine, he] at he''; cases he''
  | transcodeOk item hw hp ho =>
    refine ⟨fun j r he _ => by simp at he, fun j r hr hc => ?_⟩
    rcases transcodeOk_heap item j with hr' | ⟨r₀, rfl, hr₀, hr'⟩
    · exact hx.completed j r (hr'.symm.trans hr) hc
    · rw [hr] at hr'; cases hr'
      exact (FinalPending.done (hp ▸ ho ▸ hx.engine _ r₀ (h.transcoding item hw).1 hr₀)).congr rfl
  | transcodeFail item message hw hp ho =>
    refine ⟨fun j r he _ => by simp at he, fun j r hr hc => ?_⟩
    rcases transcodeFail_heap item message j with hr' | ⟨r₀, hr'⟩
    · exact hx.completed j r (hr'.symm.trans hr) hc
    · rw [hr] at hr'; cases hr'; cases hc
  | engineExit j₀ he hw hp =>
    exact ⟨fun j r he' _ => (nomatch he'), hx.completed⟩

lemma ServiceReachable.consistent (hx : ServiceReachable settings engine x) : x.Consistent := by
  induction hx with
  | refl => exact .init
  | tail hxy hst ih => exact ih.step (Invariant.reachable (ServiceReachable.reachable hxy)) hst

/-! ## What `GET /jobs/{job_id}` shows of a completed job -/

/-- The progress and ETA of `to_detail` for a finished transcode whose seconds are final: a
progress of `1` exactly when the duration is known and not zero, and no ETA. -/
lemma JobRecord.progressEta_of_final {r : JobRecord} (hr : r.SecondsFinal)
    (hstart : r.transcodeStartedAt.isSome) (hfin : r.transcodeFinishedAt.isSome) (now : ℕ) :
    ((r.progressEta now).1 = some 1 ↔ ∃ d, r.mediaDurationSeconds = some d ∧ d ≠ 0) ∧
      ((r.progressEta now).1 = none ∨ (r.progressEta now).1 = some 1) ∧
      (r.progressEta now).2 = none := by
  obtain ⟨started, hst⟩ := Option.isSome_iff_exists.mp hstart
  cases hmd : r.mediaDurationSeconds with
  | none => simp [JobRecord.progressEta, hmd]
  | some d =>
    have htms : r.transcodeMediaSeconds = some d := by rw [hr (by simp [hmd]), hmd]
    have hf : r.transcodeFinishedAt ≠ none := Option.isSome_iff_ne_none.mp hfin
    by_cases hd : d = 0
    · simp [JobRecord.progressEta, hmd, htms, hst, hd]
    · simp [JobRecord.progressEta, hmd, htms, hst, hd, hf, div_self hd]

/-- **A completed job shows its whole media processed.** In every reachable state of the
service, for every job and every time: when `GET /jobs/{job_id}` shows the job completed, it
shows a progress of `1` when the source's duration is known and not zero, and none otherwise,
and no ETA. -/
theorem serviceReachable_completed_progress (hx : ServiceReachable settings engine x)
    {j now : ℕ} {job : JobDetail} (hjob : getJobRoute x.manager j now = .ok job)
    (hc : job.status = .completed) :
    (job.transcodeProgress = some 1 ↔ ∃ d, job.mediaDurationSeconds = some d ∧ d ≠ 0) ∧
      (job.transcodeProgress = none ∨ job.transcodeProgress = some 1) ∧
      job.transcodeEtaSeconds = none := by
  have hg : x.manager.getJob j now = some job := by
    unfold getJobRoute at hjob
    split at hjob
    · next hg => cases hjob; exact hg
    · cases hjob
  obtain ⟨-, r, hr, rfl⟩ := getJob_eq_some.mp hg
  have hfin := ((Invariant.reachable hx.reachable).wellFormed j r hr).finished (.inl hc)
  exact JobRecord.progressEta_of_final (hx.consistent.completed j r hr hc) hfin.1 hfin.2 now

/-- A 10-second H.264 MP4 source is remuxed: `GET` then shows the completed job with a
progress of `1`. -/
theorem serviceReachable_completed_progress_remux :
    let x₂ : JobManager := persistDone {} (submitBegin .init "a.mp4" {}) 0 "a.mp4" {} 0 0
    let x₄ : JobManager := ((dequeue x₂ ⟨0, {}⟩ []).modifyRecord 0
      ((EngineWrite.duration (some 10)).apply 0)).modifyRecord 0 (EngineWrite.finalSeconds.apply 0)
    let x : Service := ⟨transcodeOk x₄ ⟨0, {}⟩, [], .ok ()⟩
    ServiceReachable {} ⟨[], []⟩ x ∧ ∃ job, getJobRoute x.manager 0 0 = .ok job ∧
      job.status = .completed ∧ job.mediaDurationSeconds = some 10 ∧ job.transcodeProgress = some 1 := by
  intro x₂ x₄ x
  let info : MediaInfo := ⟨some "mov,mp4,m4a,3gp,3g2,mj2", none, some 10,
    some ⟨"video", some "h264", some 1920, some 1080, none⟩, none⟩
  have hx : ServiceReachable {} ⟨[], []⟩ x :=
    .tail (.tail (.tail (.tail (.tail (.single
      (.party _ _ (.submitBegin _ "a.mp4" {}) ⟨rfl, fun _ h => (nomatch h)⟩))
      (.party _ _ (.persistDone _ 0 "a.mp4" {} 0 0 rfl) ⟨rfl, fun _ h => (nomatch h)⟩))
      (.start _ ⟨0, {}⟩ [] _ ⟨false, .ok info, fun _ => ⟨[], 0⟩⟩ rfl rfl rfl (by decide)))
      (.write _ 0 (.duration (some 10)) [.finalSeconds] rfl rfl))
      (.write _ 0 .finalSeconds [] rfl rfl))
      (.transcodeOk _ ⟨0, {}⟩ rfl rfl rfl)
  exact ⟨hx, _, rfl, rfl, rfl,
    (serviceReachable_completed_progress hx (show getJobRoute x.manager 0 0 = _ from rfl) rfl).1.mpr ⟨10, rfl, by norm_num⟩⟩

/-! ## The progress of a running job -/

/-- The engine thread runs only while the worker transcodes, or after `stop()`. -/
def JobManager.EngineHeld (s : JobManager) : Prop :=
  ∀ j, s.engine = some j → (∃ item, s.worker = .transcoding item) ∨ s.worker = .stopped

lemma JobManager.EngineHeld.step {t : JobManager} (h : s.EngineHeld) (hst : Step settings s t) :
    t.EngineHeld := by
  cases hst with
  | persistDone =>
    unfold MediaEngine.persistDone JobManager.put; split <;> exact h
  | dequeue item rest =>
    unfold MediaEngine.dequeue; split
    · split_ifs
      · exact h
      · exact fun _ _ => .inl ⟨item, rfl⟩
    · exact h
  | engineDuration | engineProgress | engineFinalSeconds =>
    unfold JobManager.modifyRecord; split <;> exact h
  | transcodeOk | transcodeFail => intro j hj; simp at hj
  | callbackDone item hw =>
    intro j hj
    rcases h j hj with ⟨_, hw'⟩ | hw' <;> rw [hw] at hw' <;> cases hw'
  | engineExit => intro j hj; cases hj
  | cancel j => unfold cancelJob; (repeat' split) <;> exact h
  | purge unlink =>
    obtain ⟨popped, files, heq⟩ := purgeExpiredJobs_eq unlink settings s
    simpa only [JobManager.EngineHeld, heq] using h
  | stop => exact fun _ _ => .inr rfl
  | _ => exact h

lemma reachable_engineHeld (hs : Reachable settings s) : s.EngineHeld := by
  induction hs with
  | refl => exact fun _ h => (nomatch h)
  | tail _ hst ih => exact ih.step hst

/-- A step of the service after which the engine thread runs `j`. -/
def RunsJob (settings : Settings) (engine : TranscodeEngine) (j : ℕ) (x y : Service) : Prop :=
  ServiceStep settings engine x y ∧ y.manager.engine = some j

/-- While the engine thread runs `j`, a step makes the next write of its program into the
record of `j`, or keeps the program and the record's duration and processed seconds. -/
lemma RunsJob.record (hx : ServiceReachable settings engine x) {j : ℕ}
    (he : x.manager.engine = some j) (hst : RunsJob settings engine j x y) :
    ∃ r r', x.manager.heap j = some r ∧ y.manager.heap j = some r' ∧
      ((∃ w, x.pending = w :: y.pending ∧ r' = w.apply x.manager.clock r) ∨
        (y.pending = x.pending ∧ r'.seconds = r.seconds)) := by
  obtain ⟨hst, he'⟩ := hst
  obtain ⟨r, hr, -⟩ := (Invariant.reachable hx.reachable).engine_running j he
  cases hst with
  | party t _ hu =>
    have hs := hu.2 j he
    simp only [hr, Option.map_some'] at hs
    obtain ⟨r', hr', hs'⟩ := Option.map_eq_some'.mp hs
    exact ⟨r, r', hr, hr', .inr ⟨rfl, hs'⟩⟩
  | start item rest _ _ hw =>
    rcases reachable_engineHeld hx.reachable j he with ⟨_, hw'⟩ | hw' <;> rw [hw] at hw' <;>
      cases hw'
  | write j' w ws he'' hp =>
    rw [he''] at he; cases he
    refine ⟨r, w.apply x.manager.clock r, hr, ?_, .inl ⟨w, hp, rfl⟩⟩
    rw [modifyRecord_heap, if_pos rfl, hr]; rfl
  | transcodeOk | transcodeFail | engineExit => simp at he'

/-- Where the engine thread's program stands for a job whose source lasts `d`: no write made
yet, with a program that is empty or a duration write followed by rising writes; or the
duration written, and the rest rising. -/
def ProgressPhase (d : ℚ) (r : JobRecord) (ws : List EngineWrite) : Prop :=
  (r.transcodeMediaSeconds = none ∧
    (ws = [] ∨ ∃ ws', ws = .duration (some d) :: ws' ∧ Rising d none ws')) ∨
  EngineRising d (r, ws)

/-- **The step lemma.** The next write of the program, or a step that keeps the seconds and
the program, keeps the phase and never lowers the processed seconds clamped at `d`. -/
lemma ProgressPhase.step {d : ℚ} {r r' : JobRecord} {ws ws' : List EngineWrite}
    (h : ProgressPhase d r ws) {c : ℕ}
    (hstep : (∃ w, ws = w :: ws' ∧ r' = w.apply c r) ∨ (ws' = ws ∧ r'.seconds = r.seconds)) :
    ProgressPhase d r' ws' ∧ ∀ t, r.transcodeMediaSeconds = some t →
      ∃ v, r'.transcodeMediaSeconds = some v ∧ min t d ≤ min v d := by
  have hsame : ∀ t, r.transcodeMediaSeconds = some t → r'.seconds = r.seconds →
      ∃ v, r'.transcodeMediaSeconds = some v ∧ min t d ≤ min v d := fun t ht hs =>
    ⟨t, (congrArg Prod.snd hs).trans ht, le_rfl⟩
  rcases h with ⟨htms, hws⟩ | hrise
  · refine ⟨?_, fun t ht => by rw [htms] at ht; cases ht⟩
    rcases hstep with ⟨w, rfl, rfl⟩ | ⟨rfl, hs⟩
    · rcases hws with hws | ⟨ws'', hws, hrise⟩ <;> cases hws
      exact .inr ⟨rfl, by simpa only [EngineWrite.apply, htms] using hrise⟩
    · exact .inl ⟨(congrArg Prod.snd hs).trans htms, hws⟩
  · rcases hstep with ⟨w, rfl, rfl⟩ | ⟨rfl, hs⟩
    · obtain ⟨hy, v, hv, hle⟩ := hrise.step (.write r w ws' c)
      exact ⟨.inr hy, fun t ht => ⟨v, hv, hle t ht⟩⟩
    · refine ⟨.inr ⟨(congrArg Prod.fst hs).trans hrise.duration, ?_⟩, fun t ht => hsame t ht hs⟩
      rw [show r'.transcodeMediaSeconds = r.transcodeMediaSeconds from congrArg Prod.snd hs]
      exact hrise.rising

/-- **The run lemma.** Along a run during which the engine thread runs `j`, the phase holds
and the processed seconds of `j`, clamped at `d`, never go down. -/
lemma ProgressPhase.run {d : ℚ} (hx : ServiceReachable settings engine x) {j : ℕ}
    (he : x.manager.engine = some j) {r : JobRecord} (hr : x.manager.heap j = some r)
    (h : ProgressPhase d r x.pending) (hxy : ReflTransGen (RunsJob settings engine j) x y) :
    y.manager.engine = some j ∧ ∃ r', y.manager.heap j = some r' ∧ ProgressPhase d r' y.pending ∧
      ∀ t, r.transcodeMediaSeconds = some t →
        ∃ v, r'.transcodeMediaSeconds = some v ∧ min t d ≤ min v d := by
  induction hxy with
  | refl => exact ⟨he, r, hr, h, fun t ht => ⟨t, ht, le_rfl⟩⟩
  | tail hxz hzy ih =>
    obtain ⟨hez, rz, hrz, hz, hle⟩ := ih
    have hzr : ServiceReachable settings engine _ := hx.trans (hxz.mono fun _ _ h => h.1)
    obtain ⟨rz', ry, hrz', hry, hstep⟩ := hzy.record hzr hez
    rw [hrz] at hrz'; cases hrz'
    obtain ⟨hy, hle'⟩ := hz.step hstep
    refine ⟨hzy.2, ry, hry, hy, fun t ht => ?_⟩
    obtain ⟨v, hv, htv⟩ := hle t ht
    obtain ⟨v', hv', hvv⟩ := hle' v hv
    exact ⟨v', hv', htv.trans hvv⟩

/-- The program of `_process_sync` for a probe with duration `d`, when each ffmpeg child
reports sorted seconds and, on the RKMPP path, at most one reports progress: no write, or the
duration then rising writes. -/
lemma processSync_rising {decoders encoders : List String} {rgaExists : Bool} {info : MediaInfo}
    {request : JobRequest} {runs : ℕ → FfmpegRun} {d : ℚ} (hd : info.duration = some d)
    (hruns : ∀ i, (runs i).progressValues.Sorted (· ≤ ·))
    (hsingle : ∀ P T decoderName encoderName candidates,
      planTranscode decoders encoders rgaExists info request =
          .ok (P, T, .rkmpp decoderName encoderName candidates) →
        rgaExists = false ∨ (runs 0).returnCode = 0 ∨ (runs 0).progressValues = []) :
    (processSync decoders encoders rgaExists (.ok info) request runs).1 = [] ∨
      ∃ ws, (processSync decoders encoders rgaExists (.ok info) request runs).1 =
        .duration (some d) :: ws ∧ Rising d none ws := by
  cases hplan : planTranscode decoders encoders rgaExists info request with
  | error e => exact .inl (by simp [processSync, hplan])
  | ok res =>
    obtain ⟨P, T, plan⟩ := res
    obtain ⟨tail, hws, htail⟩ := processSync_writes runs hplan
    rw [hd] at hws
    refine .inr ⟨_, hws.trans (List.cons_append _ _ _), ?_⟩
    obtain ⟨i, hW | hW⟩ := transcodeWrites_single runs ((some d).getD 0)
      (planTranscode_plan hplan) (fun _ _ _ h => hsingle P T _ _ _ (h ▸ hplan)) <;> rw [hW]
    · exact rising_progress_append 0 List.sorted_nil (fun _ h => by cases h) htail
    · exact rising_progress_append _ (hruns i) (fun _ h => by cases h) htail

lemma progress_of_getJob {s : JobManager} {j now : ℕ} {p : ℚ}
    (hp : (s.getJob j now).bind (·.transcodeProgress) = some p) :
    ∃ r, s.heap j = some r ∧ (r.toDetail now).transcodeProgress = some p := by
  obtain ⟨job, hjob, hp⟩ := Option.bind_eq_some.mp hp
  obtain ⟨-, r, hr, rfl⟩ := getJob_eq_some.mp hjob
  exact ⟨r, hr, hp⟩

/-- **The progress of a transcode never goes back, under every interleaving.** In every
reachable state of the service in which the worker starts a job, for every environment of the
engine thread whose probe gives a positive duration, in which each ffmpeg child reports
non-decreasing seconds and, on the RKMPP path, at most one child reports progress (the remux
and CPU paths start one child whatever it does): along every run while the engine thread runs the job, whatever
the other parties do (submissions, cancellations, purges, time passing, `stop()`), the progress
`GET /jobs/{job_id}` shows at a later state is at least the one it shows at an earlier state. -/
theorem serviceReachable_progress_monotone (hx : ServiceReachable settings engine x)
    {item : WorkItem} {rest : List WorkItem} {r : JobRecord} (hw : x.manager.worker = .idle)
    (hq : x.manager.queue = item :: rest) (hr : x.manager.heap item.record = some r)
    (hc : r.status ≠ .cancelled) {env : JobEnv} {info : MediaInfo} {d : ℚ}
    (hprobe : env.probe = .ok info) (hd : info.duration = some d) (hpos : 0 < d)
    (hruns : ∀ i, (env.runs i).progressValues.Sorted (· ≤ ·))
    (hsingle : ∀ P T decoderName encoderName candidates,
      planTranscode engine.ffmpegDecoders engine.ffmpegEncoders env.rgaExists info item.request =
          .ok (P, T, .rkmpp decoderName encoderName candidates) →
        env.rgaExists = false ∨ (env.runs 0).returnCode = 0 ∨ (env.runs 0).progressValues = [])
    {u v : Service}
    (hu : ReflTransGen (RunsJob settings engine item.record) ⟨dequeue x.manager item rest,
      (engine.processSync env item.request).1, (engine.processSync env item.request).2⟩ u)
    (hv : ReflTransGen (RunsJob settings engine item.record) u v) {now now' : ℕ} {p q : ℚ}
    (hp : (u.manager.getJob item.record now).bind (·.transcodeProgress) = some p)
    (hq' : (v.manager.getJob item.record now').bind (·.transcodeProgress) = some q) :
    p ≤ q := by
  have hy : ServiceReachable settings engine _ := hx.tail (.start x item rest r env hw hq hr hc)
  obtain ⟨he, r₀, hr₀, -, -, htms⟩ := reachable_dequeue_record hx.reachable hq hr hc
  have hphase : ProgressPhase d r₀ (engine.processSync env item.request).1 := by
    unfold TranscodeEngine.processSync
    rw [hprobe]
    exact .inl ⟨htms, processSync_rising hd hruns hsingle⟩
  obtain ⟨heu, ru, hru, hu', -⟩ := hphase.run hy he hr₀ hu
  obtain ⟨-, rv, hrv, hv', hle⟩ := hu'.run (hy.trans (hu.mono fun _ _ h => h.1)) heu hru hv
  obtain ⟨ru', hru', hpu⟩ := progress_of_getJob hp
  obtain ⟨rv', hrv', hpv⟩ := progress_of_getJob hq'
  rw [hru] at hru'; cases hru'
  rw [hrv] at hrv'; cases hrv'
  have hrising : ∀ {r : JobRecord} {ws : List EngineWrite} {p : ℚ} {now : ℕ},
      ProgressPhase d r ws → (r.toDetail now).transcodeProgress = some p → EngineRising d (r, ws) :=
    fun hph hp => hph.resolve_left fun ⟨htms, _⟩ => by
      obtain ⟨_, _, _, ht, -⟩ := JobRecord.toDetail_transcodeProgress_eq_some.mp hp
      rw [htms] at ht; cases ht
  exact progress_le_of_min_le hpos (hrising hu' hpu).duration (hrising hv' hpv).duration hle hpu hpv

/-- A 10-second H.264 Matroska source is transcoded on the CPU by a child that reports 1 s:
`GET` shows the progress `1/10` after the child's report and `1` after the final write. -/
theorem serviceReachable_progress_monotone_cpu :
    let x : Service := ⟨persistDone {} (submitBegin .init "a.mp4" {}) 0 "a.mp4" {} 0 0, [], .ok ()⟩
    let env : JobEnv := ⟨false, .ok ⟨some "matroska,webm", none, some 10,
      some ⟨"video", some "h264", some 1920, some 1080, none⟩, none⟩,
      fun _ => ⟨["out_time_ms=1000000\n"], 0⟩⟩
    let y : Service := ⟨dequeue x.manager ⟨0, {}⟩ [],
      (TranscodeEngine.processSync ⟨[], []⟩ env {}).1, (TranscodeEngine.processSync ⟨[], []⟩ env {}).2⟩
    ∃ u v : Service, ServiceReachable {} ⟨[], []⟩ x ∧
      ReflTransGen (RunsJob {} ⟨[], []⟩ 0) y u ∧ ReflTransGen (RunsJob {} ⟨[], []⟩ 0) u v ∧
      (u.manager.getJob 0 0).bind (·.transcodeProgress) = some (1 / 10) ∧
      (v.manager.getJob 0 0).bind (·.transcodeProgress) = some 1 ∧ (1 / 10 : ℚ) ≤ 1 := by
  intro x env y
  have hx : ServiceReachable {} ⟨[], []⟩ x := .tail (.single
    (.party _ _ (.submitBegin _ "a.mp4" {}) ⟨rfl, fun _ h => (nomatch h)⟩))
    (.party _ _ (.persistDone _ 0 "a.mp4" {} 0 0 rfl) ⟨rfl, fun _ h => (nomatch h)⟩)
  have h1 : progressMicroseconds "out_time_ms=1000000\n" = some 1000000 := by decide
  have hws : y.pending = [.duration (some 10), .progress 1 10, .finalSeconds] := by
    have hplan : planTranscode [] [] false ⟨some "matroska,webm", none, some 10,
        some ⟨"video", some "h264", some 1920, some 1080, none⟩, none⟩ {} =
        .ok (fhd1080p, .h264, .cpu fhd1080p .h264) := rfl
    simp only [y, env, TranscodeEngine.processSync, processSync, hplan, transcodeWrites,
      progressWrites, FfmpegRun.progressValues, List.filterMap_cons, List.filterMap_nil,
      progressSeconds, h1, runFfmpeg]
    norm_num
  let u : Service := ⟨((y.manager.modifyRecord 0 ((EngineWrite.duration (some 10)).apply 0)).modifyRecord
    0 ((EngineWrite.progress 1 10).apply 0)), [.finalSeconds], y.outcome⟩
  let v : Service := ⟨u.manager.modifyRecord 0 (EngineWrite.finalSeconds.apply 0), [], y.outcome⟩
  have hu : ReflTransGen (RunsJob {} ⟨[], []⟩ 0) y u :=
    .tail (.single ⟨.write y 0 (.duration (some 10)) _ rfl hws, rfl⟩)
      ⟨.write _ 0 (.progress 1 10) [.finalSeconds] rfl rfl, rfl⟩
  have hv : ReflTransGen (RunsJob {} ⟨[], []⟩ 0) u v := .single ⟨.write _ 0 .finalSeconds [] rfl rfl, rfl⟩
  have hp : (u.manager.getJob 0 0).bind (·.transcodeProgress) = some (1 / 10) := by
    show some (min (1 : ℚ) 10 / 10) = _
    rw [min_eq_left (by norm_num)]
  have hq : (v.manager.getJob 0 0).bind (·.transcodeProgress) = some 1 := by
    show some (min (10 : ℚ) 10 / 10) = _
    norm_num
  have hruns : ∀ i, (env.runs i).progressValues.Sorted (· ≤ ·) := fun _ => by
    simp [env, FfmpegRun.progressValues, progressSeconds, h1]
  exact ⟨u, v, hx, hu, hv, hp, hq, serviceReachable_progress_monotone hx rfl
    (show x.manager.queue = [⟨0, {}⟩] from rfl) (show x.manager.heap 0 = some _ from rfl)
    (by decide) rfl rfl (by norm_num) hruns (fun _ _ _ _ _ _ => .inl rfl) hu hv hp hq⟩

end MediaEngine
