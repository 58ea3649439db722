import MediaEngine.Transcode.Decision

set_option autoImplicit false

/-!
# The ffmpeg commands of the transcode engine

The three ways `_process_sync` writes an output (`_remux`, `_transcode_rkmpp`,
`_transcode_cpu`), the argument lists they pass to ffmpeg, and what each command does to the
video stream.

## Main definitions

* `MediaEngine.VideoFilter`, `MediaEngine.VideoPipeline` — the `-vf` chains and the video
  codec argument of the commands, rendered to the source's strings by `render`.
* `MediaEngine.remuxArgs`, `MediaEngine.transcodeCpuArgs`, `MediaEngine.transcodeRkmppArgs`
  — the argument lists of `_remux`, `_transcode_cpu` and one candidate of `_transcode_rkmpp`.
* `MediaEngine.planTranscode` — the strategy `_process_sync` picks for a probed source.
* `MediaEngine.VideoPipeline.output` — the codec and frame size an ffmpeg run writes.

## Main results

* `MediaEngine.planTranscode_output` — every strategy encodes to the resolved codec; the CPU
  path writes the profile's frame size, the remux path keeps the source size (which fits in
  the profile), and the RKMPP path pads the source size up to multiples of 16.
* `MediaEngine.planTranscode_frame_ne_profile` — so the frame size is not always the
  profile's.

## Implementation notes

ffmpeg is an external tool; `VideoPipeline.output` states only what the filters the code
writes do to the frame size. `scale=...:force_original_aspect_ratio=decrease` scales to
`min(av_rescale(H, iw, ih), W) × min(av_rescale(W, ih, iw), H)`, `pad=w=W:h=H` needs an input
no larger than `W × H` and writes exactly `W × H`, `pad=ceil(iw/16)*16:ceil(ih/16)*16` rounds
both sides up to a multiple of 16, and `format=nv12`, `rkrga=fmt=nv12` keep the size. A stream
copy keeps the source's codec and size; an encoder writes its own codec.
-/

namespace MediaEngine

/-- The filters the engine writes into `-vf`. -/
inductive VideoFilter
  | scaleDecrease (w h : ℤ)
  | padCenter (w h : ℤ)
  | padAlign16
  | formatNv12
  | rkrgaNv12
  deriving DecidableEq, Repr

/-- The text of a filter, as the source writes it. -/
def VideoFilter.render : VideoFilter → String
  | .scaleDecrease w h => s!"scale=w={w}:h={h}:force_original_aspect_ratio=decrease"
  | .padCenter w h => s!"pad=w={w}:h={h}:x=(ow-iw)/2:y=(oh-ih)/2"
  | .padAlign16 => "pad=ceil(iw/16)*16:ceil(ih/16)*16"
  | .formatNv12 => "format=nv12"
  | .rkrgaNv12 => "rkrga=fmt=nv12"

/-- A filter chain, joined by commas. -/
def renderFilters (filters : List VideoFilter) : String :=
  ",".intercalate (filters.map VideoFilter.render)

/-- The video half of an ffmpeg command: a stream copy (`-c copy`), or an encoder behind a
filter chain (`-vf <chain> -c:v <encoder>`). -/
inductive VideoPipeline
  | copy
  | encode (filters : List VideoFilter) (encoder : String)
  deriving DecidableEq, Repr

/-- The `vf` of `_transcode_cpu`: scale into the profile keeping the aspect ratio, then pad
to the profile, centred. -/
def cpuFilters (profile : QualityProfile) : List VideoFilter :=
  [.scaleDecrease profile.width profile.height, .padCenter profile.width profile.height]

/-- `video_codec` of `_transcode_cpu`. -/
def cpuVideoCodec (codec : CodecPreference) : String :=
  if codec = .h265 then "libx265" else "libx264"

/-- `filter_candidates` of `_transcode_rkmpp`: RGA scaling when `/dev/rga` exists, then the
software format conversion; both pad to multiples of 16. -/
def filterCandidates (rgaExists : Bool) : List (String × List VideoFilter) :=
  (if rgaExists then [("rkrga", [.rkrgaNv12, .padAlign16])] else []) ++
    [("format", [.formatNv12, .padAlign16])]

/-- The command of `_remux`. -/
def remuxArgs (ffmpeg sourcePath destPath : String) : List String :=
  [ffmpeg, "-hide_banner", "-loglevel", "error", "-y", "-i", sourcePath, "-c", "copy",
    "-movflags", "+faststart", destPath]

/-- The command of `_transcode_cpu`. -/
def transcodeCpuArgs (ffmpeg sourcePath destPath : String) (profile : QualityProfile)
    (codec : CodecPreference) : List String :=
  [ffmpeg, "-hide_banner", "-loglevel", "error", "-y", "-i", sourcePath,
    "-vf", renderFilters (cpuFilters profile), "-c:v", cpuVideoCodec codec,
    "-b:v", toString profile.videoBitrate, "-preset", "veryfast", "-movflags", "+faststart",
    "-c:a", "aac", "-b:a", "128k", destPath]

/-- The command of one filter candidate of `_transcode_rkmpp`. -/
def transcodeRkmppArgs (ffmpeg sourcePath destPath : String) (profile : QualityProfile)
    (decoderName encoderName : String) (filters : List VideoFilter) : List String :=
  let decoderArgs := if decoderName ≠ "" then ["-hwaccel", "rkmpp", "-c:v", decoderName] else []
  let rateArgs :=
    if encoderName = "hevc_rkmpp" then
      let (bv, maxrate, bufsize) := hevcRateControl profile.width
      ["-profile:v", "main", "-tag:v", "hvc1", "-b:v", bv, "-maxrate", maxrate,
        "-bufsize", bufsize]
    else ["-b:v", toString profile.videoBitrate]
  [ffmpeg, "-hide_banner", "-loglevel", "error", "-y"] ++ decoderArgs ++ ["-i", sourcePath] ++
    ["-vf", renderFilters filters, "-c:v", encoderName, "-pix_fmt", "nv12"] ++ rateArgs ++
    ["-g", "240", "-movflags", "+faststart", "-c:a", "aac", "-b:a", "128k", destPath]

/-- The strategy `_process_sync` runs. -/
inductive TranscodePlan
  | remux
  | rkmpp (decoderName encoderName : String) (candidates : List (String × List VideoFilter))
  | cpu (profile : QualityProfile) (codec : CodecPreference)
  deriving DecidableEq, Repr

/-- The video pipelines of the commands a plan may run, in order. -/
def TranscodePlan.pipelines : TranscodePlan → List VideoPipeline
  | .remux => [.copy]
  | .rkmpp _ encoderName candidates => candidates.map fun c => .encode c.2 encoderName
  | .cpu profile codec => [.encode (cpuFilters profile) (cpuVideoCodec codec)]

/-- The decisions of `_process_sync` after the probe: profile, target codec and strategy.
`decoders` and `encoders` are the engine's cached ffmpeg lists, `rgaExists` is
`Path("/dev/rga").exists()`. -/
def planTranscode (decoders encoders : List String) (rgaExists : Bool) (info : MediaInfo)
    (request : JobRequest) : Except String (QualityProfile × CodecPreference × TranscodePlan) :=
  match selectProfile info request with
  | .error e => .error e
  | .ok profile =>
    let targetCodec := resolveCodec info profile request
    if shouldRemux info profile targetCodec then .ok (profile, targetCodec, .remux)
    else
      let (useHw, decoder, encoder) := selectRkmppCodecs decoders encoders info targetCodec
      if useHw then .ok (profile, targetCodec, .rkmpp decoder encoder (filterCandidates rgaExists))
      else .ok (profile, targetCodec, .cpu profile targetCodec)

/-! ## What ffmpeg writes -/

/-- The codec and frame size of the video stream an ffmpeg run writes; the codec is read as
`_map_codec_name` reads names. -/
structure VideoOutput where
  codec : Option CodecPreference
  width : ℤ
  height : ℤ
  deriving DecidableEq, Repr

/-- `av_rescale(a, b, c)`: `a * b / c`, rounded to nearest. -/
def avRescale (a b c : ℤ) : ℤ := (a * b + c / 2) / c

/-- `ceil(x/16)*16`. -/
def align16 (x : ℤ) : ℤ := (x + 15) / 16 * 16

/-- One filter on a frame size; `none` is ffmpeg's error for a pad smaller than its input. -/
def VideoFilter.apply : VideoFilter → ℤ × ℤ → Option (ℤ × ℤ)
  | .scaleDecrease w h, (iw, ih) => some (min (avRescale h iw ih) w, min (avRescale w ih iw) h)
  | .padCenter w h, (iw, ih) => if iw ≤ w ∧ ih ≤ h then some (w, h) else none
  | .padAlign16, (iw, ih) => some (align16 iw, align16 ih)
  | .formatNv12, frame => some frame
  | .rkrgaNv12, frame => some frame

/-- A filter chain on a frame size. -/
def applyFilters : List VideoFilter → ℤ × ℤ → Option (ℤ × ℤ)
  | [], frame => some frame
  | f :: fs, frame => (f.apply frame).bind (applyFilters fs)

/-- The codec an ffmpeg encoder writes. -/
def encoderCodec : String → Option CodecPreference
  | "libx264" | "h264_rkmpp" => some .h264
  | "libx265" | "hevc_rkmpp" => some .h265
  | _ => none

/-- The video stream a pipeline writes from a source with codec name `codecName` and frame
`w × h`. -/
def VideoPipeline.output (codecName : Option String) (w h : ℤ) :
    VideoPipeline → Option VideoOutput
  | .copy => some ⟨mapCodecName codecName, w, h⟩
  | .encode filters encoder =>
    (applyFilters filters (w, h)).map fun frame => ⟨encoderCodec encoder, frame.1, frame.2⟩

/-! ## The output of each strategy -/

lemma applyFilters_cpuFilters (P : QualityProfile) (w h : ℤ) :
    applyFilters (cpuFilters P) (w, h) = some (P.width, P.height) := by
  simp [applyFilters, cpuFilters, VideoFilter.apply]

lemma applyFilters_of_mem_filterCandidates {rgaExists : Bool} {c : String × List VideoFilter}
    (hc : c ∈ filterCandidates rgaExists) (w h : ℤ) :
    applyFilters c.2 (w, h) = some (align16 w, align16 h) := by
  cases rgaExists <;> simp only [filterCandidates, if_true, if_false, List.nil_append,
    List.singleton_append, List.mem_cons, List.mem_singleton, List.not_mem_nil, or_false,
    Bool.false_eq_true] at hc
  · subst hc; rfl
  · rcases hc with rfl | rfl <;> rfl

lemma encoderCodec_cpuVideoCodec {T : CodecPreference} (hT : T ≠ .auto) :
    encoderCodec (cpuVideoCodec T) = some T := by
  cases T <;> simp_all [cpuVideoCodec, encoderCodec]

/-- The hardware encoder `_select_rkmpp_codecs` returns, when it returns one, writes the
target codec. -/
lemma encoderCodec_selectRkmppCodecs (decoders encoders : List String) (info : MediaInfo)
    {T : CodecPreference} (hT : T ≠ .auto)
    (hhw : (selectRkmppCodecs decoders encoders info T).1 = true) :
    encoderCodec (selectRkmppCodecs decoders encoders info T).2.2 = some T := by
  cases T <;> simp only [selectRkmppCodecs, rkmppEncoderName] at hhw ⊢ <;> split_ifs at hhw ⊢ <;>
    simp_all [encoderCodec]

/-- The frame size each strategy writes differs: for every source with a known resolution
`w × h`, every request, every cached encoder and decoder list and either state of
`/dev/rga`, `_process_sync` picks profile `P` and codec `T`, and every command of its
strategy writes codec `T`. The remux path keeps `w × h`, which fits in `P`; the CPU path
writes exactly `P.width × P.height`; the RKMPP path writes `w × h` padded up to multiples
of 16. -/
theorem planTranscode_output (decoders encoders : List String) (rgaExists : Bool)
    (info : MediaInfo) (request : JobRequest) (video : MediaStreamInfo) (w h : ℤ)
    (hv : info.video = some video) (hw : video.width = some w) (hh : video.height = some h)
    (hw0 : w ≠ 0) (hh0 : h ≠ 0) :
    ∃ P plan, chooseProfile w h request.quality = some P ∧
      planTranscode decoders encoders rgaExists info request =
        .ok (P, resolveCodec info P request, plan) ∧
      ((plan = .remux ∧ w ≤ P.width ∧ h ≤ P.height ∧ ∀ pl ∈ plan.pipelines,
          pl.output video.codecName w h = some ⟨some (resolveCodec info P request), w, h⟩) ∨
        (plan = .cpu P (resolveCodec info P request) ∧ ∀ pl ∈ plan.pipelines,
          pl.output video.codecName w h =
            some ⟨some (resolveCodec info P request), P.width, P.height⟩) ∨
        (∃ d e cs, plan = .rkmpp d e cs ∧ ∀ pl ∈ plan.pipelines,
          pl.output video.codecName w h =
            some ⟨some (resolveCodec info P request), align16 w, align16 h⟩)) := by
  obtain ⟨P, hP⟩ := chooseProfile_isSome w h request.quality
  have hsel : selectProfile info request = .ok P := by
    simp [selectProfile, sourceResolution_eq hv hw hh hw0 hh0, hP]
  have hT := resolveCodec_ne_auto info P request
  by_cases hr : shouldRemux info P (resolveCodec info P request) = true
  · obtain ⟨hc, -, hwP, hhP⟩ := (shouldRemux_eq_true_iff hv hw hh hw0 hh0 P hT).1 hr
    refine ⟨P, .remux, hP, by simp [planTranscode, hsel, hr], .inl ⟨rfl, hwP, hhP, ?_⟩⟩
    simp [TranscodePlan.pipelines, VideoPipeline.output, hc]
  · rcases hs : selectRkmppCodecs decoders encoders info (resolveCodec info P request) with
      ⟨useHw, d, e⟩
    have hplan : planTranscode decoders encoders rgaExists info request =
        .ok (P, resolveCodec info P request, if useHw then .rkmpp d e (filterCandidates rgaExists)
          else .cpu P (resolveCodec info P request)) := by
      cases useHw <;> simp [planTranscode, hsel, hr, hs]
    cases useHw
    · refine ⟨P, _, hP, hplan, .inr (.inl ⟨rfl, ?_⟩)⟩
      simp [TranscodePlan.pipelines, VideoPipeline.output, applyFilters_cpuFilters,
        encoderCodec_cpuVideoCodec hT]
    · have he := encoderCodec_selectRkmppCodecs decoders encoders info hT (by rw [hs])
      rw [hs] at he
      refine ⟨P, _, hP, hplan, .inr (.inr ⟨d, e, _, rfl, ?_⟩)⟩
      intro pl hpl
      obtain ⟨c, hc, rfl⟩ := List.mem_map.1 hpl
      simp [VideoPipeline.output, applyFilters_of_mem_filterCandidates hc, he]
/-- A 1280×600 H.264 MP4 source, submitted with the default request, meets the hypotheses of
`planTranscode_output`. -/
theorem planTranscode_output_wide_mp4 :
    let video : MediaStreamInfo := ⟨"video", some "h264", some 1280, some 600, none⟩
    let info : MediaInfo := ⟨some "mov,mp4,m4a,3gp,3g2,mj2", none, none, some video, none⟩
    let request : JobRequest := {}
    (info.video = some video ∧ video.width = some 1280 ∧ video.height = some 600 ∧
      (1280 : ℤ) ≠ 0 ∧ (600 : ℤ) ≠ 0) ∧
    ∃ P plan, chooseProfile 1280 600 request.quality = some P ∧
      planTranscode [] [] false info request = .ok (P, resolveCodec info P request, plan) ∧
      ((plan = .remux ∧ 1280 ≤ P.width ∧ 600 ≤ P.height ∧ ∀ pl ∈ plan.pipelines,
          pl.output video.codecName 1280 600 = some ⟨some (resolveCodec info P request), 1280, 600⟩) ∨
        (plan = .cpu P (resolveCodec info P request) ∧ ∀ pl ∈ plan.pipelines,
          pl.output video.codecName 1280 600 =
            some ⟨some (resolveCodec info P request), P.width, P.height⟩) ∨
        (∃ d e cs, plan = .rkmpp d e cs ∧ ∀ pl ∈ plan.pipelines,
          pl.output video.codecName 1280 600 =
            some ⟨some (resolveCodec info P request), align16 1280, align16 600⟩)) :=
  ⟨⟨rfl, rfl, rfl, by decide, by decide⟩,
    planTranscode_output [] [] false _ _ _ 1280 600 rfl rfl rfl (by decide) (by decide)⟩

/-- Not every strategy writes the profile's frame size. A 1280×600 H.264 MP4 source in auto
mode gets the 720p profile and is remuxed at 1280×600. A 3840×2160 H.264 Matroska source
asked for 480p, on a host whose ffmpeg lists `h264_rkmpp` and without `/dev/rga`, is encoded
by the hardware at 3840×2160. -/
theorem planTranscode_frame_ne_profile :
    let wide : MediaInfo := ⟨some "mov,mp4,m4a,3gp,3g2,mj2", none, none,
      some ⟨"video", some "h264", some 1280, some 600, none⟩, none⟩
    let uhd : MediaInfo := ⟨some "matroska,webm", none, none,
      some ⟨"video", some "h264", some 3840, some 2160, none⟩, none⟩
    (planTranscode [] [] false wide {} = .ok (hd720p, .h264, .remux) ∧
      TranscodePlan.remux.pipelines.map (·.output (some "h264") 1280 600) =
        [some ⟨some .h264, 1280, 600⟩] ∧ (1280, 600) ≠ (hd720p.width, hd720p.height)) ∧
    (planTranscode [] ["h264_rkmpp"] false uhd { quality := .sd480p } =
        .ok (sd480p, .h264, .rkmpp "" "h264_rkmpp" [("format", [.formatNv12, .padAlign16])]) ∧
      (TranscodePlan.rkmpp "" "h264_rkmpp" [("format", [.formatNv12, .padAlign16])]).pipelines.map
        (·.output (some "h264") 3840 2160) = [some ⟨some .h264, 3840, 2160⟩] ∧
      (3840, 2160) ≠ (sd480p.width, sd480p.height)) :=
  ⟨⟨rfl, rfl, by decide⟩, ⟨rfl, rfl, by decide⟩⟩

end MediaEngine
