import MediaEngine.Transcode.Profiles

set_option autoImplicit false

/-!
# The decisions of the transcode engine

The pure part of `TranscodeEngine` (`app/transcode/engine.py`): which profile, which target
codec, remux or transcode, and which hardware encoder and decoder. The probe result they
read is `MediaInfo` of `app/transcode/probe.py`.

## Main definitions

* `MediaEngine.mapCodecName`, `MediaEngine.resolveCodec`, `MediaEngine.shouldRemux` —
  `_map_codec_name`, `_resolve_codec`, `_should_remux`.
* `MediaEngine.selectProfile` — `_select_profile`, which raises when the resolution is
  unknown.
* `MediaEngine.selectRkmppCodecs` — `_select_rkmpp_codecs`, over the cached sets of ffmpeg
  encoder and decoder names.

## Main results

* `MediaEngine.resolveCodec_ne_auto` — the resolved codec is always `h264` or `h265`.
* `MediaEngine.shouldRemux_iff` — with the profile and codec that `_process_sync` computes,
  remux is chosen exactly when the source codec is the target codec, the container is an
  MP4 one and the source fits inside the profile.
-/

namespace MediaEngine

/-- `MediaStreamInfo` of `probe.py`. -/
structure MediaStreamInfo where
  codecType : String
  codecName : Option String
  width : Option ℤ := none
  height : Option ℤ := none
  bitRate : Option ℤ := none
  deriving DecidableEq, Repr

/-- `MediaInfo` of `probe.py`; durations are exact rationals. -/
structure MediaInfo where
  container : Option String
  bitRate : Option ℤ
  duration : Option ℚ
  video : Option MediaStreamInfo
  audio : Option MediaStreamInfo
  deriving DecidableEq

/-- `_map_codec_name`: the names ffprobe uses for the two supported codecs. -/
def mapCodecName : Option String → Option CodecPreference
  | none => none
  | some codec =>
    if codec = "" then none
    else if pyLower codec ∈ ["h264", "avc1", "avc"].map String.toList then some .h264
    else if pyLower codec ∈ ["h265", "hevc", "hvc1"].map String.toList then some .h265
    else none

/-- The guard `if not video or not video.width or not video.height` shared by
`_select_profile` and `_should_remux`: the width and height of the video stream when both
are present and non-zero. -/
def sourceResolution (info : MediaInfo) : Option (ℤ × ℤ) :=
  match info.video with
  | some ⟨_, _, some w, some h, _⟩ => if w ≠ 0 ∧ h ≠ 0 then some (w, h) else none
  | _ => none

/-- `_select_profile`: `RuntimeError("Unable to determine source resolution")` without a
resolution; a `KeyError` from `PROFILES` would surface as an error too. -/
def selectProfile (info : MediaInfo) (request : JobRequest) : Except String QualityProfile :=
  match sourceResolution info with
  | none => .error "Unable to determine source resolution"
  | some (w, h) =>
    match chooseProfile w h request.quality with
    | some profile => .ok profile
    | none => .error "KeyError"

/-- `_resolve_codec`: an explicit request wins, then a supported source codec, then the
profile's codec, then `h264`. -/
def resolveCodec (info : MediaInfo) (profile : QualityProfile) (request : JobRequest) :
    CodecPreference :=
  if request.codec ≠ .auto then request.codec
  else
    match mapCodecName (info.video.bind (·.codecName)) with
    | some .h264 => .h264
    | some .h265 => .h265
    | _ => if profile.codec ≠ .auto then profile.codec else .h264

/-- `bool(info.container and "mp4" in info.container.lower())`. -/
def isMp4Container : Option String → Bool
  | some container => container != "" && decide ("mp4".toList <:+: pyLower container)
  | none => false

/-- `_should_remux`: copy the streams when the source codec is the target codec (an `auto`
target reads as the source codec, or `h264`), the container is an MP4 one and the source
does not exceed the profile. -/
def shouldRemux (info : MediaInfo) (profile : QualityProfile) (targetCodec : CodecPreference) :
    Bool :=
  match sourceResolution info with
  | none => false
  | some (w, h) =>
    let sourceCodec := mapCodecName (info.video.bind (·.codecName))
    let targetCodec := if targetCodec = .auto then sourceCodec.getD .h264 else targetCodec
    if sourceCodec ≠ some targetCodec then false
    else if !isMp4Container info.container then false
    else if w > profile.width ∨ h > profile.height then false
    else true

/-- `_rkmpp_decoder_name`. -/
def rkmppDecoderName (codecName : String) : Option String :=
  match (["av1", "vp9", "vp8", "h264", "avc1", "avc", "h265", "hevc"].zip
      ["av1_rkmpp", "vp9_rkmpp", "vp8_rkmpp", "h264_rkmpp", "h264_rkmpp", "h264_rkmpp",
        "hevc_rkmpp", "hevc_rkmpp"]).find? (fun kv => kv.1.toList = pyLower codecName) with
  | some kv => some kv.2
  | none => none

/-- `_rkmpp_encoder_name`. -/
def rkmppEncoderName (targetCodec : CodecPreference) : Option String :=
  if targetCodec = .h265 then some "hevc_rkmpp" else some "h264_rkmpp"

/-- `_select_rkmpp_codecs`: the hardware encoder for the target codec when ffmpeg lists it,
and the hardware decoder for the source codec when ffmpeg lists it; `use_hw` is the
presence of the encoder. Both name sets are lower-cased by `_query_ffmpeg_list`. -/
def selectRkmppCodecs (decoders encoders : List String) (info : MediaInfo)
    (targetCodec : CodecPreference) : Bool × String × String :=
  let decoderName : Option String :=
    match info.video.bind (·.codecName) with
    | some codecName =>
      if codecName = "" then none
      else
        match rkmppDecoderName codecName with
        | some d => if String.mk (pyLower d) ∉ decoders then none else some d
        | none => none
    | none => none
  let encoderName : Option String :=
    match rkmppEncoderName targetCodec with
    | some e => if String.mk (pyLower e) ∉ encoders then none else some e
    | none => none
  (encoderName.isSome, decoderName.getD "", encoderName.getD "")

/-- `_hevc_rate_control`: bitrate, maxrate and bufsize of `hevc_rkmpp` by output width. -/
def hevcRateControl (width : ℤ) : String × String × String :=
  if width ≥ 3800 then ("8M", "12M", "18M")
  else if width ≥ 2500 then ("5M", "8M", "12M")
  else ("3M", "5M", "8M")

/-! ## Codec resolution -/

@[simp] lemma mapCodecName_ne_auto (c : Option String) : mapCodecName c ≠ some .auto := by
  unfold mapCodecName
  split
  · simp
  · split_ifs <;> simp

/-- `_resolve_codec` never returns `auto`: every branch returns a supported codec. -/
lemma resolveCodec_ne_auto (info : MediaInfo) (P : QualityProfile) (request : JobRequest) :
    resolveCodec info P request ≠ .auto := by
  unfold resolveCodec
  split_ifs with hreq hP
  · exact hreq
  · split <;> simp_all
  · split <;> simp

lemma sourceResolution_eq {info : MediaInfo} {video : MediaStreamInfo} {w h : ℤ}
    (hv : info.video = some video) (hw : video.width = some w) (hh : video.height = some h)
    (hw0 : w ≠ 0) (hh0 : h ≠ 0) : sourceResolution info = some (w, h) := by
  obtain ⟨t, n, w', h', b⟩ := video
  simp only at hw hh
  subst hw hh
  simp [sourceResolution, hv, hw0, hh0]

/-- For a source with a known resolution and a target codec other than `auto`, remux is
chosen exactly when the source codec is the target, the container is an MP4 one and the
source fits in the profile. -/
lemma shouldRemux_eq_true_iff {info : MediaInfo} {video : MediaStreamInfo} {w h : ℤ}
    (hv : info.video = some video) (hw : video.width = some w) (hh : video.height = some h)
    (hw0 : w ≠ 0) (hh0 : h ≠ 0) (P : QualityProfile) {T : CodecPreference} (hT : T ≠ .auto) :
    shouldRemux info P T = true ↔ mapCodecName video.codecName = some T ∧
      isMp4Container info.container = true ∧ w ≤ P.width ∧ h ≤ P.height := by
  simp only [shouldRemux, sourceResolution_eq hv hw hh hw0 hh0, hv, Option.bind_some, if_neg hT]
  by_cases hc : mapCodecName video.codecName = some T
  · by_cases hm : isMp4Container info.container = true
    · simp [hc, hm, not_or]
    · simp [hc, hm]
  · simp [hc]

end MediaEngine
