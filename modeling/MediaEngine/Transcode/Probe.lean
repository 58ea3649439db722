import MediaEngine.Transcode.Engine
import Mathlib.Data.Rat.Floor

set_option autoImplicit false

/-!
# Reading ffprobe's report

`probe_media` (`app/transcode/probe.py`) runs `ffprobe -show_entries
stream=index,codec_type,codec_name,width,height,bit_rate:format=format_name,bit_rate,duration
-print_format json` and reads a `MediaInfo` from the JSON it prints: the first stream whose
`codec_type` is `video`, the first whose `codec_type` is `audio`, and the `format` section. A
width or a height is kept when it is not `0`; a bit rate or a duration is converted by `int()`
or `float()` when its text is not empty, and a text the conversion rejects raises its
`ValueError`.

## Main definitions

* `MediaEngine.ProbeOutput` — the report ffprobe prints, in the schema of its JSON writer.
* `MediaEngine.PyFloat`, `MediaEngine.pyFloat` — a Python `float`, and `float()` of a text.
* `MediaEngine.probeMedia` — `probe_media`, from the outcome of the ffprobe child.
* `MediaEngine.MediaInfo.report` — the report ffprobe prints for a file with given properties.

## Main results

* `MediaEngine.probeMedia_report` — for every `MediaInfo` ffprobe can report, `probe_media`
  reads the report back to that `MediaInfo`.

## Design

ffprobe's JSON writer prints `codec_type`, `codec_name`, `format_name`, `bit_rate` and
`duration` as strings and `width` and `height` as integers, and leaves out a key it has no
value for. `ProbeOutput` has a field for each key `probe_media` reads, `none` for a key left
out; the `index` it asks for and never reads is left out. An empty standard output is read as
`{}`, the report with no keys. `float()` is exact: a finite value is the rational its literal
denotes, as the durations of `MediaInfo` are rationals, and `inf`, `infinity` and `nan` in any
case are Python's infinities and NaN. ffprobe prints the format's duration with `"%f"` from a
whole number of microseconds, so it is never one of those: `ProbeFormat` carries this as a
field, and `probe_media` converts the finite value it reads. `repr` of a rejected text is
written as the text between single quotes. A failure of the child, `FileNotFoundError` or
`CalledProcessError`, is the text of the exception.
-/

namespace MediaEngine

/-- A stream of ffprobe's report; `none` is a key the report leaves out. -/
structure ProbeStream where
  codecType : Option String
  codecName : Option String
  width : Option ℤ
  height : Option ℤ
  bitRate : Option String
  deriving DecidableEq, Repr

/-! ## `float()` -/

/-- A Python `float`: a finite value, an infinity of a sign, or NaN. -/
inductive PyFloat
  | finite (x : ℚ)
  | infinity (negative : Bool)
  | nan
  deriving DecidableEq, Repr

/-- `-x` of a `float`. -/
def PyFloat.neg : PyFloat → PyFloat
  | .finite x => .finite (-x)
  | .infinity negative => .infinity !negative
  | .nan => .nan

/-- A `digitpart` of a float literal, digits with single underscores between them: its value
and its number of digits. -/
def digitPart (cs : List Char) : Option (ℕ × ℕ) :=
  (decimalValue cs).map fun value => (value, (cs.filter Char.isDigit).length)

/-- The exponent of a float literal, `[sign] digitpart`. -/
def signedDigitPart : List Char → Option ℤ
  | '-' :: digits => (decimalValue digits).map fun n => -(n : ℤ)
  | '+' :: digits => (decimalValue digits).map Int.ofNat
  | digits => (decimalValue digits).map Int.ofNat

/-- A `number`, `[digitpart] "." digitpart | digitpart ["."]`: an empty side of the point
reads as `0`, but not both sides. -/
def floatMantissa (cs : List Char) : Option ℚ :=
  match cs.span (· != '.') with
  | (whole, []) => (decimalValue whole).map Nat.cast
  | (whole, _ :: fraction) =>
    if whole = [] ∧ fraction = [] then none
    else do
      let a ← if whole = [] then some 0 else decimalValue whole
      let (value, k) ← if fraction = [] then some (0, 0) else digitPart fraction
      pure ((a : ℚ) + (value : ℚ) / 10 ^ k)

/-- A `floatnumber`, a `number` and an optional exponent. -/
def floatNumber (cs : List Char) : Option ℚ :=
  match cs.span fun c => c != 'e' && c != 'E' with
  | (mantissa, []) => floatMantissa mantissa
  | (mantissa, _ :: exponent) => do
    let x ← floatMantissa mantissa
    let e ← signedDigitPart exponent
    pure (x * 10 ^ e)

/-- `float()` of a text after its sign: `inf`, `infinity` or `nan` in any case, or a
`floatnumber`. -/
def unsignedFloat (body : List Char) : Option PyFloat :=
  if body.map Char.toLower = ['i', 'n', 'f'] ∨
      body.map Char.toLower = ['i', 'n', 'f', 'i', 'n', 'i', 't', 'y'] then some (.infinity false)
  else if body.map Char.toLower = ['n', 'a', 'n'] then some .nan
  else (floatNumber body).map .finite

/-- `float(text)`: `none` where it raises `ValueError`. -/
def pyFloat (text : List Char) : Option PyFloat :=
  match pyStrip text with
  | '-' :: body => (unsignedFloat body).map PyFloat.neg
  | '+' :: body => unsignedFloat body
  | body => unsignedFloat body

example : pyFloat " -Infinity\n".toList = some (.infinity true) ∧ pyFloat "NaN".toList = some .nan := by
  decide

/-- The `format` section of ffprobe's report. ffprobe prints the duration with `"%f"` from a
whole number of microseconds, so `float()` reads it as a finite float. -/
structure ProbeFormat where
  formatName : Option String
  bitRate : Option String
  duration : Option String
  duration_finite : ∀ text ∈ duration, ∀ x, pyFloat text.toList = some x → ∃ q, x = .finite q

/-- ffprobe's report: its `streams` and its `format`. -/
structure ProbeOutput where
  streams : Option (List ProbeStream)
  format : Option ProbeFormat

/-! ## `probe_media` -/

/-- `convert(value) if value else None` for a text of the report: `convert` reads the text,
and where it reads nothing it raises the `ValueError` whose message `message` gives. -/
def convertText {α : Type} (convert : List Char → Option α) (message : String → String)
    (value : Option String) : Except String (Option α) :=
  if pyTruthy value then
    match convert (value.getD "").toList with
    | some x => .ok (some x)
    | none => .error (message (value.getD ""))
  else .ok none

/-- `int(value) if value else None`. -/
def intOfText : Option String → Except String (Option ℤ) :=
  convertText pyInt fun text => s!"invalid literal for int() with base 10: \x27{text}\x27"

/-- `float(value) if value else None`. -/
def floatOfText : Option String → Except String (Option PyFloat) :=
  convertText pyFloat fun text => s!"could not convert string to float: \x27{text}\x27"

/-- A value `convert(value) if value else None` returns is `convert`'s reading of the text. -/
lemma convertText_eq_ok_some {α : Type} {convert : List Char → Option α}
    {message : String → String} {value : Option String} {x : α}
    (h : convertText convert message value = .ok (some x)) :
    ∃ text ∈ value, convert text.toList = some x := by
  unfold convertText at h
  split_ifs at h with htruthy
  · cases value with
    | none => cases htruthy
    | some text =>
      refine ⟨text, rfl, ?_⟩
      split at h
      · next y hy => cases h; exact hy
      · cases h
  · cases h

/-- The format's duration is read as a finite float. -/
lemma ProbeFormat.floatOfText_duration_finite (f : ProbeFormat) {x : PyFloat}
    (h : floatOfText f.duration = .ok (some x)) : ∃ q, x = .finite q :=
  have ⟨text, htext, hx⟩ := convertText_eq_ok_some h
  f.duration_finite text htext x hx

/-- `float(duration) if duration else None` for the format's `duration`, as the finite float
it is. -/
def ProbeFormat.durationValue (f : ProbeFormat) : Except String (Option ℚ) :=
  match h : floatOfText f.duration with
  | .error e => .error e
  | .ok none => .ok none
  | .ok (some (.finite q)) => .ok (some q)
  | .ok (some (.infinity _)) => absurd (f.floatOfText_duration_finite h) (by rintro ⟨_, ⟨⟩⟩)
  | .ok (some .nan) => absurd (f.floatOfText_duration_finite h) (by rintro ⟨_, ⟨⟩⟩)

/-- The `video` of `probe_media`, from its first video stream: a size `0` is `None`. -/
def videoStreamInfo (s : ProbeStream) : Except String MediaStreamInfo := do
  let bitRate ← intOfText s.bitRate
  pure ⟨"video", s.codecName, s.width.filter (· != 0), s.height.filter (· != 0), bitRate⟩

/-- The `audio` of `probe_media`, from its first audio stream: no size is read. -/
def audioStreamInfo (s : ProbeStream) : Except String MediaStreamInfo := do
  let bitRate ← intOfText s.bitRate
  pure { codecType := "audio", codecName := s.codecName, bitRate := bitRate }

/-- `next((s for s in streams if s.get("codec_type") == kind), None)` over
`payload.get("streams", [])`. -/
def ProbeOutput.firstStream (payload : ProbeOutput) (kind : String) : Option ProbeStream :=
  (payload.streams.getD []).find? fun s => s.codecType == some kind

/-- `payload.get("format", {})`. -/
def ProbeOutput.formatSection (payload : ProbeOutput) : ProbeFormat :=
  payload.format.getD ⟨none, none, none, fun _ h => by cases h⟩

/-- `probe_media(path)`, from the outcome of the ffprobe child: its report, or the text of the
exception it raised. -/
def probeMedia : Except String ProbeOutput → Except String MediaInfo
  | .error exc => .error s!"Failed to probe media: {exc}"
  | .ok payload => do
    let video ← (payload.firstStream "video").mapM videoStreamInfo
    let audio ← (payload.firstStream "audio").mapM audioStreamInfo
    let bitRate ← intOfText payload.formatSection.bitRate
    let duration ← payload.formatSection.durationValue
    pure ⟨payload.formatSection.formatName, bitRate, duration, video, audio⟩

/-! ## What ffprobe prints -/

/-- `"%f"` of `n / 10^6`: ffprobe's text of a duration of `n` microseconds. -/
def microsecondsText (n : ℕ) : List Char :=
  decimalDigits (n / 1000000) ++ '.' ::
    (List.replicate (6 - (decimalDigits (n % 1000000)).length) '0' ++
      decimalDigits (n % 1000000))

/-! ## Reading a duration back -/

/-- What a decimal digit is not: a space, the point, an exponent mark, a sign, or the first
letter of `inf` or `nan` in either case. -/
structure PlainDigit (c : Char) : Prop where
  isDigit : c.isDigit = true
  not_space : c.isWhitespace = false
  not_point : c ≠ '.'
  not_exponent : (c != 'e' && c != 'E') = true
  not_minus : c ≠ '-'
  not_plus : c ≠ '+'
  not_word : c.toLower ≠ 'i' ∧ c.toLower ≠ 'n'

lemma digitChar_not_sep : ∀ d < 10, digitChar d ≠ '.' ∧ digitChar d ≠ 'e' ∧ digitChar d ≠ 'E' ∧
    (digitChar d).toLower ≠ 'i' ∧ (digitChar d).toLower ≠ 'n' := by
  decide

lemma plainDigit_digitChar {d : ℕ} (hd : d < 10) : PlainDigit (digitChar d) :=
  have ⟨hdig, _, _, hws, hminus, hplus⟩ := digitChar_spec d hd
  have ⟨hdot, he, hE, hi, hn⟩ := digitChar_not_sep d hd
  ⟨hdig, hws, hdot, by simp [he, hE], hminus, hplus, hi, hn⟩

lemma plainDigit_of_mem {ds : List ℕ} (hds : ∀ d ∈ ds, d < 10) {c : Char}
    (hc : c ∈ ds.map digitChar) : PlainDigit c := by
  obtain ⟨d, hd, rfl⟩ := List.mem_map.mp hc
  exact plainDigit_digitChar (hds d hd)

/-- `str(n)` as digits, most significant first. -/
lemma decimalDigits_eq_map (n : ℕ) : ∃ ds : List ℕ, decimalDigits n = ds.map digitChar ∧
    ds ≠ [] ∧ (∀ d ∈ ds, d < 10) ∧ ds.foldl (fun a d => 10 * a + d) 0 = n := by
  unfold decimalDigits
  split_ifs with h
  · exact ⟨[0], rfl, by simp, by simp, by simp [h]⟩
  · exact ⟨_, rfl, List.reverse_ne_nil_iff.mpr (Nat.digits_ne_nil_iff_ne_zero.mpr h),
      fun d hd => Nat.digits_lt_base (by norm_num) (List.mem_reverse.mp hd), foldl_digits_reverse n⟩

/-- `str(n)` has at most `k` digits below `10 ^ k`. -/
lemma length_decimalDigits_le {n k : ℕ} (hk : 0 < k) (hn : n < 10 ^ k) :
    (decimalDigits n).length ≤ k := by
  unfold decimalDigits
  split_ifs with h
  · simpa using hk
  · rw [List.length_map, List.length_reverse, Nat.digits_len 10 n (by norm_num) h]
    exact Nat.log_lt_of_lt_pow h hn

lemma foldl_replicate_zero (k : ℕ) :
    (List.replicate k 0).foldl (fun a d => 10 * a + d) 0 = 0 := by
  induction k with
  | zero => rfl
  | succ k ih => rwa [List.replicate_succ, List.foldl_cons]

/-- A literal without an exponent mark is a `number`. -/
lemma floatNumber_of_no_exponent {cs : List Char} (h : ∀ c ∈ cs, (c != 'e' && c != 'E') = true) :
    floatNumber cs = floatMantissa cs := by
  unfold floatNumber
  rw [List.span_eq_take_drop, List.takeWhile_eq_self_iff.mpr h, List.dropWhile_eq_nil_iff.mpr h]

/-- A text with no space at either end, no sign in front and no `inf` or `nan` is read as
a `floatnumber`. -/
lemma pyFloat_of_unsigned {c : Char} {cs : List Char} (hsign : c ≠ '-' ∧ c ≠ '+')
    (hword : c.toLower ≠ 'i' ∧ c.toLower ≠ 'n') (hstrip : pyStrip (c :: cs) = c :: cs) :
    pyFloat (c :: cs) = (floatNumber (c :: cs)).map .finite := by
  have hnum : unsignedFloat (c :: cs) = (floatNumber (c :: cs)).map .finite := by
    simp [unsignedFloat, hword.1, hword.2]
  unfold pyFloat
  rw [hstrip]
  split
  · next body h => exact absurd (List.cons.inj h).1 hsign.1
  · next body h => exact absurd (List.cons.inj h).1 hsign.2
  · exact hnum

/-- The `number` `whole.fraction` of two runs of digits. -/
lemma floatMantissa_decimal {ds es : List ℕ} (hds : ds ≠ []) (hes : es ≠ [])
    (hdigits : ∀ d ∈ ds ++ es, d < 10) :
    floatMantissa (ds.map digitChar ++ '.' :: es.map digitChar) =
      some (((ds.foldl (fun a d => 10 * a + d) 0 : ℕ) : ℚ) +
        ((es.foldl (fun a d => 10 * a + d) 0 : ℕ) : ℚ) / 10 ^ es.length) := by
  have hwhole : ∀ d ∈ ds, d < 10 := fun d hd => hdigits d (List.mem_append_left _ hd)
  have hfraction : ∀ d ∈ es, d < 10 := fun d hd => hdigits d (List.mem_append_right _ hd)
  have hpos : ∀ c ∈ ds.map digitChar, (c != '.') = true :=
    fun c hc => bne_iff_ne.mpr (plainDigit_of_mem hwhole hc).not_point
  have hsplit : (ds.map digitChar ++ '.' :: es.map digitChar).span (· != '.') =
      (ds.map digitChar, '.' :: es.map digitChar) := by
    rw [List.span_eq_take_drop, List.takeWhile_append_of_pos hpos,
      List.dropWhile_append_of_pos hpos, List.takeWhile_cons_of_neg (by decide),
      List.dropWhile_cons_of_neg (by decide), List.append_nil]
  have hpart : digitPart (es.map digitChar) =
      some (es.foldl (fun a d => 10 * a + d) 0, es.length) := by
    rw [digitPart, decimalValue_digits hes hfraction,
      List.filter_eq_self.mpr fun c hc => (plainDigit_of_mem hfraction hc).isDigit, List.length_map]
    rfl
  have hmap : ¬ es.map digitChar = [] := by simpa using hes
  unfold floatMantissa
  rw [hsplit]
  dsimp only
  rw [if_neg fun h => hds (by simpa using h.1), if_neg (by simpa using hds),
    decimalValue_digits hds hwhole]
  simp only [hmap, if_false, hpart]
  rfl

/-- `float()` reads a plain decimal literal `whole.fraction`. -/
lemma pyFloat_decimal {ds es : List ℕ} (hds : ds ≠ []) (hes : es ≠ [])
    (hdigits : ∀ d ∈ ds ++ es, d < 10) :
    pyFloat (ds.map digitChar ++ '.' :: es.map digitChar) =
      some (.finite (((ds.foldl (fun a d => 10 * a + d) 0 : ℕ) : ℚ) +
        ((es.foldl (fun a d => 10 * a + d) 0 : ℕ) : ℚ) / 10 ^ es.length)) := by
  have hplain : ∀ c ∈ ds.map digitChar ++ es.map digitChar, PlainDigit c := fun c hc =>
    plainDigit_of_mem hdigits (by rwa [List.map_append])
  have hnoexp : ∀ c ∈ ds.map digitChar ++ '.' :: es.map digitChar,
      (c != 'e' && c != 'E') = true := by
    intro c hc
    rcases List.mem_append.mp hc with hc | hc
    · exact (hplain c (List.mem_append_left _ hc)).not_exponent
    · rcases List.mem_cons.mp hc with rfl | hc
      · decide
      · exact (hplain c (List.mem_append_right _ hc)).not_exponent
  have hlast : ∀ c ∈ (ds.map digitChar ++ '.' :: es.map digitChar).getLast?,
      c.isWhitespace = false := by
    intro c hc
    rw [List.getLast?_append_of_ne_nil _ (List.cons_ne_nil _ _), List.getLast?_cons,
      List.getLast?_eq_getLast _ (by simpa using hes)] at hc
    exact (hplain c (List.mem_append_right _
      (Option.mem_some_iff.mp hc ▸ List.getLast_mem _))).not_space
  obtain ⟨d, ds', rfl⟩ := List.exists_cons_of_ne_nil hds
  have hhead : PlainDigit (digitChar d) := hplain _ (List.mem_cons_self _ _)
  have hstrip : pyStrip (digitChar d :: (ds'.map digitChar ++ '.' :: es.map digitChar)) =
      digitChar d :: (ds'.map digitChar ++ '.' :: es.map digitChar) :=
    pyStrip_eq_self (fun c hc => by cases hc; exact hhead.not_space) hlast
  rw [List.map_cons, List.cons_append, pyFloat_of_unsigned ⟨hhead.not_minus, hhead.not_plus⟩ hhead.not_word hstrip,
    ← List.cons_append, ← List.map_cons, floatNumber_of_no_exponent hnoexp,
    floatMantissa_decimal hds hes hdigits, Option.map_some']

/-- `float()` reads ffprobe's text of a duration back. -/
lemma pyFloat_microsecondsText (n : ℕ) :
    pyFloat (microsecondsText n) = some (.finite ((n : ℚ) / 1000000)) := by
  obtain ⟨ds, hds, hne, h10, hval⟩ := decimalDigits_eq_map (n / 1000000)
  obtain ⟨es, hes, hne', h10', hval'⟩ := decimalDigits_eq_map (n % 1000000)
  have hlen : es.length ≤ 6 := by
    simpa [hes] using length_decimalDigits_le (by norm_num) (Nat.mod_lt n (by norm_num : 0 < 10 ^ 6))
  have hpad : List.replicate (6 - (decimalDigits (n % 1000000)).length) '0' ++
      decimalDigits (n % 1000000) = (List.replicate (6 - es.length) 0 ++ es).map digitChar := by
    rw [hes, List.length_map, List.map_append, List.map_replicate]
    rfl
  have hdigits : ∀ d ∈ ds ++ (List.replicate (6 - es.length) 0 ++ es), d < 10 := by
    intro d hd
    rcases List.mem_append.mp hd with hd | hd
    · exact h10 d hd
    · rcases List.mem_append.mp hd with hd | hd
      · rw [List.eq_of_mem_replicate hd]; norm_num
      · exact h10' d hd
  rw [microsecondsText, hpad, hds, pyFloat_decimal hne (by simp [hne']) hdigits,
    List.foldl_append, foldl_replicate_zero, List.length_append, List.length_replicate,
    Nat.sub_add_cancel hlen, hval, hval']
  conv_rhs => rw [← Nat.div_add_mod n 1000000]
  push_cast
  ring_nf

/-! ## The report -/

/-- The stream ffprobe reports for a stream with these properties. -/
def MediaStreamInfo.report (s : MediaStreamInfo) : ProbeStream :=
  ⟨some s.codecType, s.codecName, s.width, s.height, s.bitRate.map fun b => String.mk (pyStr b)⟩

/-- ffprobe's text of a duration of whole microseconds is read as a finite float. -/
lemma microsecondsText_finite (duration : Option ℚ) :
    ∀ text ∈ duration.map (fun d => String.mk (microsecondsText ⌊d * 1000000⌋.toNat)),
      ∀ x, pyFloat text.toList = some x → ∃ q, x = .finite q := by
  intro text htext x hx
  obtain ⟨d, -, rfl⟩ := Option.mem_map.mp htext
  exact ⟨_, (Option.some.inj ((pyFloat_microsecondsText _).symm.trans hx)).symm⟩

/-- The report ffprobe prints for a file with these properties: its video stream, then its
audio stream, and the format, with the duration printed to the microsecond. -/
def MediaInfo.report (info : MediaInfo) : ProbeOutput :=
  ⟨some ((info.video.toList ++ info.audio.toList).map MediaStreamInfo.report),
    some ⟨info.container, info.bitRate.map fun b => String.mk (pyStr b),
      info.duration.map (fun d => String.mk (microsecondsText ⌊d * 1000000⌋.toNat)),
      microsecondsText_finite info.duration⟩⟩

/-- A `MediaInfo` ffprobe can report: each stream is of its kind, a reported size is not `0`,
the audio has no size, and the duration is a whole number of microseconds. -/
structure MediaInfo.Reportable (info : MediaInfo) : Prop where
  video : ∀ v ∈ info.video, v.codecType = "video" ∧ v.width ≠ some 0 ∧ v.height ≠ some 0
  audio : ∀ a ∈ info.audio, a.codecType = "audio" ∧ a.width = none ∧ a.height = none
  duration : ∀ d ∈ info.duration, ∃ n : ℕ, d = (n : ℚ) / 1000000

/-! ## Reading the report back -/

section Convert

variable {α : Type} {convert : List Char → Option α} {message : String → String}

/-- A text the conversion reads is converted. -/
lemma convertText_some {text : String} {x : α} (hne : text.toList ≠ [])
    (h : convert text.toList = some x) : convertText convert message (some text) = .ok (some x) := by
  have htruthy : pyTruthy (some text) = true := by
    simpa [pyTruthy, String.ext_iff] using hne
  simp only [convertText, htruthy, if_true, Option.getD_some, h]

lemma intOfText_pyStr (b : ℤ) : intOfText (some (String.mk (pyStr b))) = .ok (some b) :=
  convertText_some (by simp [pyStr, decimalDigits_ne_nil]) (pyInt_pyStr b)

lemma floatOfText_microsecondsText (n : ℕ) :
    floatOfText (some (String.mk (microsecondsText n))) = .ok (some (.finite ((n : ℚ) / 1000000))) :=
  convertText_some (by simp [microsecondsText]) (pyFloat_microsecondsText n)

end Convert

/-- The bit rates ffprobe prints are read back. -/
lemma intOfText_report (b : Option ℤ) :
    intOfText (b.map fun b => String.mk (pyStr b)) = .ok b := by
  cases b with
  | none => rfl
  | some b => exact intOfText_pyStr b

/-- A duration of whole microseconds is read back. -/
lemma floatOfText_report {d : Option ℚ} (hd : ∀ x ∈ d, ∃ n : ℕ, x = (n : ℚ) / 1000000) :
    floatOfText (d.map fun x => String.mk (microsecondsText ⌊x * 1000000⌋.toNat)) =
      .ok (d.map .finite) := by
  cases d with
  | none => rfl
  | some x =>
    obtain ⟨n, rfl⟩ := hd x rfl
    rw [Option.map_some', div_mul_cancel₀ _ (by norm_num), Int.floor_natCast, Int.toNat_natCast,
      floatOfText_microsecondsText]
    rfl

/-- A duration `float()` reads as finite is converted to its value. -/
lemma ProbeFormat.durationValue_of_floatOfText {f : ProbeFormat} {d : Option ℚ}
    (h : floatOfText f.duration = .ok (d.map .finite)) : f.durationValue = .ok d := by
  unfold ProbeFormat.durationValue
  split <;> cases d <;> simp_all

/-- The duration of whole microseconds ffprobe prints is read back. -/
lemma MediaInfo.durationValue_report {info : MediaInfo}
    (hd : ∀ x ∈ info.duration, ∃ n : ℕ, x = (n : ℚ) / 1000000) :
    info.report.formatSection.durationValue = .ok info.duration :=
  ProbeFormat.durationValue_of_floatOfText (floatOfText_report hd)

lemma filter_ne_zero {w : Option ℤ} (hw : w ≠ some 0) : w.filter (· != 0) = w := by
  cases w with
  | none => rfl
  | some w => simpa [Option.filter] using hw

lemma videoStreamInfo_report {v : MediaStreamInfo}
    (hv : v.codecType = "video" ∧ v.width ≠ some 0 ∧ v.height ≠ some 0) :
    videoStreamInfo v.report = .ok v := by
  obtain ⟨codecType, codecName, width, height, bitRate⟩ := v
  obtain ⟨rfl, hw, hh⟩ := hv
  simp only [videoStreamInfo, MediaStreamInfo.report, intOfText_report, filter_ne_zero hw,
    filter_ne_zero hh]
  rfl

lemma audioStreamInfo_report {a : MediaStreamInfo}
    (ha : a.codecType = "audio" ∧ a.width = none ∧ a.height = none) :
    audioStreamInfo a.report = .ok a := by
  obtain ⟨codecType, codecName, width, height, bitRate⟩ := a
  obtain ⟨rfl, rfl, rfl⟩ := ha
  simp only [audioStreamInfo, MediaStreamInfo.report, intOfText_report]
  rfl

/-- `mapM` over an optional value each of whose values `f` reads back. -/
lemma mapM_map_of_ok {β γ : Type} {f : β → Except String γ} {g : γ → β} {o : Option γ}
    (h : ∀ x ∈ o, f (g x) = .ok x) : (o.map g).mapM f = .ok o := by
  cases o with
  | none => rfl
  | some x => simp only [Option.map_some', Option.mapM, h x rfl]; rfl

section Report

variable {info : MediaInfo}

/-- The first video stream of the report is the file's video stream. -/
lemma firstStream_report_video (h : info.Reportable) :
    info.report.firstStream "video" = info.video.map MediaStreamInfo.report := by
  obtain ⟨container, bitRate, duration, video, audio⟩ := info
  obtain ⟨hvideo, haudio, -⟩ := h
  cases video with
  | some v =>
    simp [MediaInfo.report, ProbeOutput.firstStream, MediaStreamInfo.report, (hvideo v rfl).1]
  | none =>
    cases audio with
    | none => rfl
    | some a =>
      simp [MediaInfo.report, ProbeOutput.firstStream, MediaStreamInfo.report, (haudio a rfl).1]

/-- The first audio stream of the report is the file's audio stream. -/
lemma firstStream_report_audio (h : info.Reportable) :
    info.report.firstStream "audio" = info.audio.map MediaStreamInfo.report := by
  obtain ⟨container, bitRate, duration, video, audio⟩ := info
  obtain ⟨hvideo, haudio, -⟩ := h
  have hskip : (video.toList.map MediaStreamInfo.report).find?
      (fun s => s.codecType == some "audio") = none := by
    cases video with
    | none => rfl
    | some v => simp [MediaStreamInfo.report, (hvideo v rfl).1]
  cases audio with
  | none => simpa [MediaInfo.report, ProbeOutput.firstStream] using hskip
  | some a =>
    simp [MediaInfo.report, ProbeOutput.firstStream, List.find?_append, hskip,
      MediaStreamInfo.report, (haudio a rfl).1]

end Report

/-- **ffprobe's report reads back.** For every `MediaInfo` ffprobe can report (streams of their
kind, sizes that are not `0`, no size on the audio, a duration of whole microseconds), the
report it prints, with the video stream first, is read by `probe_media` to that `MediaInfo`:
each stream is found by its `codec_type`, each size, name and bit rate is read from its own
key, and the `"%f"` text of the duration is read by `float()` to the duration. -/
theorem probeMedia_report (info : MediaInfo) (h : info.Reportable) :
    probeMedia (.ok info.report) = .ok info := by
  have hvideo := mapM_map_of_ok fun v hv => videoStreamInfo_report (h.video v hv)
  have haudio := mapM_map_of_ok fun a ha => audioStreamInfo_report (h.audio a ha)
  simp only [probeMedia, firstStream_report_video h, firstStream_report_audio h, hvideo, haudio,
    MediaInfo.durationValue_report h.duration]
  obtain ⟨container, bitRate, duration, video, audio⟩ := info
  simp only [MediaInfo.report, ProbeOutput.formatSection, Option.getD_some, intOfText_report]
  rfl

/-- A 1080p H.264 file with AAC audio, ten and a half seconds long, is read back from the
report ffprobe prints for it. -/
theorem probeMedia_report_mp4 :
    let info : MediaInfo := ⟨some "mov,mp4,m4a,3gp,3g2,mj2", some 5128000, some (21 / 2),
      some ⟨"video", some "h264", some 1920, some 1080, some 5000000⟩,
      some { codecType := "audio", codecName := some "aac", bitRate := some 128000 }⟩
    info.Reportable ∧ probeMedia (.ok info.report) = .ok info :=
  have h : MediaInfo.Reportable ⟨some "mov,mp4,m4a,3gp,3g2,mj2", some 5128000, some (21 / 2),
      some ⟨"video", some "h264", some 1920, some 1080, some 5000000⟩,
      some { codecType := "audio", codecName := some "aac", bitRate := some 128000 }⟩ :=
    ⟨fun v hv => by cases hv; exact ⟨rfl, by decide, by decide⟩,
      fun a ha => by cases ha; exact ⟨rfl, rfl, rfl⟩,
      fun d hd => by cases hd; exact ⟨10500000, by norm_num⟩⟩
  ⟨h, probeMedia_report _ h⟩

end MediaEngine
