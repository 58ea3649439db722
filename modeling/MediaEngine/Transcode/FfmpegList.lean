import MediaEngine.Models
import Mathlib.Data.List.Basic

set_option autoImplicit false

/-!
# The codec lists of ffmpeg

`TranscodeEngine.__init__` reads the names of ffmpeg's decoders and encoders once, with
`_query_ffmpeg_list`: it runs `ffmpeg -hide_banner -loglevel quiet -decoders` (or
`-encoders`), splits the standard output into lines and each line into fields, and keeps the
second field, lowercased, of every line with at least two fields whose second field is an
identifier. `_select_rkmpp_codecs` uses an RKMPP decoder or encoder only when its name is in
the set read.

## Main definitions

* `MediaEngine.pySplitLines`, `MediaEngine.pySplit`, `MediaEngine.pyIsIdentifier` — Python's
  `str.splitlines()`, `str.split()` and `str.isidentifier()`.
* `MediaEngine.queryFfmpegList` — `_query_ffmpeg_list` from the outcome of `subprocess.run`.
* `MediaEngine.CodecLine`, `MediaEngine.codecLegend` — the lines ffmpeg's `print_codecs`
  writes: one per codec, under a legend of the flags.

## Main results

* `MediaEngine.pySplitLines_listing` — `str.splitlines()` gives back the lines of a text
  made of lines, each ended by `\n`.
* `MediaEngine.queryFfmpegList_listing` — on every listing `print_codecs` writes, the names
  read are exactly the names of its codec lines that are identifiers, lowercased, in order:
  the legend, whose second fields are `=` or absent, adds none, and a codec whose name starts
  with a digit (`012v`, `4xm`, `8bps` among ffmpeg's decoders) is skipped.

## Design

* A string is a list of characters. `str.split()` and `str.splitlines()` split on Python's own
  character sets: the characters of `str.isspace()`, and the line boundaries of
  `str.splitlines()`, where `\r\n` is one boundary.
* `str.isidentifier()` is modelled on ASCII: a letter or `_`, then letters, digits and `_`.
  Python also accepts the non-ASCII letters of the Unicode `XID` classes, which the model
  rejects; ffmpeg names its codecs in ASCII.
* The set of names is a list; the code only asks whether a name is in it.
-/

namespace MediaEngine

/-! ## Python's string splitting -/

/-- Python's `str.isspace()` on one character: what `str.split()` separates fields on. -/
def pyIsSpace (c : Char) : Bool :=
  (9 ≤ c.toNat && c.toNat ≤ 13) || (28 ≤ c.toNat && c.toNat ≤ 32) || c.toNat == 0x85 ||
    c.toNat == 0xA0 || c.toNat == 0x1680 || (0x2000 ≤ c.toNat && c.toNat ≤ 0x200A) ||
    c.toNat == 0x2028 || c.toNat == 0x2029 || c.toNat == 0x202F || c.toNat == 0x205F ||
    c.toNat == 0x3000

/-- The line boundaries of `str.splitlines()`: `\n`, `\v`, `\f`, `\r`, `\x1c`, `\x1d`, `\x1e`,
`\x85`, `\u2028` and `\u2029`. -/
def pyIsLineBoundary (c : Char) : Bool :=
  (10 ≤ c.toNat && c.toNat ≤ 13) || (28 ≤ c.toNat && c.toNat ≤ 30) || c.toNat == 0x85 ||
    c.toNat == 0x2028 || c.toNat == 0x2029

/-- `\r\n` read as the one boundary `\n`. -/
def joinCrLf : List Char → List Char
  | [] => []
  | c :: cs => if c = '\r' ∧ cs.head? = some '\n' then joinCrLf cs else c :: joinCrLf cs

/-- `str.splitlines()`: the pieces between line boundaries, with no empty piece after the last
boundary. -/
def pySplitLines (text : List Char) : List (List Char) :=
  let parts := (joinCrLf text).splitOnP pyIsLineBoundary
  if parts.getLast? = some [] then parts.dropLast else parts

/-- `str.split()`: the runs of characters between whitespace. -/
def pySplit (line : List Char) : List (List Char) :=
  (line.splitOnP pyIsSpace).filter fun field => !field.isEmpty

/-- `str.isidentifier()`, on ASCII. -/
def pyIsIdentifier : List Char → Bool
  | [] => false
  | c :: cs => (c.isAlpha || c == '_') && cs.all fun c => c.isAlphanum || c == '_'

/-! ## `_query_ffmpeg_list` -/

/-- The name one line of the listing adds: `parts[1].lower()`, when the line has two fields and
the second is an identifier. -/
def listedName (line : List Char) : Option String :=
  match pySplit line with
  | _ :: name :: _ => if pyIsIdentifier name then some (String.mk (pyLower (String.mk name))) else none
  | _ => none

/-- `_query_ffmpeg_list(list_type)` once `subprocess.run` has returned its standard output, or
`none` when ffmpeg is not found or exits with a non-zero status, where the code returns
`set()`. -/
def queryFfmpegList : Option String → List String
  | none => []
  | some stdout => (pySplitLines stdout.toList).filterMap listedName

/-! ## What ffmpeg prints -/

/-- A text made of `lines`, each ended by `\n`. -/
def listing (lines : List (List Char)) : List Char :=
  (lines.map (· ++ ['\n'])).flatten

/-- A codec line of `ffmpeg -decoders` or `-encoders`, which `print_codecs` writes as
`" %c%c%c%c%c%c %-20s %s"`: the flags, the name padded to 20 characters, the description.
The flags and the name are words; the description holds no line boundary. -/
structure CodecLine where
  flags : List Char
  name : List Char
  description : List Char
  flags_ne : flags ≠ []
  flags_word : ∀ c ∈ flags, pyIsSpace c = false
  name_ne : name ≠ []
  name_word : ∀ c ∈ name, pyIsSpace c = false
  description_line : ∀ c ∈ description, pyIsLineBoundary c = false

/-- The text of a codec line. -/
def CodecLine.text (e : CodecLine) : List Char :=
  ' ' :: e.flags ++ ' ' :: (e.name ++ List.replicate (20 - e.name.length + 1) ' ' ++ e.description)

/-- The legend `print_codecs` writes above the codec lines. -/
def codecLegend (encoder : Bool) : List (List Char) :=
  ((if encoder then "Encoders:" else "Decoders:") :: [" V..... = Video", " A..... = Audio",
    " S..... = Subtitle", " .F.... = Frame-level multithreading",
    " ..S... = Slice-level multithreading", " ...X.. = Codec is experimental",
    " ....B. = Supports draw_horiz_band", " .....D = Supports direct rendering method 1",
    " ------"]).map String.toList

/-! ## Splitting what ffmpeg prints -/

lemma pyIsSpace_of_pyIsLineBoundary {c : Char} (h : pyIsLineBoundary c = true) :
    pyIsSpace c = true := by
  simp only [pyIsLineBoundary, pyIsSpace, Bool.or_eq_true, Bool.and_eq_true, decide_eq_true_eq,
    beq_iff_eq] at h ⊢
  omega

lemma joinCrLf_of_not_mem {text : List Char} (h : '\r' ∉ text) : joinCrLf text = text := by
  induction text with
  | nil => rfl
  | cons c cs ih =>
    rw [List.mem_cons, not_or] at h
    simp [joinCrLf, Ne.symm h.1, ih h.2]

lemma splitOnP_listing {lines : List (List Char)}
    (h : ∀ l ∈ lines, ∀ c ∈ l, pyIsLineBoundary c = false) :
    (listing lines).splitOnP pyIsLineBoundary = lines ++ [[]] := by
  induction lines with
  | nil => rfl
  | cons l ls ih =>
    simp only [listing, List.map_cons, List.flatten_cons, List.append_assoc, List.singleton_append]
    rw [List.splitOnP_first _ _ (fun c hc => by simp [h l (List.mem_cons_self l ls) c hc]) '\n' rfl]
    exact congrArg (l :: ·) (ih fun l' hl' => h l' (List.mem_cons_of_mem l hl'))

/-- **`str.splitlines()` gives back the lines of a listing.** -/
theorem pySplitLines_listing {lines : List (List Char)}
    (h : ∀ l ∈ lines, ∀ c ∈ l, pyIsLineBoundary c = false) : pySplitLines (listing lines) = lines := by
  have hcr : '\r' ∉ listing lines := fun hmem => by
    obtain ⟨l', hl', hc⟩ := List.mem_flatten.mp hmem
    obtain ⟨l, hl, rfl⟩ := List.mem_map.mp hl'
    rcases List.mem_append.mp hc with hc | hc
    · exact absurd (h l hl '\r' hc) (by decide)
    · simp at hc
  simp [pySplitLines, joinCrLf_of_not_mem hcr, splitOnP_listing h]

/-- A field, then whitespace, then the rest. -/
lemma pySplit_field {w : List Char} (hw : w ≠ []) (hs : ∀ c ∈ w, pyIsSpace c = false)
    {c : Char} (hc : pyIsSpace c = true) (rest : List Char) :
    pySplit (w ++ c :: rest) = w :: pySplit rest := by
  unfold pySplit
  rw [List.splitOnP_first _ _ (fun d hd => by simp [hs d hd]) c hc, List.filter_cons,
    if_pos (by simpa using hw)]

lemma pyIsSpace_space : pyIsSpace ' ' = true := rfl

lemma pySplit_space {c : Char} (hc : pyIsSpace c = true) (rest : List Char) :
    pySplit (c :: rest) = pySplit rest := by
  simp [pySplit, hc]

lemma pySplit_spaces (k : ℕ) (rest : List Char) :
    pySplit (List.replicate k ' ' ++ rest) = pySplit rest := by
  induction k with
  | zero => rfl
  | succ k ih => exact (pySplit_space pyIsSpace_space _).trans ih

/-- The fields of a codec line: its flags, its name, then the words of its description. -/
lemma CodecLine.pySplit_text (e : CodecLine) :
    pySplit e.text = e.flags :: e.name :: pySplit e.description := by
  rw [CodecLine.text, List.cons_append, pySplit_space pyIsSpace_space,
    pySplit_field e.flags_ne e.flags_word pyIsSpace_space, List.replicate_succ, List.append_assoc,
    List.cons_append, pySplit_field e.name_ne e.name_word pyIsSpace_space, pySplit_spaces]

lemma CodecLine.listedName_text (e : CodecLine) :
    listedName e.text =
      if pyIsIdentifier e.name then some (String.mk (pyLower (String.mk e.name))) else none := by
  simp only [listedName, e.pySplit_text]

lemma CodecLine.text_line (e : CodecLine) : ∀ c ∈ e.text, pyIsLineBoundary c = false := by
  have hword : ∀ c, pyIsSpace c = false → pyIsLineBoundary c = false := fun c hc =>
    Bool.eq_false_iff.mpr fun h => by rw [pyIsSpace_of_pyIsLineBoundary h] at hc; cases hc
  intro c hc
  by_cases hsp : c = ' '
  · subst hsp; rfl
  simp only [CodecLine.text, List.cons_append, List.mem_cons, List.mem_append, List.mem_replicate,
    hsp, false_or, and_false, or_false] at hc
  rcases hc with hc | hc | hc
  · exact hword c (e.flags_word c hc)
  · exact hword c (e.name_word c hc)
  · exact e.description_line c hc

lemma codecLegend_line (encoder : Bool) :
    ∀ l ∈ codecLegend encoder, ∀ c ∈ l, pyIsLineBoundary c = false := by
  cases encoder <;> decide

/-- The codec lines add their names that are identifiers, in order. -/
lemma filterMap_listedName_text (lines : List CodecLine) :
    lines.filterMap (listedName ∘ CodecLine.text) =
      (lines.filter fun e => pyIsIdentifier e.name).map
        fun e => String.mk (pyLower (String.mk e.name)) := by
  induction lines with
  | nil => rfl
  | cons e lines ih =>
    rw [List.filterMap_cons, Function.comp_apply, e.listedName_text, List.filter_cons]
    split_ifs <;> simp [ih]

/-- **The names read from a listing of ffmpeg.** On every listing that `print_codecs` writes,
the legend and then codec lines, `_query_ffmpeg_list` reads exactly the names of the codec
lines that are identifiers, lowercased, in order. A codec whose name is not an identifier, such
as ffmpeg's decoders `012v`, `4xm` and `8bps`, is never in the set, so `_select_rkmpp_codecs`
never finds it. -/
theorem queryFfmpegList_listing (encoder : Bool) (lines : List CodecLine) :
    queryFfmpegList (some (String.mk (listing (codecLegend encoder ++ lines.map CodecLine.text)))) =
      (lines.filter fun e => pyIsIdentifier e.name).map
        fun e => String.mk (pyLower (String.mk e.name)) := by
  have hlegend : (codecLegend encoder).filterMap listedName = [] := by
    cases encoder <;> decide
  have hline : ∀ l ∈ codecLegend encoder ++ lines.map CodecLine.text, ∀ c ∈ l,
      pyIsLineBoundary c = false := by
    intro l hl
    rcases List.mem_append.mp hl with hl | hl
    · exact codecLegend_line encoder l hl
    · obtain ⟨e, -, rfl⟩ := List.mem_map.mp hl
      exact e.text_line
  rw [queryFfmpegList, String.toList, pySplitLines_listing hline, List.filterMap_append, hlegend,
    List.nil_append, List.filterMap_map, filterMap_listedName_text]

example : queryFfmpegList
    (some "Decoders:\n V....D 4xm                  4X Movie\n V..... h264_rkmpp           RKMPP\n") =
      ["h264_rkmpp"] := by
  decide

end MediaEngine
