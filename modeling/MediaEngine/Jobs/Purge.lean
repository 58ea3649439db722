import MediaEngine.Jobs.Manager

set_option autoImplicit false

/-!
# `purge_expired_jobs`

The maintenance loop's purge: which records it removes, and what happens when the cutoff
overflows or an `unlink` of a removed job's file raises.

## Main definitions

* `MediaEngine.UnlinksRaise` — the `unlink`s of a popped record raise past
  `suppress(FileNotFoundError)`.

## Main results

* `MediaEngine.purgeLoop_eq` — the loop changes only the keys of `self.records` and the files:
  it drops a prefix of the ids it iterates over.
* `MediaEngine.purgeExpiredJobs_spec` — an `OverflowError` of the cutoff escapes before any key
  is popped; otherwise purge pops the expired keys in order, returns when no popped record's
  `unlink`s raise, and raises the error of the first one whose `unlink`s do, with the keys
  after it kept. Any escape ends the maintenance loop for good.
* `MediaEngine.purgeExpiredJobs_raises` — the escape, on one expired job whose upload cannot
  be deleted.
* `MediaEngine.Step.key_mem` — no step but a purge takes a key out of `self.records`.
-/

namespace MediaEngine

variable (unlink : Path → UnlinkOutcome)

/-- The `unlink`s of a popped record raise `e` past `suppress(FileNotFoundError)`: the upload's
raises `e`, or the upload's returns and the output's raises `e`. -/
def UnlinksRaise (r : JobRecord) (e : String) : Prop :=
  unlink r.sourcePath = .osError e ∨
    (∀ e', unlink r.sourcePath ≠ .osError e') ∧
      ∃ out, r.outputPath = some out ∧ unlink out = .osError e

/-- One iteration pops the key and changes nothing but the files. -/
lemma purgeOne_eq (s : JobManager) (j : ℕ) :
    ∃ files, (purgeOne unlink s j).1 =
      { s with records := s.records.filter (· ≠ j), files := files } := by
  unfold purgeOne
  split
  · exact ⟨_, rfl⟩
  · exact ⟨s.files, rfl⟩

lemma unlinkRecordFiles_snd_eq_some (files : Path → Bool) (r : JobRecord) (e : String) :
    (unlinkRecordFiles unlink files r).2 = some e ↔ UnlinksRaise unlink r e := by
  unfold unlinkRecordFiles UnlinksRaise
  cases hs : unlink r.sourcePath with
  | osError e' => simp [unlinkSuppressed, eq_comm]
  | removed | fileNotFound =>
    cases ho : r.outputPath with
    | none => simp [unlinkSuppressed]
    | some out => cases hu : unlink out <;> simp [unlinkSuppressed, hu, eq_comm]

/-- An iteration raises exactly what the `unlink`s of the record it pops raise. -/
lemma purgeOne_snd_eq_some (s : JobManager) (j : ℕ) (e : String) :
    (purgeOne unlink s j).2 = some e ↔ ∃ r, s.heap j = some r ∧ UnlinksRaise unlink r e := by
  unfold purgeOne
  split
  · next r hr => simp [hr, unlinkRecordFiles_snd_eq_some]
  · next hr => simp [hr]

/-- The loop drops the keys of a prefix of the ids it iterates over and changes nothing but
the files; when nothing escapes, it drops them all. -/
lemma purgeLoop_eq : ∀ (s : JobManager) (js : List ℕ),
    ∃ popped files, popped <+: js ∧
      ((purgeLoop unlink s js).2 = none → popped = js) ∧
      (purgeLoop unlink s js).1 =
        { s with records := s.records.filter (· ∉ popped), files := files }
  | s, [] => ⟨[], s.files, List.nil_prefix, fun _ => rfl, by simp [purgeLoop]⟩
  | s, j :: js => by
    obtain ⟨files, hone⟩ := purgeOne_eq unlink s j
    unfold purgeLoop
    split
    · next s' e heq =>
      rw [heq] at hone
      refine ⟨[j], files, ?_, ?_, ?_⟩
      · simp
      · intro h; cases h
      · simp only at hone; simp [hone]
    · next s' heq =>
      obtain ⟨popped, files', hpre, hall, hloop⟩ := purgeLoop_eq s' js
      refine ⟨j :: popped, files', List.cons_prefix_cons.2 ⟨rfl, hpre⟩,
        fun h => by rw [hall h], ?_⟩
      rw [hloop]; rw [heq] at hone; simp only at hone
      simp only [hone, List.filter_filter, JobManager.mk.injEq, and_true, true_and]
      exact List.filter_congr fun _ _ => by simp [Bool.and_comm]

@[simp]
lemma purgeOne_heap (s : JobManager) (j : ℕ) : (purgeOne unlink s j).1.heap = s.heap := by
  obtain ⟨files, h⟩ := purgeOne_eq unlink s j
  rw [h]

@[simp]
lemma purgeOne_records (s : JobManager) (j : ℕ) :
    (purgeOne unlink s j).1.records = s.records.filter (· ≠ j) := by
  obtain ⟨files, h⟩ := purgeOne_eq unlink s j
  rw [h]

/-- An iteration returns when the `unlink`s of the record it pops raise nothing. -/
lemma purgeOne_ok {s : JobManager} {k : ℕ}
    (hk : ∀ r, s.heap k = some r → ∀ e, ¬ UnlinksRaise unlink r e) : (purgeOne unlink s k).2 = none := by
  cases h : (purgeOne unlink s k).2 with
  | none => rfl
  | some e =>
    obtain ⟨r, hr, hu⟩ := (purgeOne_snd_eq_some unlink s k e).mp h
    exact (hk r hr e hu).elim

/-- The loop goes on after an iteration that returns. -/
lemma purgeLoop_cons_of_ok {s : JobManager} {k : ℕ} (js : List ℕ)
    (h : (purgeOne unlink s k).2 = none) :
    purgeLoop unlink s (k :: js) = purgeLoop unlink (purgeOne unlink s k).1 js := by
  rcases hpo : purgeOne unlink s k with ⟨s', _ | e⟩
  · simp only [purgeLoop, hpo]
  · rw [hpo] at h; cases h

/-- The loop ends at an iteration that raises. -/
lemma purgeLoop_cons_of_error {s : JobManager} {k : ℕ} {e : String} (js : List ℕ)
    (h : (purgeOne unlink s k).2 = some e) : purgeLoop unlink s (k :: js) = purgeOne unlink s k := by
  rcases hpo : purgeOne unlink s k with ⟨s', _ | e'⟩
  · rw [hpo] at h; cases h
  · simp only [purgeLoop, hpo]

/-- The loop raises only the error of a key whose record's `unlink`s raise it. -/
lemma purgeLoop_error : ∀ {s : JobManager} {js : List ℕ} {e : String},
    (purgeLoop unlink s js).2 = some e → ∃ k ∈ js, ∃ r, s.heap k = some r ∧ UnlinksRaise unlink r e
  | s, [], e, h => by simp [purgeLoop] at h
  | s, j :: js, e, h => by
    cases hpo : (purgeOne unlink s j).2 with
    | some e' =>
      rw [purgeLoop_cons_of_error unlink js hpo] at h
      obtain ⟨r, hr, hu⟩ := (purgeOne_snd_eq_some unlink s j e).mp h
      exact ⟨j, List.mem_cons_self _ _, r, hr, hu⟩
    | none =>
      rw [purgeLoop_cons_of_ok unlink js hpo] at h
      obtain ⟨k, hk, r, hr, hu⟩ := purgeLoop_error h
      exact ⟨k, List.mem_cons_of_mem _ hk, r, by rwa [purgeOne_heap] at hr, hu⟩

/-- When no record of the ids it iterates over raises, the loop returns. -/
lemma purgeLoop_ok (s : JobManager) (js : List ℕ)
    (hjs : ∀ k ∈ js, ∀ r, s.heap k = some r → ∀ e, ¬ UnlinksRaise unlink r e) :
    (purgeLoop unlink s js).2 = none := by
  cases h : (purgeLoop unlink s js).2 with
  | none => rfl
  | some e =>
    obtain ⟨k, hk, r, hr, hu⟩ := purgeLoop_error unlink h
    exact (hjs k hk r hr e hu).elim

/-- The loop pops the ids whose records' `unlink`s return; at the first whose `unlink`s raise,
it pops that id too and raises, and the ids after it stay. -/
lemma purgeLoop_raise {j : ℕ} {r : JobRecord} {e : String} {rest : List ℕ} :
    ∀ (s : JobManager) (popped : List ℕ),
      (∀ k ∈ popped, ∀ r', s.heap k = some r' → ∀ e', ¬ UnlinksRaise unlink r' e') →
      s.heap j = some r → UnlinksRaise unlink r e →
      (purgeLoop unlink s (popped ++ j :: rest)).2 = some e ∧
        (purgeLoop unlink s (popped ++ j :: rest)).1.records =
          s.records.filter (· ∉ popped ++ [j]) ∧
        (purgeLoop unlink s (popped ++ j :: rest)).1.heap = s.heap
  | s, [], _, hj, hu => by
    have herr := (purgeOne_snd_eq_some unlink s j e).mpr ⟨r, hj, hu⟩
    rw [List.nil_append, purgeLoop_cons_of_error unlink rest herr, purgeOne_records]
    exact ⟨herr, List.filter_congr fun _ _ => by simp, purgeOne_heap unlink s j⟩
  | s, k :: popped, hpop, hj, hu => by
    have hok := purgeOne_ok unlink (hpop k (List.mem_cons_self _ _))
    obtain ⟨herr, hrec, hheap⟩ := purgeLoop_raise (purgeOne unlink s k).1 popped
      (fun k' hk' r' hr' => hpop k' (List.mem_cons_of_mem _ hk') r' (by rwa [purgeOne_heap] at hr'))
      (by rwa [purgeOne_heap]) hu
    rw [List.cons_append, purgeLoop_cons_of_ok unlink _ hok]
    refine ⟨herr, ?_, by rw [hheap, purgeOne_heap]⟩
    rw [hrec, purgeOne_records, List.filter_filter]
    exact List.filter_congr fun _ _ => by simp [Bool.and_comm]

/-- `purge_expired_jobs` changes only the keys of `self.records` and the files. -/
lemma purgeExpiredJobs_eq (settings : Settings) (s : JobManager) :
    ∃ (popped : List ℕ) (files : Path → Bool), (purgeExpiredJobs settings unlink s).1 =
      { s with records := s.records.filter (· ∉ popped), files := files } := by
  unfold purgeExpiredJobs
  split
  · exact ⟨[], s.files, by simp⟩
  · obtain ⟨popped, files, -, -, h⟩ := purgeLoop_eq unlink s
      (s.records.filter fun j => s.Expired settings j)
    exact ⟨popped, files, h⟩

/-- A key purge takes out of `self.records` was expired. -/
lemma purgeExpiredJobs_popped (settings : Settings) (s : JobManager) {j : ℕ} (hj : j ∈ s.records)
    (hj' : j ∉ (purgeExpiredJobs settings unlink s).1.records) : s.Expired settings j := by
  unfold purgeExpiredJobs at hj'
  split at hj'
  · exact (hj' hj).elim
  · obtain ⟨popped, files, hpre, -, h⟩ := purgeLoop_eq unlink s
      (s.records.filter fun j => s.Expired settings j)
    rw [h] at hj'
    have hmem : j ∈ popped := by
      by_contra hn
      exact hj' (List.mem_filter.2 ⟨hj, by simpa using hn⟩)
    exact of_decide_eq_true (List.mem_filter.1 (hpre.subset hmem)).2

/-! ## The files a purge deletes -/

/-- `unlink` inside `suppress(FileNotFoundError)` deletes at most its own path. -/
lemma unlinkSuppressed_files (files : Path → Bool) (q : Path) (o : UnlinkOutcome) (p : Path) :
    (unlinkSuppressed files q o).1 p = files p ∨ p = q := by
  by_cases hpq : p = q
  · exact .inr hpq
  · cases o <;> simp [unlinkSuppressed, Function.update_noteq hpq]

/-- The `unlink`s of a popped record delete at most its upload and its output. -/
lemma unlinkRecordFiles_files (files : Path → Bool) (r : JobRecord) (p : Path) :
    (unlinkRecordFiles unlink files r).1 p = files p ∨ p = r.sourcePath ∨ r.outputPath = some p := by
  have hsrc := unlinkSuppressed_files files r.sourcePath (unlink r.sourcePath) p
  unfold unlinkRecordFiles
  split
  · next files' e heq => rw [heq] at hsrc; exact hsrc.imp_right .inl
  · next files' heq =>
    rw [heq] at hsrc
    split
    · next out hout =>
      rcases unlinkSuppressed_files files' out (unlink out) p with h | rfl
      · rcases hsrc with h' | h'
        exacts [.inl (h.trans h'), .inr (.inl h')]
      · exact .inr (.inr hout)
    · exact hsrc.imp_right .inl

/-- One iteration deletes at most the upload and the output of the record it pops. -/
lemma purgeOne_files (s : JobManager) (j : ℕ) (p : Path) :
    (purgeOne unlink s j).1.files p = s.files p ∨
      ∃ r, s.heap j = some r ∧ (p = r.sourcePath ∨ r.outputPath = some p) := by
  unfold purgeOne
  split
  · next r hr => exact (unlinkRecordFiles_files unlink s.files r p).imp_right fun h => ⟨r, hr, h⟩
  · exact .inl rfl

/-- The loop deletes only the upload or the output of a record whose key it pops. -/
lemma purgeLoop_files : ∀ (s : JobManager) (js : List ℕ) (p : Path),
    (purgeLoop unlink s js).1.files p = s.files p ∨
      ∃ k ∈ js, k ∉ (purgeLoop unlink s js).1.records ∧
        ∃ r, s.heap k = some r ∧ (p = r.sourcePath ∨ r.outputPath = some p)
  | s, [], p => .inl rfl
  | s, j :: js, p => by
    obtain ⟨files, hone⟩ := purgeOne_eq unlink s j
    have hj : j ∉ (purgeOne unlink s j).1.records := by rw [hone]; simp
    have hheap : (purgeOne unlink s j).1.heap = s.heap := by rw [hone]
    have hfiles := purgeOne_files unlink s j p
    unfold purgeLoop
    split
    · next s' e heq =>
      rw [heq] at hj hfiles
      exact hfiles.imp_right fun ⟨r, hr, hp⟩ => ⟨j, List.mem_cons_self _ _, hj, r, hr, hp⟩
    · next s' heq =>
      rw [heq] at hj hheap hfiles
      obtain ⟨popped, files', -, -, hloop⟩ := purgeLoop_eq unlink s' js
      have hgone : j ∉ (purgeLoop unlink s' js).1.records := fun hj' =>
        hj (by rw [hloop] at hj'; exact List.mem_of_mem_filter hj')
      rcases purgeLoop_files s' js p with h | ⟨k, hk, hkr, r, hr, hp⟩
      · rcases hfiles with h' | ⟨r, hr, hp⟩
        · exact .inl (h.trans h')
        · exact .inr ⟨j, List.mem_cons_self _ _, hgone, r, hr, hp⟩
      · exact .inr ⟨k, List.mem_cons_of_mem _ hk, hkr, r, hheap ▸ hr, hp⟩

/-- `purge_expired_jobs` deletes only the upload or the output of a record whose key it pops
from `self.records`. -/
lemma purgeExpiredJobs_files (settings : Settings) (s : JobManager) (p : Path) :
    (purgeExpiredJobs settings unlink s).1.files p = s.files p ∨
      ∃ k ∈ s.records, k ∉ (purgeExpiredJobs settings unlink s).1.records ∧
        ∃ r, s.heap k = some r ∧ (p = r.sourcePath ∨ r.outputPath = some p) := by
  unfold purgeExpiredJobs
  split
  · exact .inl rfl
  · exact (purgeLoop_files unlink s _ p).imp_right fun ⟨k, hk, h⟩ =>
      ⟨k, List.mem_of_mem_filter hk, h⟩

/-- Once the maintenance loop has ended, no step restarts it. -/
lemma Step.maintenanceAlive_false {settings : Settings} {s t : JobManager} (h : Step settings s t)
    (hs : s.maintenanceAlive = false) : t.maintenanceAlive = false := by
  cases h with
  | purge _ halive => rw [hs] at halive; cases halive
  | persistDone =>
    unfold MediaEngine.persistDone JobManager.put; split <;> exact hs
  | dequeue =>
    unfold MediaEngine.dequeue; split
    · split <;> exact hs
    · exact hs
  | transcodeOk =>
    unfold MediaEngine.transcodeOk fireCallback; split
    · split <;> exact hs
    · exact hs
  | transcodeFail =>
    unfold MediaEngine.transcodeFail fireCallback; split
    · split <;> exact hs
    · exact hs
  | cancel j =>
    unfold cancelJob; split
    · split
      · split <;> exact hs
      · exact hs
    · exact hs
  | engineDuration | engineProgress | engineFinalSeconds =>
    unfold JobManager.modifyRecord; split <;> exact hs
  | _ => first | exact hs | rfl

/-- No step takes a key out of `self.records` but a run of `purge_expired_jobs`, and that
takes out only keys whose records it finds expired. -/
lemma Step.key_mem {settings : Settings} {s t : JobManager} {j : ℕ} (hst : Step settings s t)
    (hj : j ∈ s.records) (hj' : j ∉ t.records) :
    ∃ unlink, s.maintenanceAlive = true ∧
      t = { (purgeExpiredJobs settings unlink s).1 with
        maintenanceAlive := (purgeExpiredJobs settings unlink s).2.isNone } ∧
      s.Expired settings j := by
  cases hst with
  | purge unlink halive => exact ⟨unlink, halive, rfl, purgeExpiredJobs_popped unlink settings s hj hj'⟩
  | persistDone =>
    refine (hj' ?_).elim
    unfold MediaEngine.persistDone JobManager.put
    split <;> exact mem_insertKey.2 (.inl hj)
  | dequeue =>
    unfold MediaEngine.dequeue at hj'; (repeat' split at hj') <;> exact (hj' hj).elim
  | transcodeOk =>
    unfold MediaEngine.transcodeOk fireCallback at hj'; (repeat' split at hj') <;> exact (hj' hj).elim
  | transcodeFail =>
    unfold MediaEngine.transcodeFail fireCallback at hj'; (repeat' split at hj') <;> exact (hj' hj).elim
  | cancel =>
    unfold cancelJob at hj'; (repeat' split at hj') <;> exact (hj' hj).elim
  | engineDuration | engineProgress | engineFinalSeconds =>
    unfold JobManager.modifyRecord at hj'; split at hj' <;> exact (hj' hj).elim
  | _ => exact (hj' hj).elim

/-- **`purge_expired_jobs` and its exceptions.** For every state, clock and retention, and
every outcome of the `unlink` calls:
* when `datetime.utcnow() - timedelta(minutes=job_retention_minutes)` overflows, purge raises
  the `OverflowError` and changes nothing;
* otherwise, when no `unlink` of an expired record raises past `FileNotFoundError`, purge
  returns, removes exactly the keys of the records with `updated_at < cutoff`, and changes no
  record; and when the expired keys, in order, are `popped ++ j :: rest`, the `unlink`s of the
  records of `popped` return and those of `j` raise `e`, purge raises `e` with the keys of
  `popped` and `j` removed and those of `rest` kept;
* an exception that escapes purge ends the maintenance loop, which then never purges again in
  any run. -/
theorem purgeExpiredJobs_spec (settings : Settings) (s : JobManager) :
    (∀ e, cutoffOverflow settings s.clock = some e →
      purgeExpiredJobs settings unlink s = (s, some e)) ∧
    (cutoffOverflow settings s.clock = none →
      ((∀ k ∈ s.records, s.Expired settings k → ∀ r, s.heap k = some r →
          ∀ e, ¬ UnlinksRaise unlink r e) →
        (purgeExpiredJobs settings unlink s).2 = none ∧
        (purgeExpiredJobs settings unlink s).1.records =
          s.records.filter (fun j => ¬ s.Expired settings j) ∧
        (purgeExpiredJobs settings unlink s).1.heap = s.heap) ∧
      ∀ popped j rest r e, s.records.filter (fun k => s.Expired settings k) = popped ++ j :: rest →
        (∀ k ∈ popped, ∀ r', s.heap k = some r' → ∀ e', ¬ UnlinksRaise unlink r' e') →
        s.heap j = some r → UnlinksRaise unlink r e →
        (purgeExpiredJobs settings unlink s).2 = some e ∧
        (purgeExpiredJobs settings unlink s).1.records = s.records.filter (· ∉ popped ++ [j]) ∧
        (purgeExpiredJobs settings unlink s).1.heap = s.heap) ∧
    ∀ e, (purgeExpiredJobs settings unlink s).2 = some e →
      ∀ t, Relation.ReflTransGen (Step settings)
        { (purgeExpiredJobs settings unlink s).1 with
          maintenanceAlive := (purgeExpiredJobs settings unlink s).2.isNone } t →
        t.maintenanceAlive = false := by
  refine ⟨fun e he => by simp [purgeExpiredJobs, he], fun hc => ⟨fun hu => ?_, ?_⟩,
    fun e he t ht => ?_⟩
  · have hjs : ∀ k ∈ s.records.filter (fun k => s.Expired settings k), ∀ r, s.heap k = some r →
        ∀ e, ¬ UnlinksRaise unlink r e := fun k hk =>
      hu k (List.mem_filter.1 hk).1 (of_decide_eq_true (List.mem_filter.1 hk).2)
    obtain ⟨popped, files, -, hall, hloop⟩ := purgeLoop_eq unlink s
      (s.records.filter fun j => s.Expired settings j)
    have hok := purgeLoop_ok unlink s _ hjs
    simp only [purgeExpiredJobs, hc]
    refine ⟨hok, ?_, by rw [hloop]⟩
    rw [hloop, hall hok]
    exact List.filter_congr fun j hj => by simp [List.mem_filter, hj]
  · intro popped j rest r e hfilter hpop hj hu
    simp only [purgeExpiredJobs, hc, hfilter]
    exact purgeLoop_raise unlink s popped hpop hj hu
  · induction ht with
    | refl => simp [he]
    | tail _ hstep ih => exact hstep.maintenanceAlive_false ih

/-- Purge raises: with one record expired by two hours and a microsecond and an upload whose
deletion raises `PermissionError`, purge raises it; and with a retention of `2^31 * 1440`
minutes, the cutoff itself raises `OverflowError` before anything is popped. -/
theorem purgeExpiredJobs_raises :
    let s : JobManager := { JobManager.init with
      clock := 7200000001
      heap := fun j => if j = 0 then some (newRecord 0 "clip.mp4" {} 0 0 0) else none
      records := [0] }
    (purgeExpiredJobs {} (fun _ => .osError "PermissionError") s).2 = some "PermissionError" ∧
      purgeExpiredJobs { jobRetentionMinutes := 2147483648 * 1440 } (fun _ => .removed) s =
        (s, some "Python int too large to convert to C int") :=
  ⟨rfl, rfl⟩

/-! ## Purge and pending jobs -/

/-- Purge drops jobs the worker has yet to process, or is processing: some reachable state has
a queued work item and a job being transcoded whose records are gone from `self.records` and
whose uploads are deleted. With the default retention of two hours, job 0 being transcoded and
job 1 waiting in the queue, both last updated at time 0, a purge two hours and a microsecond
later removes both keys and deletes both uploads, while job 1's work item stays queued and the
worker goes on transcoding job 0. -/
theorem purge_drops_pending_jobs :
    ∃ u : JobManager, Reachable {} u ∧
      u.queue = [⟨1, {}⟩] ∧ (u.heap 1).map (·.status) = some .queued ∧ 1 ∉ u.records ∧
      u.files (.input 1 "b.mp4") = false ∧
      u.worker = .transcoding ⟨0, {}⟩ ∧ (u.heap 0).map (·.status) = some .processing ∧
      0 ∉ u.records ∧ u.files (.input 0 "a.mp4") = false :=
  ⟨_, .tail (.tail (.tail (.tail (.tail (.tail (.single (.submitBegin _ "a.mp4" {}))
    (.persistDone _ 0 "a.mp4" {} 0 0 rfl)) (.dequeue _ ⟨0, {}⟩ [] rfl rfl))
    (.submitBegin _ "b.mp4" {}))
    (.persistDone _ 1 "b.mp4" {} 0 0 rfl)) (.tick _ 7200000001)) (.purge _ (fun _ => .removed) rfl),
    rfl, rfl, by decide, rfl, rfl, rfl, by decide, rfl⟩

end MediaEngine
