import KaitoAutoIndexer.ControllerSpec

/-!
How a reconcile leaves the phase Running once every Job has finished.
-/

namespace KaitoAutoIndexer.Running

open KaitoAutoIndexer.Lib KaitoAutoIndexer.Types KaitoAutoIndexer.Conditions
open KaitoAutoIndexer.Cluster KaitoAutoIndexer.Controller KaitoAutoIndexer.ControllerSpec

/-- There are Jobs, none is active, and each has a start time of its own and has finished. -/
structure AllFinished (jobs : List Job) : Prop where
  nonempty : jobs ≠ []
  idle : ∀ j ∈ jobs, j.active = 0
  finished : ∀ j ∈ jobs, 0 < j.succeeded ∨ 0 < j.failed
  started : ∀ j ∈ jobs, j.startTime.isSome
  distinct : (jobs.map Job.startTime).Nodup

/-- The most recently started Job. -/
structure Latest (m : Job) (jobs : List Job) : Prop where
  mem : m ∈ jobs
  last : ∀ j ∈ jobs, j.startTime.getD 0 ≤ m.startTime.getD 0

/-- A finished Job has failed when no pod of it succeeded. -/
def hasFailed (j : Job) : Bool := decide (0 < j.failed) && j.succeeded == 0

/-- The phase to go to. -/
def expectedPhase (schedule : Option String) (latest : Job) : Phase :=
  if schedule.isSome then .scheduled else if hasFailed latest then .failed else .completed

/-- When the phase handler gets there. With a schedule some Job must have no failed pod.
Without one the latest Job either has no failed pod, or has failed and does not head the
list, or has pods of both kinds and heads a list in which another Job has no failed pod. -/
def Reported (schedule : Option String) (latest : Job) (jobs : List Job) : Prop :=
  if schedule.isSome then ∃ j ∈ jobs, j.failed = 0
  else latest.failed = 0 ∨ (latest.succeeded = 0 ∧ jobs.head? ≠ some latest) ∨
    (0 < latest.succeeded ∧ jobs.head? = some latest ∧ ∃ j ∈ jobs, j.failed = 0)

/-! ### The scan of the Jobs -/

lemma AllFinished.unique {jobs : List Job} (h : AllFinished jobs) {a b : Job} (ha : a ∈ jobs)
    (hb : b ∈ jobs) (hab : a.startTime = b.startTime) : a = b :=
  List.inj_on_of_nodup_map h.distinct ha hb hab

lemma Latest.unique {jobs : List Job} (h : AllFinished jobs) {a b : Job} (ha : Latest a jobs)
    (hb : Latest b jobs) : a = b := by
  refine h.unique ha.mem hb.mem ?_
  obtain ⟨s, hs⟩ := Option.isSome_iff_exists.mp (h.started a ha.mem)
  obtain ⟨t, ht⟩ := Option.isSome_iff_exists.mp (h.started b hb.mem)
  have h1 := ha.last b hb.mem
  have h2 := hb.last a ha.mem
  simp only [hs, ht, Option.getD_some] at h1 h2
  rw [hs, ht, le_antisymm h2 h1]

/-- The result `s` of scanning the finished Jobs `seen`, of which `head` came first and `m`
started last. A Job that comes first never counts as the latest one. -/
structure Scanned (head : Job) (seen : List Job) (m : Job) (s : JobScan) : Prop where
  running : s.running = 0
  failed : 0 < s.failed ↔ ∃ j ∈ seen, 0 < j.failed
  completed : 0 < s.completed ↔ ∃ j ∈ seen, j.failed = 0
  latestJobFailed : s.latestJobFailed = true ↔ m ≠ head ∧ 0 < m.failed
  last : s.lastJobTimestamp = m.startTime
  latest : Latest m seen

/-- The start time of the first Job is taken as the last one seen before it is compared. -/
lemma scanned_head {j : Job} (ha : j.active = 0) (hf : 0 < j.succeeded ∨ 0 < j.failed)
    (hs : j.startTime.isSome) : Scanned j [j] j (scanJob ⟨0, 0, 0, false, none⟩ j) := by
  obtain ⟨t, ht⟩ := Option.isSome_iff_exists.mp hs
  have hl : Latest j [j] := ⟨by simp, by simp⟩
  rcases Nat.eq_zero_or_pos j.failed with h | h
  · have hsucc : 0 < j.succeeded := hf.resolve_right (by simp [h])
    constructor <;> simp [scanJob, startedAfter, ht, ha, h, hsucc, hl]
  · have hne : j.failed ≠ 0 := by omega
    constructor <;> simp [scanJob, startedAfter, ht, ha, h, hne, hl]

lemma Scanned.step {head m j : Job} {seen : List Job} {s : JobScan} (h : Scanned head seen m s)
    (hm : m.startTime.isSome) (ha : j.active = 0) (hf : 0 < j.succeeded ∨ 0 < j.failed)
    (hs : j.startTime.isSome) (hj : j ≠ head) :
    ∃ m', Scanned head (seen ++ [j]) m' (scanJob s j) := by
  obtain ⟨tm, htm⟩ := Option.isSome_iff_exists.mp hm
  obtain ⟨t, ht⟩ := Option.isSome_iff_exists.mp hs
  obtain ⟨hrun, hfail, hcomp, hlatest, hlast, hmem, hmax⟩ := h
  by_cases hlater : tm < t
  · have hl : Latest j (seen ++ [j]) := by
      refine ⟨by simp, fun a ha' => ?_⟩
      rcases List.mem_append.mp ha' with ha' | ha'
      · have := hmax a ha'
        rw [htm] at this
        rw [ht]
        exact le_trans this hlater.le
      · rw [List.mem_singleton.mp ha']
    refine ⟨j, ?_⟩
    rcases Nat.eq_zero_or_pos j.failed with h0 | h0
    · have hsucc : 0 < j.succeeded := hf.resolve_right (by simp [h0])
      constructor <;> simp [scanJob, startedAfter, hlast, htm, ht, ha, h0, hsucc, hl, hlater, hrun,
        hfail, or_and_right, exists_or]
    · have hne : j.failed ≠ 0 := by omega
      constructor <;> simp [scanJob, startedAfter, hlast, htm, ht, ha, h0, hne, hl, hlater, hrun,
        hcomp, hj, or_and_right, exists_or]
  · have hl : Latest m (seen ++ [j]) := by
      refine ⟨by simp [hmem], fun a ha' => ?_⟩
      rcases List.mem_append.mp ha' with ha' | ha'
      · exact hmax a ha'
      · rw [List.mem_singleton.mp ha', ht, htm]
        exact Nat.le_of_not_lt hlater
    refine ⟨m, ?_⟩
    rcases Nat.eq_zero_or_pos j.failed with h0 | h0
    · have hsucc : 0 < j.succeeded := hf.resolve_right (by simp [h0])
      constructor <;> simp [scanJob, startedAfter, hlast, htm, ht, ha, h0, hsucc, hl, hlater, hrun,
        hfail, hlatest, or_and_right, exists_or]
    · have hne : j.failed ≠ 0 := by omega
      constructor <;> simp [scanJob, startedAfter, hlast, htm, ht, ha, h0, hne, hl, hlater, hrun,
        hcomp, hlatest, or_and_right, exists_or]

lemma Scanned.run {head : Job} (rest : List Job) {seen : List Job} {m : Job} {s : JobScan}
    (h : Scanned head seen m s) (hall : AllFinished (seen ++ rest)) (hhead : head ∈ seen) :
    ∃ m', Scanned head (seen ++ rest) m' (rest.foldl scanJob s) := by
  induction rest generalizing seen m s with
  | nil => exact ⟨m, by simpa using h⟩
  | cons j rest ih =>
    have hj : j ∈ seen ++ j :: rest := by simp
    have hne : j ≠ head := by
      rintro rfl
      have hd := hall.distinct
      rw [List.map_append, List.map_cons] at hd
      exact List.disjoint_of_nodup_append hd (List.mem_map_of_mem hhead) (by simp)
    obtain ⟨m', h'⟩ := h.step (hall.started m (by simp [h.latest.mem])) (hall.idle j hj)
      (hall.finished j hj) (hall.started j hj) hne
    have hassoc : seen ++ j :: rest = seen ++ [j] ++ rest := by simp
    rw [hassoc] at hall ⊢
    exact ih h' hall (by simp [hhead])

lemma scanned_scanJobs {head : Job} {rest : List Job} {m : Job} (hall : AllFinished (head :: rest))
    (hm : Latest m (head :: rest)) : Scanned head (head :: rest) m (scanJobs (head :: rest)) := by
  have hmem : head ∈ head :: rest := by simp
  have h := scanned_head (hall.idle head hmem) (hall.finished head hmem) (hall.started head hmem)
  obtain ⟨m', h'⟩ := h.run rest (by simpa using hall) (by simp)
  have h' : Scanned head (head :: rest) m' (scanJobs (head :: rest)) := h'
  rwa [hm.unique hall h'.latest]

/-! ### The phase handler -/

/-- The phase after the handler, when no Job runs. -/
def phaseAfter (schedule : Option String) (s : JobScan) : Phase :=
  if 0 < s.failed ∧ s.latestJobFailed ∧ schedule = none then .failed
  else if 0 < s.completed then if schedule.isSome then .scheduled else .completed
  else .running

lemma handleRunningPhase_runs {mayFail : Prop} {o : AutoIndexer} {w : World}
    (hp : o.status.indexingPhase = .running) (hr : (scanJobs w.jobs).running = 0) :
    Runs (Serves mayFail) (fun r w' => w' = w ∧
      (r.2 = none → r.1 = updateStatus o (phaseAfter o.spec.schedule (scanJobs w.jobs)) []) ∧
      (¬ mayFail → r.2 = none)) (handleRunningPhase o) w := by
  refine (getJobStatus_runs w).bind ?_
  rintro r w' ⟨rfl, h1, h2⟩
  cases r with
  | error e => exact ⟨rfl, by simp, fun h => by simpa using h2 h⟩
  | ok s =>
    obtain rfl := h1 s rfl
    have hsame : o = updateStatus o .running [] := by
      simp [updateStatus, AutoIndexer.withStatus, ← hp]
    simp only [hr, phaseAfter, if_true]
    split
    · exact ⟨rfl, fun _ => rfl, fun _ => rfl⟩
    · split
      · split <;> exact ⟨rfl, fun _ => rfl, fun _ => rfl⟩
      · exact ⟨rfl, fun _ => hsame, fun _ => rfl⟩

lemma phaseAfter_eq_iff {schedule : Option String} {jobs : List Job} {m : Job}
    (hall : AllFinished jobs) (hm : Latest m jobs) :
    phaseAfter schedule (scanJobs jobs) = expectedPhase schedule m ↔ Reported schedule m jobs := by
  obtain ⟨head, rest, rfl⟩ := List.exists_cons_of_ne_nil hall.nonempty
  obtain ⟨-, hfail, hcomp, hlatest, -, -⟩ := scanned_scanJobs hall hm
  have hfin := hall.finished m hm.mem
  have hex : 0 < m.failed → ∃ j ∈ head :: rest, 0 < j.failed := fun h => ⟨m, hm.mem, h⟩
  have hex' : m.failed = 0 → ∃ j ∈ head :: rest, j.failed = 0 := fun h => ⟨m, hm.mem, h⟩
  rw [← hfail] at hex
  rw [← hcomp] at hex'
  unfold phaseAfter expectedPhase Reported hasFailed
  simp only [← hcomp, hlatest]
  cases schedule with
  | some sch => by_cases hc : 0 < (scanJobs (head :: rest)).completed <;> simp [hc]
  | none =>
    have hhead : (head :: rest).head? = some m ↔ m = head := by simp [eq_comm]
    simp only [ne_eq, hhead]
    rcases Nat.eq_zero_or_pos m.failed with h0 | h0
    · have hc := hex' h0
      simp [h0, hc]
    · have hne : m.failed ≠ 0 := by omega
      rcases Nat.eq_zero_or_pos m.succeeded with hs | hs
      · rcases eq_or_ne m head with rfl | hmh
        · by_cases hc : 0 < (scanJobs (m :: rest)).completed <;> simp [h0, hne, hs, hc]
        · simp [h0, hne, hs, hmh, hex h0]
      · rcases eq_or_ne m head with rfl | hmh
        · by_cases hc : 0 < (scanJobs (m :: rest)).completed <;> simp [hne, hs, hs.ne', hc]
        · simp [h0, hne, hs, hs.ne', hmh, hex h0]

/-- **When every Job has finished, one reconcile leaves Running for the phase that the latest
Job and the schedule call for if and only if `Reported`.** -/
theorem reconcile_running_iff {w : World} {o : AutoIndexer} {m : Job}
    (hw : w.stored = some o) (hd : o.deletionTimestamp = none)
    (hp : o.status.indexingPhase = .running) (hr : o.spec.ragEngine ∈ w.ragEngines)
    (hall : AllFinished w.jobs) (hm : Latest m w.jobs) :
    (∃ o', (reconcile.exec serve w).2.stored = some o' ∧
      o'.status.indexingPhase = expectedPhase o.spec.schedule m) ↔
    Reported o.spec.schedule m w.jobs := by
  have hscan : (scanJobs w.jobs).running = 0 := by
    obtain ⟨head, rest, hj⟩ := List.exists_cons_of_ne_nil hall.nonempty
    rw [hj] at hall hm ⊢
    exact (scanned_scanJobs hall hm).running
  have h := Runs.exec (S := Serves False) (reconcile_runs hw hd
    (R := fun m s _ => m.status.indexingPhase = phaseAfter o.spec.schedule (scanJobs w.jobs)) ?_)
    (serves_serve False)
  · obtain ⟨m', s, s', w1, hR, hs', -, -, -, -, hw'⟩ := h.1 (h.2 not_false hr)
    have hphase : s'.status.indexingPhase = phaseAfter o.spec.schedule (scanJobs w.jobs) := by
      rw [hs']
      exact hR
    rw [hw', ← phaseAfter_eq_iff hall hm, ← hphase]
    simp
  · intro o1 w1 ho1 hw1
    have hp1 : o1.status.indexingPhase = .running := by rw [ho1.status, hp]
    obtain ⟨cs, rfl⟩ := hw1
    have hphase : handlePhase (withResources o1 w.clock) =
        handleRunningPhase (withResources o1 w.clock) := by
      simp [handlePhase, withResources, withCondition, AutoIndexer.withStatus, hp1]
    rw [hphase]
    refine (handleRunningPhase_runs (w := { w with stored := some o1, children := cs })
      (o := withResources o1 w.clock) hp1 hscan).mono ?_
    rintro ⟨m', e⟩ w' ⟨rfl, h1, h2⟩
    refine ⟨fun he => ?_, h2⟩
    obtain rfl := h1 he
    refine ⟨o1, rfl, rfl, .inl rfl, ?_⟩
    simp [updateStatus, AutoIndexer.withStatus, withResources, withCondition, ho1.spec]

/-- A world in which the Jobs given by their pod counts and start times have finished. -/
def jobsWorld (jobs : List (ℕ × ℕ × Time)) : World :=
  { demoWorld with
    jobs := jobs.map fun (succeeded, failed, t) =>
      ⟨"docs-job", 0, succeeded, failed, some t, demoTemplate⟩ }

theorem reconcile_running_two_jobs :
    (∃ o', (reconcile.exec serve (jobsWorld [(0, 1, 5), (1, 0, 9)])).2.stored = some o' ∧
      o'.status.indexingPhase =
        expectedPhase none ⟨"docs-job", 0, 1, 0, some 9, demoTemplate⟩) ↔
    Reported none ⟨"docs-job", 0, 1, 0, some 9, demoTemplate⟩
      (jobsWorld [(0, 1, 5), (1, 0, 9)]).jobs :=
  reconcile_running_iff (o := demo) rfl rfl rfl (by decide)
    ⟨by decide, by decide, by decide, by decide, by decide⟩ ⟨by decide, by decide⟩

/-- A single Job that has failed keeps the phase at Running. -/
theorem not_reconcile_leaves_running :
    ¬ ∀ (w : World) (o : AutoIndexer) (m : Job), w.stored = some o → o.deletionTimestamp = none →
      o.status.indexingPhase = .running → o.spec.ragEngine ∈ w.ragEngines →
      AllFinished w.jobs → Latest m w.jobs →
      ∃ o', (reconcile.exec serve w).2.stored = some o' ∧
        o'.status.indexingPhase = expectedPhase o.spec.schedule m := by
  intro h
  obtain ⟨o', ho', hp⟩ := h (jobsWorld [(0, 1, 5)]) demo
    ⟨"docs-job", 0, 0, 1, some 5, demoTemplate⟩ rfl rfl rfl (by decide)
    ⟨by decide, by decide, by decide, by decide, by decide⟩ ⟨by decide, by decide⟩
  have hphase : (reconcile.exec serve (jobsWorld [(0, 1, 5)])).2.stored.map
      (·.status.indexingPhase) = some .running := by decide
  rw [ho', Option.map_some, hp] at hphase
  exact absurd hphase (by decide)

end KaitoAutoIndexer.Running
