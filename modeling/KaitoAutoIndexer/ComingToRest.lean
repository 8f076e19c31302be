import KaitoAutoIndexer.Retries

/-!
Reconciles with nobody else at work. What a reconcile makes of the phase and of `suspend` is a
function of a few things that stay as they are, and this function comes to rest after four turns.
-/

namespace KaitoAutoIndexer.ComingToRest

open KaitoAutoIndexer.Lib KaitoAutoIndexer.Types
open KaitoAutoIndexer.Cluster KaitoAutoIndexer.Controller KaitoAutoIndexer.ControllerSpec
open KaitoAutoIndexer.ControllerCalls (resetStatus Allowed Makes makes_ensureFinalizer makes_pure
  makes_syncAutoIndexer)

/-! ### Situations -/

/-- What a reconcile goes by. -/
structure Situation where
  phase : Phase
  suspend : Option Bool
  scheduled : Bool
  detected : Bool
  policy : Option Strategy
  /-- A Job is active. -/
  busy : Bool
  /-- Jobs have failed, the latest one among them. -/
  failing : Bool
  /-- A Job has succeeded. -/
  done : Bool
  deriving DecidableEq

def Situation.suspended (v : Situation) : Bool := v.suspend == some true

/-- The next phase, and the next value of `suspend`. -/
def Situation.turn (v : Situation) : Phase × Option Bool :=
  match v.phase with
  | .unset => (.pending, v.suspend)
  | .pending =>
    if v.scheduled then (if v.suspended then .suspended else .scheduled, v.suspend)
    else (.running, v.suspend)
  | .scheduled =>
    if v.suspended then (.suspended, v.suspend)
    else if v.busy then (.running, v.suspend)
    else if v.detected ∧ v.policy ≠ none ∧ v.policy ≠ some .ignore then (.driftRemediation, v.suspend)
    else (.scheduled, v.suspend)
  | .suspended => if v.suspended then (.suspended, v.suspend) else (.scheduled, v.suspend)
  | .running =>
    if v.busy then (.running, v.suspend)
    else if v.failing ∧ ¬ v.scheduled then (.failed, v.suspend)
    else if v.done then (if v.scheduled then .scheduled else .completed, v.suspend)
    else (.running, v.suspend)
  | .completed => (.completed, v.suspend)
  | .failed => (.failed, v.suspend)
  | .driftRemediation =>
    if v.policy = some .ignore then (.pending, v.suspend)
    else if ¬ v.detected then
      if v.suspended then (.driftRemediation, some false) else (.pending, v.suspend)
    else if v.policy = some .auto ∧ ¬ v.suspended then (.driftRemediation, some true)
    else (.driftRemediation, v.suspend)

def Situation.next (v : Situation) : Situation := { v with phase := v.turn.1, suspend := v.turn.2 }

/-- How many turns there are to come. -/
def Situation.rank (v : Situation) : ℕ :=
  let running := if v.busy then 0 else if v.failing || v.done then 1 else 0
  let remediation := if v.detected && v.policy == some .auto then 1 else 0
  let scheduled :=
    if v.busy then 1
    else if v.detected && v.policy != none && v.policy != some .ignore then 1 + remediation
    else 0
  let pending := if v.scheduled then if v.suspended then 1 else 1 + scheduled else 1 + running
  match v.phase with
  | .unset => 1 + pending
  | .pending => pending
  | .scheduled => if v.suspended then 1 else scheduled
  | .suspended => if v.suspended then 0 else 1 + scheduled
  | .running =>
    if v.scheduled then
      if v.busy || !v.done then 0 else if v.suspended then 2 else 1 + scheduled
    else running
  | .completed => 0
  | .failed => 0
  | .driftRemediation =>
    if v.policy = some .ignore then 1 + pending
    else if ¬ v.detected then
      if v.suspended then 2 + (if v.scheduled then 1 + scheduled else 1 + running) else 1 + pending
    else if v.suspended then 0 else remediation

instance : Fintype Phase :=
  .ofList [.pending, .running, .suspended, .scheduled, .completed, .failed, .driftRemediation, .unset]
    fun p => by cases p <;> decide

instance : Fintype Strategy := .ofList [.auto, .manual, .ignore] fun s => by cases s <;> decide

lemma next_eq_or_rank_lt (v : Situation) : v.next = v ∨ v.next.rank < v.rank := by
  obtain ⟨phase, suspend, scheduled, detected, policy, busy, failing, done⟩ := v
  revert phase suspend scheduled detected policy busy failing done
  decide +kernel

lemma rank_le (v : Situation) : v.rank ≤ 4 := by
  obtain ⟨phase, suspend, scheduled, detected, policy, busy, failing, done⟩ := v
  revert phase suspend scheduled detected policy busy failing done
  decide +kernel

/-- A function that goes down until it stays has stayed after as many turns. -/
lemma iterate_succ_of_rank {α : Type} {f : α → α} {rank : α → ℕ}
    (hf : ∀ x, f x = x ∨ rank (f x) < rank x) {n : ℕ} {x : α} (hn : rank x ≤ n) :
    f^[n + 1] x = f^[n] x := by
  induction n generalizing x with
  | zero =>
    rcases hf x with h | h
    · exact h
    · omega
  | succ n ih =>
    rcases hf x with h | h
    · rw [Function.iterate_fixed h, Function.iterate_fixed h]
    · rw [Function.iterate_succ_apply, ih (by omega), ← Function.iterate_succ_apply]

/-- The turns come to rest. -/
lemma next_iterate (v : Situation) {n : ℕ} (hn : 4 ≤ n) :
    Situation.next^[n] v = Situation.next^[4] v := by
  induction n, hn using Nat.le_induction with
  | base => rfl
  | succ n hn ih =>
    rw [iterate_succ_of_rank next_eq_or_rank_lt ((rank_le v).trans hn), ih]

/-! ### A reconcile -/

/-- The situation of an object among the Jobs. -/
def situation (o : AutoIndexer) (jobs : List Job) : Situation where
  phase := o.status.indexingPhase
  suspend := o.spec.suspend
  scheduled := o.spec.schedule.isSome
  detected := o.driftDetected
  policy := o.spec.driftRemediationPolicy
  busy := decide (0 < (scanJobs jobs).running)
  failing := decide (0 < (scanJobs jobs).failed) && (scanJobs jobs).latestJobFailed
  done := decide (0 < (scanJobs jobs).completed)

variable {o m s : AutoIndexer} {w w' : World} {v : Situation}

/-- In memory the phase is the next one, and the stored object has the next value of `suspend`. -/
structure Turned (o : AutoIndexer) (v : Situation) (m s : AutoIndexer) (w : World) : Prop where
  phase : m.status.indexingPhase = v.turn.1
  spec : s.spec = { o.spec with suspend := v.turn.2 }
  detected : s.driftDetected = o.driftDetected

/-- The phase is turned in memory, and nothing is sent. -/
lemma handled_of_memory {p : Phase} (hw : w.stored = some o) (hv : m.resourceVersion = o.resourceVersion)
    (hp : m.status.indexingPhase = p) (ht : v.turn = (p, o.spec.suspend)) :
    Handled o (Turned o v) m w := by
  refine ⟨o, hw, rfl, .inl hv.symm, ⟨?_, ?_, rfl⟩⟩
  · rw [hp, ht]
  · rw [ht]

/-- The phase of an object that the server has given back is the one it had, with `suspend` set. -/
lemma setSuspendedState_turned {b : Bool} {t : Time} (hw : w.stored = some o)
    (hs : o.spec.suspended = !b) (ht : v.turn = (o.status.indexingPhase, some b)) :
    Runs (Serves False) (fun r w' => r.2 = none ∧ Handled o (Turned o v) r.1 w')
      (setSuspendedState (withResources o t) b) w := by
  have hne : o.spec.suspend ≠ some b := by
    intro h
    cases b <;> simp [Spec.suspended, h] at hs
  have hspec : (withResources o t).spec ≠
      ((withResources o t).withSpec { (withResources o t).spec with suspend := some b }).spec := by
    intro h
    exact hne (congrArg Spec.suspend h)
  unfold setSuspendedState
  dsimp only
  rw [if_pos hspec]
  simp only [ask_bind, runs_ask, serves_false]
  intro r w1 h
  simp only [serve, hw] at h
  obtain ⟨rfl, rfl⟩ := Prod.mk.inj h
  have hmerge : mergeMain (withResources o t)
      ((withResources o t).withSpec { (withResources o t).spec with suspend := some b }) o =
      o.withSpec { o.spec with suspend := some b } := by
    have hwith : (withResources o t).spec = o.spec := rfl
    simp [mergeMain, mergeSpec, mergeAnnotations, AutoIndexer.withSpec, hwith, pick, hne]
  rw [hmerge]
  refine ⟨rfl, _, rfl, by simp [AutoIndexer.withSpec], .inr rfl, ?_, ?_, ?_⟩
  · simp [AutoIndexer.withSpec, ht]
  · simp [AutoIndexer.withSpec, ht]
  · simp [AutoIndexer.driftDetected, AutoIndexer.withSpec]

/-- A remediation leaves phase and `suspend` as they are. -/
lemma finishRemediation_turned {t : Time} (hw : w.stored = some o)
    (ht : v.turn = (o.status.indexingPhase, o.spec.suspend)) :
    Runs (Serves False) (fun r w' => r.2 = none ∧ Handled o (Turned o v) r.1 w')
      (finishRemediation (withResources o t)) w := by
  have hreset : (resetStatus (withResources o t)).status.indexingPhase = o.status.indexingPhase := by
    unfold resetStatus
    split <;> rfl
  simp only [finishRemediation, ask_bind, runs_ask, serves_now]
  rintro _ _ ⟨rfl, rfl⟩
  change Runs _ _ (updateAnnotations { resetStatus (withResources o t) with annotations :=
    { (resetStatus (withResources o t)).annotations with
      lastDriftRemediated := some (Stamp.format _) } } (resetStatus (withResources o t))) _
  unfold updateAnnotations
  split
  · simp only [ask_bind, runs_ask, serves_false]
    intro r w1 h
    simp only [serve, hw] at h
    obtain ⟨rfl, rfl⟩ := Prod.mk.inj h
    refine ⟨rfl, _, rfl, by simp [mergeMain], .inr rfl, ?_, ?_, ?_⟩
    · simp [mergeMain, ht]
    · simp [mergeMain, mergeSpec, ht]
    · simp [AutoIndexer.driftDetected, mergeMain, mergeAnnotations]
  · rename_i heq
    refine ⟨rfl, handled_of_memory hw ?_ hreset ht⟩
    exact ControllerCalls.resetStatus_resourceVersion _

lemma remediate_turned {t : Time} (hw : w.stored = some o)
    (ht : v.turn = (o.status.indexingPhase, o.spec.suspend)) :
    Runs (Serves False) (fun r w' => r.2 = none ∧ Handled o (Turned o v) r.1 w')
      (remediate (withResources o t)) w := by
  refine (getJobStatus_runs w).bind ?_
  rintro _ w1 ⟨rfl, -, hr⟩
  obtain rfl := hr not_false
  dsimp only
  split
  · exact ⟨rfl, handled_of_memory hw rfl rfl ht⟩
  · refine (listIndexes_runs _ _ w1).bind ?_
    rintro r w2 ⟨rfl, -, hr⟩
    obtain ⟨names, rfl⟩ := hr not_false
    dsimp only
    split
    · refine (deleteIndex_runs _ _ _ w2).bind ?_
      rintro e w3 ⟨hw3, -, he⟩
      obtain rfl := he not_false
      rcases hw3 with rfl | rfl <;> exact finishRemediation_turned hw ht
    · exact finishRemediation_turned hw ht

section

variable {t : Time}

/-- The handler has turned to the phase `p`. -/
lemma turned_to {p : Phase} (hw : w.stored = some o) (ht : v.turn = (p, o.spec.suspend)) :
    Handled o (Turned o v) (updateStatus (withResources o t) p []) w :=
  handled_of_memory hw rfl rfl ht

/-- The handler has left the phase as it is. -/
lemma turned_nowhere (hw : w.stored = some o)
    (ht : v.turn = (o.status.indexingPhase, o.spec.suspend)) :
    Handled o (Turned o v) (withResources o t) w :=
  handled_of_memory hw rfl rfl ht

lemma handlePendingPhase_turned (hw : w.stored = some o) (hp : o.status.indexingPhase = .pending) :
    Runs (Serves False) (fun r w' => r.2 = none ∧ Handled o (Turned o (situation o w.jobs)) r.1 w')
      (handlePendingPhase (withResources o t)) w := by
  have hspec : (withResources o t).spec = o.spec := rfl
  unfold handlePendingPhase
  rw [hspec]
  by_cases hc : o.spec.schedule.isSome = true
  · rw [if_pos hc]
    by_cases hs : o.spec.suspended = true
    · rw [if_pos hs]
      refine ⟨rfl, turned_to hw ?_⟩
      have hs : o.spec.suspend = some true := by simpa [Spec.suspended] using hs
      simp [Situation.turn, Situation.suspended, situation, hp, hc, hs]
    · rw [if_neg hs]
      refine ⟨rfl, turned_to hw ?_⟩
      have hs : o.spec.suspend ≠ some true := by simpa [Spec.suspended] using hs
      simp [Situation.turn, Situation.suspended, situation, hp, hc, hs]
  · rw [if_neg hc]
    refine (Retries.ensureJob_makes _ w).bind ?_
    rintro e w1 ⟨rfl, hstored, -⟩
    refine ⟨rfl, turned_to (hstored.trans hw) ?_⟩
    simp [Situation.turn, situation, hp, hc]

lemma handleScheduledPhase_turned (hw : w.stored = some o)
    (hp : o.status.indexingPhase = .scheduled) :
    Runs (Serves False) (fun r w' => r.2 = none ∧ Handled o (Turned o (situation o w.jobs)) r.1 w')
      (handleScheduledPhase (withResources o t)) w := by
  have hspec : (withResources o t).spec = o.spec := rfl
  have hdetected : (withResources o t).driftDetected = o.driftDetected := rfl
  unfold handleScheduledPhase
  rw [hspec, hdetected]
  by_cases hs : o.spec.suspended = true
  · rw [if_pos hs]
    refine ⟨rfl, turned_to hw ?_⟩
    have hs : o.spec.suspend = some true := by simpa [Spec.suspended] using hs
    simp [Situation.turn, Situation.suspended, situation, hp, hs]
  · rw [if_neg hs]
    have hs : o.spec.suspend ≠ some true := by simpa [Spec.suspended] using hs
    refine (getJobStatus_runs w).bind ?_
    rintro _ w1 ⟨rfl, -, hr⟩
    obtain rfl := hr not_false
    dsimp only
    by_cases hj : 0 < (scanJobs w1.jobs).running
    · rw [if_pos hj]
      refine ⟨rfl, turned_to hw ?_⟩
      simp [Situation.turn, Situation.suspended, situation, hp, hs, hj]
    · rw [if_neg hj]
      by_cases hd : o.driftDetected = true
      · rw [if_pos hd]
        split
        · rename_i hpol
          refine ⟨rfl, turned_nowhere hw ?_⟩
          rcases hpol with hpol | hpol <;>
            simp [Situation.turn, Situation.suspended, situation, hp, hs, hj, hpol]
        · rename_i hpol
          rw [not_or] at hpol
          refine ⟨rfl, turned_to hw ?_⟩
          simp [Situation.turn, Situation.suspended, situation, hp, hs, hj, hd, hpol]
      · rw [if_neg hd]
        refine ⟨rfl, turned_nowhere hw ?_⟩
        simp [Situation.turn, Situation.suspended, situation, hp, hs, hj, hd]

lemma handleSuspendedPhase_turned (hw : w.stored = some o)
    (hp : o.status.indexingPhase = .suspended) :
    Runs (Serves False) (fun r w' => r.2 = none ∧ Handled o (Turned o (situation o w.jobs)) r.1 w')
      (handleSuspendedPhase (withResources o t)) w := by
  have hspec : (withResources o t).spec = o.spec := rfl
  unfold handleSuspendedPhase
  rw [hspec]
  by_cases hs : o.spec.suspended = true
  · rw [if_neg (not_not.mpr hs)]
    refine ⟨rfl, turned_nowhere hw ?_⟩
    have hs : o.spec.suspend = some true := by simpa [Spec.suspended] using hs
    simp [Situation.turn, Situation.suspended, situation, hp, hs]
  · rw [if_pos hs]
    refine ⟨rfl, turned_to hw ?_⟩
    have hs : o.spec.suspend ≠ some true := by simpa [Spec.suspended] using hs
    simp [Situation.turn, Situation.suspended, situation, hp, hs]

lemma handleRunningPhase_turned (hw : w.stored = some o) (hp : o.status.indexingPhase = .running) :
    Runs (Serves False) (fun r w' => r.2 = none ∧ Handled o (Turned o (situation o w.jobs)) r.1 w')
      (handleRunningPhase (withResources o t)) w := by
  have hspec : (withResources o t).spec = o.spec := rfl
  unfold handleRunningPhase
  rw [hspec]
  refine (getJobStatus_runs w).bind ?_
  rintro _ w1 ⟨rfl, -, hr⟩
  obtain rfl := hr not_false
  dsimp only
  by_cases hj : (scanJobs w1.jobs).running = 0
  · rw [if_pos hj]
    split
    · rename_i hf
      refine ⟨rfl, turned_to hw ?_⟩
      simp [Situation.turn, situation, hp, hj, hf]
    · rename_i hf
      have hfailing : ¬ ((situation o w1.jobs).failing = true ∧ ¬ (situation o w1.jobs).scheduled = true) := by
        simpa [situation, and_assoc] using hf
      split
      · rename_i hdone
        split
        · rename_i hc
          refine ⟨rfl, turned_to hw ?_⟩
          simp [Situation.turn, situation, hp, hj, hdone, hc]
        · rename_i hc
          refine ⟨rfl, turned_to hw ?_⟩
          simp only [Situation.turn, hfailing]
          simp [situation, hp, hj, hdone, hc]
      · rename_i hdone
        refine ⟨rfl, turned_nowhere hw ?_⟩
        simp only [Situation.turn, hfailing]
        simp [situation, hp, hj, hdone]
  · rw [if_neg hj]
    refine ⟨rfl, turned_nowhere hw ?_⟩
    simp [Situation.turn, situation, hp, Nat.pos_of_ne_zero hj]

lemma handleDriftRemediationPhase_turned (hw : w.stored = some o)
    (hp : o.status.indexingPhase = .driftRemediation) :
    Runs (Serves False) (fun r w' => r.2 = none ∧ Handled o (Turned o (situation o w.jobs)) r.1 w')
      (handleDriftRemediationPhase (withResources o t)) w := by
  have hspec : (withResources o t).spec = o.spec := rfl
  have hdetected : (withResources o t).driftDetected = o.driftDetected := rfl
  unfold handleDriftRemediationPhase
  rw [hspec, hdetected]
  by_cases hi : o.spec.driftRemediationPolicy = some .ignore
  · rw [if_pos hi]
    refine ⟨rfl, turned_to hw ?_⟩
    simp [Situation.turn, situation, hp, hi]
  · rw [if_neg hi]
    by_cases hd : o.driftDetected = true
    · rw [if_neg (not_not.mpr hd)]
      split
      · rename_i hpol
        refine ⟨rfl, turned_nowhere hw ?_⟩
        rcases hpol with hpol | hpol <;> simp [Situation.turn, situation, hp, hd, hpol]
      · rename_i hpol
        have hauto : o.spec.driftRemediationPolicy = some .auto := by
          cases hc : o.spec.driftRemediationPolicy with
          | none => exact absurd (.inl hc) hpol
          | some c =>
            cases c with
            | auto => rfl
            | manual => exact absurd (.inr hc) hpol
            | ignore => exact absurd hc hi
        by_cases hs : o.spec.suspended = true
        · rw [if_neg (not_not.mpr hs)]
          have hs : o.spec.suspend = some true := by simpa [Spec.suspended] using hs
          have ht : (situation o w.jobs).turn = (o.status.indexingPhase, o.spec.suspend) := by
            simp [Situation.turn, Situation.suspended, situation, hp, hd, hauto, hs]
          split
          · exact ⟨rfl, turned_nowhere hw ht⟩
          · exact remediate_turned hw ht
        · rw [if_pos hs]
          have hsus : o.spec.suspended = !true := by simpa using hs
          have hs : o.spec.suspend ≠ some true := by simpa [Spec.suspended] using hs
          refine setSuspendedState_turned hw hsus ?_
          simp [Situation.turn, Situation.suspended, situation, hp, hd, hauto, hs]
    · rw [if_pos hd]
      split
      · rename_i hs
        refine setSuspendedState_turned hw (by simpa using hs) ?_
        have hs : o.spec.suspend = some true := by simpa [Spec.suspended] using hs
        simp [Situation.turn, Situation.suspended, situation, hp, hd, hi, hs]
      · rename_i hs
        refine ⟨rfl, turned_to hw ?_⟩
        have hs : o.spec.suspend ≠ some true := by simpa [Spec.suspended] using hs
        simp [Situation.turn, Situation.suspended, situation, hp, hd, hi, hs]

lemma handlePhase_turned (hw : w.stored = some o) :
    Runs (Serves False) (fun r w' => r.2 = none ∧ Handled o (Turned o (situation o w.jobs)) r.1 w')
      (handlePhase (withResources o t)) w := by
  have hphase : (withResources o t).status.indexingPhase = o.status.indexingPhase := rfl
  unfold handlePhase
  rw [hphase]
  cases hp : o.status.indexingPhase with
  | unset => exact ⟨rfl, turned_to hw (by simp [Situation.turn, situation, hp])⟩
  | pending => exact handlePendingPhase_turned hw hp
  | scheduled => exact handleScheduledPhase_turned hw hp
  | suspended => exact handleSuspendedPhase_turned hw hp
  | running => exact handleRunningPhase_turned hw hp
  | completed => exact ⟨rfl, turned_nowhere hw (by simp [Situation.turn, situation, hp])⟩
  | failed => exact ⟨rfl, turned_nowhere hw (by simp [Situation.turn, situation, hp])⟩
  | driftRemediation => exact handleDriftRemediationPhase_turned hw hp

end

/-- A reconcile does not change what a situation takes from the world, nor delete the object. -/
structure Stays (u w : World) : Prop where
  ragEngines : w.ragEngines = u.ragEngines
  jobs : scanJobs w.jobs = scanJobs u.jobs
  object : ∃ o s, u.stored = some o ∧ w.stored = some s ∧ s.deletionTimestamp = none ∧
    s.name = o.name ∧ s.namespace_ = o.namespace_

/-- A Job that has just been created does not count. -/
lemma scanJobs_append_created (jobs : List Job) (name : String) (template : JobTemplate) :
    scanJobs (jobs ++ [⟨name, 0, 0, 0, none, template⟩]) = scanJobs jobs := by
  have hscan : ∀ s : JobScan, scanJob s ⟨name, 0, 0, 0, none, template⟩ = s := by
    rintro ⟨running, failed, completed, latest, last⟩
    cases last <;> simp [scanJob]
  rw [scanJobs, List.foldl_append, List.foldl_cons, List.foldl_nil, hscan, scanJobs]

lemma stays_of_serves {u : World} {c : Call} {r : Answer c}
    (hc : Allowed (fun _ _ => True) c) (hs : Stays u w) (h : Serves False w c r w') : Stays u w' := by
  obtain ⟨hrag, hjobs, o, s, hu, hw, hd, hname, hns⟩ := hs
  have h : w' = (serve w c).2 := congrArg Prod.snd ((serves_false ..).mp h)
  have hread (hr : (serve w c).2 = w) : Stays u w' := by
    rw [h, hr]
    exact ⟨hrag, hjobs, o, s, hu, hw, hd, hname, hns⟩
  cases c with
  | update => exact hc.elim
  | patch original modified =>
    simp only [serve, hw] at h
    subst h
    exact ⟨hrag, hjobs, o, _, hu, rfl, by simpa [mergeMain] using hd,
      by simpa [mergeMain] using hname, by simpa [mergeMain] using hns⟩
  | patchStatus original modified =>
    simp only [serve, hw] at h
    split at h
    · subst h
      exact ⟨hrag, hjobs, o, s, hu, hw, hd, hname, hns⟩
    · subst h
      exact ⟨hrag, hjobs, o, _, hu, rfl, by simpa [AutoIndexer.withStatus] using hd,
        by simpa [AutoIndexer.withStatus] using hname, by simpa [AutoIndexer.withStatus] using hns⟩
  | createJob name template =>
    subst h
    exact ⟨hrag, (scanJobs_append_created ..).trans hjobs, o, s, hu, hw, hd, hname, hns⟩
  | httpDeleteIndex e i =>
    rw [serve_httpDeleteIndex_snd] at h
    subst h
    exact ⟨hrag, hjobs, o, s, hu, hw, hd, hname, hns⟩
  | createChild child =>
    subst h
    exact ⟨hrag, hjobs, o, s, hu, hw, hd, hname, hns⟩
  | updateChild child =>
    subst h
    exact ⟨hrag, hjobs, o, s, hu, hw, hd, hname, hns⟩
  | get => exact hread (by simp [serve, hw])
  | getChild kind name => exact hread (by simp only [serve]; split <;> rfl)
  | getJob name => exact hread (by simp only [serve]; split <;> rfl)
  | httpGetDocumentCount e i a => exact hread (by simp only [serve]; split <;> rfl)
  | _ => exact hread rfl

lemma reconcile_stays (hw : w.stored = some o) (hd : o.deletionTimestamp = none) :
    Runs (Serves False) (fun _ w' => Stays w w') reconcile w := by
  simp only [reconcile, ask_bind, runs_ask, serves_false]
  intro r w1 h
  simp only [serve, hw] at h
  obtain ⟨rfl, rfl⟩ := Prod.mk.inj h
  have hmakes : Makes (fun _ _ => True) (reconcileObject o) := by
    simp only [reconcileObject, AutoIndexer.deleting, hd, Option.isSome_none, Bool.false_eq_true,
      if_false]
    refine (makes_ensureFinalizer o).bind ?_
    rintro ⟨o1, e⟩
    cases e with
    | some e => exact makes_pure _
    | none => exact makes_syncAutoIndexer trivial
  exact (hmakes.runs (J := Stays w1) (fun _ _ _ _ hc hs h => stays_of_serves hc hs h)
    ⟨rfl, rfl, o, o, hw, hw, hd, rfl, rfl⟩).mono fun _ _ h => h.2

variable {x : AutoIndexer}

/-- The world has the object `o`, which is `x` but for `suspend` and what follows from the work of
the controller, in the situation `v`. It is not being deleted and its RAG engine exists. -/
structure Stands (x : AutoIndexer) (v : Situation) (w : World) (o : AutoIndexer) : Prop where
  stored : w.stored = some o
  live : o.deletionTimestamp = none
  engine : o.spec.ragEngine ∈ w.ragEngines
  situation : situation o w.jobs = v
  name : o.name = x.name
  namespace_ : o.namespace_ = x.namespace_
  spec : o.spec = { x.spec with suspend := o.spec.suspend }

def InSituation (x : AutoIndexer) (v : Situation) (w : World) : Prop := ∃ o, Stands x v w o

lemma situation_congr {o' : AutoIndexer} {jobs jobs' : List Job} (hspec : o'.spec = o.spec)
    (hstatus : o'.status = o.status) (hannotations : o'.annotations = o.annotations)
    (hjobs : jobs' = jobs) : situation o' jobs' = situation o jobs := by
  simp [situation, AutoIndexer.driftDetected, hspec, hstatus, hannotations, hjobs]

/-- A reconcile makes one turn. -/
lemma reconcile_turns (h : InSituation x v w) :
    Runs (Serves False) (fun e w' => e = none ∧ InSituation x v.next w') reconcile w := by
  obtain ⟨o, hw, hd, hrag, hv, hname, hns, hx⟩ := h
  refine ((reconcile_runs (R := Turned o v) hw hd ?_).and (reconcile_stays hw hd)).mono ?_
  · rintro o1 w1 ho1 ⟨cs, rfl⟩
    have hv1 : situation o1 w.jobs = v :=
      (situation_congr ho1.spec ho1.status ho1.annotations rfl).trans hv
    refine (handlePhase_turned (w := { w with stored := some o1, children := cs }) rfl).mono ?_
    rintro ⟨m, e⟩ w' ⟨he, s, hs, hstatus, hrv, hturned⟩
    refine ⟨fun _ => ⟨s, hs, hstatus, hrv, ?_, ?_, ?_⟩, fun _ => he⟩
    · rw [hturned.phase, hv1]
    · rw [hturned.spec, hv1, ho1.spec]
    · rw [hturned.detected, AutoIndexer.driftDetected, ho1.annotations, AutoIndexer.driftDetected]
  · rintro e w' ⟨⟨hreconciled, hnone⟩, hstays⟩
    obtain rfl : e = none := hnone not_false hrag
    obtain ⟨m, s, s', w1, hturned, hstatus, hspec, hannotations, -, -, rfl⟩ := hreconciled rfl
    obtain ⟨o1, s1, ho1, hs1, hlive, hname1, hns1⟩ := hstays.object
    obtain rfl : s' = s1 := Option.some.inj hs1
    obtain rfl : o = o1 := Option.some.inj (hw.symm.trans ho1)
    have hjobs : scanJobs w1.jobs = scanJobs w.jobs := hstays.jobs
    have hspec : s'.spec = { o.spec with suspend := v.turn.2 } := hspec.trans hturned.spec
    have hphase : s'.status.indexingPhase = v.turn.1 := by
      rw [hstatus, ← hturned.phase]
      rfl
    have hdetected : s'.driftDetected = o.driftDetected := by
      rw [← hturned.detected, AutoIndexer.driftDetected, hannotations, AutoIndexer.driftDetected]
    refine ⟨rfl, s', rfl, hlive, ?_, ?_, hname1.trans hname, hns1.trans hns, ?_⟩
    · rw [hspec]
      exact hstays.ragEngines ▸ hrag
    · rw [Situation.next, ← hv, hv]
      simp only [situation, hspec, hphase, hdetected, hjobs]
      rw [← hv, situation]
    · rw [hspec, hx]

/-! ### Reconciles in a row -/

/-- Reconciles one after the other. No call fails and nobody else writes, but time passes. -/
inductive InARow : ℕ → World → World → Prop
  | none (w : World) : InARow 0 w w
  | reconcile {n : ℕ} {u v w : World} {t : Time} {e : Err} :
    InARow n u v → Ends (Serves False) reconcile { v with clock := t } e w → InARow (n + 1) u w

lemma inSituation_of_clock {t : Time} (h : InSituation x v w) :
    InSituation x v { w with clock := t } := by
  obtain ⟨o, hw, hd, hrag, hv, hname, hns, hx⟩ := h
  exact ⟨o, hw, hd, hrag, hv, hname, hns, hx⟩

lemma inSituation_of_inARow {n : ℕ} (h : InARow n w w') (hw : InSituation x v w) :
    InSituation x (Situation.next^[n] v) w' := by
  induction h with
  | none => exact hw
  | reconcile hrow hends ih =>
    have hturned := (reconcile_turns (inSituation_of_clock (ih hw))).ends hends
    rw [Function.iterate_succ_apply']
    exact hturned.2

/-- Nothing is left to do but to wait for Jobs, for the user, or for the detector. -/
def Situation.AtRest (v : Situation) : Prop :=
  match v.phase with
  | .unset | .pending => False
  | .scheduled => ¬ v.suspended ∧ ¬ v.busy ∧ (v.detected → v.policy = none ∨ v.policy = some .ignore)
  | .suspended => v.suspended
  | .running => v.busy ∨ ¬ v.done ∧ (v.failing → v.scheduled)
  | .completed | .failed => True
  | .driftRemediation => v.detected ∧ v.policy ≠ some .ignore ∧ (v.policy = some .auto → v.suspended)

instance (v : Situation) : Decidable v.AtRest := by
  unfold Situation.AtRest
  cases v.phase <;> infer_instance

lemma next_eq_iff (v : Situation) : v.next = v ↔ v.AtRest := by
  obtain ⟨phase, suspend, scheduled, detected, policy, busy, failing, done⟩ := v
  revert phase suspend scheduled detected policy busy failing done
  decide +kernel

/-- With nobody else at work, and no call failing, four reconciles do what there is to do, and
those that follow leave the phase and `suspend` as they are. -/
theorem comes_to_rest {n : ℕ} (h : InARow n w w') (hw : InSituation x v w) (hn : 4 ≤ n) :
    InSituation x (Situation.next^[4] v) w' ∧ (Situation.next^[4] v).AtRest := by
  refine ⟨next_iterate v hn ▸ inSituation_of_inARow h hw, ?_⟩
  rw [← next_eq_iff, ← Function.iterate_succ_apply' Situation.next, next_iterate v (by omega)]

/-- The stored world after a reconcile in which nothing goes wrong. -/
def reconciled (w : World) : World := (reconcile.exec serve w).2

lemma inARow_iterate (n : ℕ) (w : World) : InARow n w (reconciled^[n] w) := by
  induction n with
  | zero => exact .none w
  | succ n ih =>
    rw [Function.iterate_succ_apply']
    exact ih.reconcile (Ends.exec reconcile (reconciled^[n] w) (serves_serve False))

/-- A one-time AutoIndexer that is still suspended after its drift has been remediated, and whose
Job has succeeded. -/
def remediated : AutoIndexer :=
  { demo with
    spec := { demo.spec with suspend := some true }
    status := { demo.status with indexingPhase := .driftRemediation } }

def remediatedWorld : World :=
  { demoWorld with
    stored := some remediated
    jobs := [⟨"docs-job", 0, 1, 0, some 5, demoTemplate⟩] }

theorem comes_to_rest_remediated :
    InSituation remediated (Situation.next^[4] (situation remediated remediatedWorld.jobs))
        (reconciled^[5] remediatedWorld) ∧
      (Situation.next^[4] (situation remediated remediatedWorld.jobs)).AtRest :=
  comes_to_rest (inARow_iterate 5 remediatedWorld)
    ⟨remediated, rfl, rfl, by simp [remediatedWorld, demoWorld, remediated, demo], rfl, rfl, rfl, rfl⟩
    (by omega)

/-- Three reconciles do not suffice. -/
example : ¬ (Situation.next^[3] (situation remediated remediatedWorld.jobs)).AtRest := by decide

end KaitoAutoIndexer.ComingToRest
