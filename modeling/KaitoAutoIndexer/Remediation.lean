import KaitoAutoIndexer.ControllerCalls
import KaitoAutoIndexer.ControllerSpec
import KaitoAutoIndexer.FullPath

/-!
What an automatic drift remediation leaves in the stored status, and whether the run that
follows takes in the whole source.
-/

namespace KaitoAutoIndexer.Remediation

open KaitoAutoIndexer.Lib KaitoAutoIndexer.Types KaitoAutoIndexer.Conditions
open KaitoAutoIndexer.Cluster KaitoAutoIndexer.Controller
open KaitoAutoIndexer.ControllerCalls KaitoAutoIndexer.ControllerSpec
open KaitoAutoIndexer.FullPath

variable {mayFail : Prop} {w : World}

/-- A reconcile of the object gets to the part that deletes the index. -/
structure Remediates (o : AutoIndexer) (w : World) : Prop where
  stored : w.stored = some o
  notDeleting : o.deletionTimestamp = none
  phase : o.status.indexingPhase = .driftRemediation
  policy : o.spec.driftRemediationPolicy = some .auto
  detected : o.driftDetected = true
  suspended : o.spec.suspended = true
  notRemediated : driftRemediated o.annotations = false
  idle : (scanJobs w.jobs).running = 0

/-- The remediation is marked with the second it happens in, and the object bears that mark
already. -/
def AlreadyMarked (o : AutoIndexer) (t : Time) : Prop :=
  o.annotations.lastDriftRemediated = some (Stamp.format t)

/-- When the remediation resets the status. The reset of a Git source survives only when the
annotation needs no patch; otherwise the status is what it was, with the first
`AutoIndexerError` condition cleared. -/
def Resets (o : AutoIndexer) (t : Time) : Prop :=
  (o.spec.dataSource.type = .git ∧ AlreadyMarked o t) ∨
    (o.status.numOfDocumentInIndex = 0 ∧
      (hadErrors (dropError o.status.conditions) = true ∨ FullAnyway o))

/-! ### Conditions -/

lemma hadErrors_settled (o : AutoIndexer) (t : Time) :
    hadErrors (settled o t).status.conditions = hadErrors (dropError o.status.conditions) := by
  simp only [settled, withCondition, AutoIndexer.withStatus]
  rw [hadErrors_setCondition_of_ne _ (show resourceType ≠ errorType by decide),
    hadErrors_setCondition _ rfl]
  rfl

lemma hadErrors_dropError_withResources (o : AutoIndexer) (t : Time) :
    hadErrors (dropError (withResources o t).status.conditions) =
      hadErrors (dropError o.status.conditions) := by
  simp only [withResources, withCondition, AutoIndexer.withStatus]
  rw [hadErrors_dropError_setCondition_of_ne _ (show resourceType ≠ errorType by decide),
    dropError_setCondition _ rfl]

/-! ### The remediation -/

private lemma withAnnotations_self {o : AutoIndexer} {a : Annotations} (h : o.annotations = a) :
    { o with annotations := a } = o := by
  subst h
  rfl

/-- Without a patch the reset status stays in memory; with one, what is in memory afterwards
is the object from the server, with the status stored there. -/
lemma finishRemediation_runs {o s : AutoIndexer} (hw : w.stored = some s) :
    Runs (Serves mayFail) (fun r w' => r.2 = none →
      (AlreadyMarked o w.clock ∧ r.1 = resetStatus o ∧ w' = w) ∨
      (¬ AlreadyMarked o w.clock ∧ r.1.status = s.status ∧ r.1.spec = s.spec ∧
        w' = { w with stored := some r.1 })) (finishRemediation o) w := by
  simp only [finishRemediation, ask_bind, runs_ask, serves_now]
  rintro _ _ ⟨rfl, rfl⟩
  change Runs _ _ (updateAnnotations { resetStatus o with annotations :=
    { (resetStatus o).annotations with lastDriftRemediated := some (Stamp.format _) } }
    (resetStatus o)) _
  unfold updateAnnotations
  split
  · rename_i hne
    simp only [ask_bind, runs_ask]
    intro r w'' h
    obtain ⟨-, h2⟩ := serves_patch hw h
    cases r with
    | error e => exact fun he => absurd he (by simp)
    | ok o' =>
      obtain ⟨rfl, rfl⟩ := h2 o' rfl
      refine fun _ => .inr ⟨fun hm => hne ?_, ?_, ?_, rfl⟩
      · rw [resetStatus_annotations, ← hm]
      · simp [mergeMain]
      · simp [mergeMain, mergeSpec]
  · rename_i heq
    refine fun _ => .inl ⟨?_, ?_, rfl⟩
    · have heq := not_not.mp heq
      rw [resetStatus_annotations] at heq
      exact congrArg Annotations.lastDriftRemediated heq
    · exact withAnnotations_self (not_not.mp heq)

/-- Deleting the index, or finding that it is gone, leaves the object to be marked. -/
lemma remediate_runs {o s : AutoIndexer} (hw : w.stored = some s)
    (hj : (scanJobs w.jobs).running = 0) :
    Runs (Serves mayFail) (fun r w' => r.2 = none →
      (AlreadyMarked o w.clock ∧ r.1 = resetStatus o ∧ w'.stored = some s) ∨
      (¬ AlreadyMarked o w.clock ∧ r.1.status = s.status ∧ r.1.spec = s.spec ∧
        w'.stored = some r.1)) (remediate o) w := by
  have hfinish : ∀ v : World, v.stored = some s → v.clock = w.clock →
      Runs (Serves mayFail) (fun r w' => r.2 = none →
        (AlreadyMarked o w.clock ∧ r.1 = resetStatus o ∧ w'.stored = some s) ∨
        (¬ AlreadyMarked o w.clock ∧ r.1.status = s.status ∧ r.1.spec = s.spec ∧
          w'.stored = some r.1)) (finishRemediation o) v := by
    intro v hv hclock
    refine (finishRemediation_runs hv).mono fun r w' h he => ?_
    rw [hclock] at h
    rcases h he with ⟨h1, h2, rfl⟩ | ⟨h1, h2, h3, rfl⟩
    · exact .inl ⟨h1, h2, hv⟩
    · exact .inr ⟨h1, h2, h3, rfl⟩
  refine (getJobStatus_runs w).bind ?_
  rintro r w1 ⟨rfl, hr, -⟩
  cases r with
  | error e => exact fun he => absurd he (by simp)
  | ok jobs =>
    obtain rfl := hr jobs rfl
    simp only [hj, lt_irrefl, if_false]
    refine (listIndexes_runs _ _ w1).bind ?_
    rintro r w2 ⟨rfl, -, -⟩
    cases r with
    | error e => exact fun he => absurd he (by simp)
    | ok names =>
      dsimp only
      split
      · refine (deleteIndex_runs _ _ _ w2).bind ?_
        rintro e w3 ⟨hw3, -, -⟩
        cases e with
        | some e => exact fun he => absurd he (by simp)
        | none => rcases hw3 with rfl | rfl <;> exact hfinish _ hw rfl
      · exact hfinish _ hw rfl

lemma handlePhase_eq_remediate {o : AutoIndexer} (hp : o.status.indexingPhase = .driftRemediation)
    (hpol : o.spec.driftRemediationPolicy = some .auto) (hdet : o.driftDetected = true)
    (hsus : o.spec.suspended = true) (hrem : driftRemediated o.annotations = false) :
    handlePhase o = remediate o := by
  simp [handlePhase, hp, handleDriftRemediationPhase, hpol, hdet, hsus, hrem]

/-- What matters of the status of `o` is still there in `m`. -/
structure Kept (o m : AutoIndexer) : Prop where
  count : m.status.numOfDocumentInIndex = o.status.numOfDocumentInIndex
  commit : m.status.lastIndexedCommit = o.status.lastIndexedCommit
  timestamp : m.status.lastIndexingTimestamp = o.status.lastIndexingTimestamp
  errors : hadErrors (dropError m.status.conditions) = hadErrors (dropError o.status.conditions)

lemma Kept.of_status {o m : AutoIndexer} (h : m.status = o.status) : Kept o m := by
  constructor <;> rw [h]

/-- What the reconcile has in memory at the end, next to the stored object `s`. -/
def Memory (o : AutoIndexer) (t : Time) (m s : AutoIndexer) : Prop :=
  s.spec = o.spec ∧
    (((o.spec.dataSource.type = .git ∧ AlreadyMarked o t) ∧
        m.status.numOfDocumentInIndex = 0 ∧ m.status.lastIndexedCommit = some "") ∨
      (¬ (o.spec.dataSource.type = .git ∧ AlreadyMarked o t) ∧ Kept o m))

lemma memory_of_marked {o o1 s : AutoIndexer} {t : Time} (ho1 : SameObject o o1)
    (hm : AlreadyMarked o t) (hs : s.spec = o.spec) :
    Memory o t (resetStatus (withResources o1 t)) s := by
  have hspec : (withResources o1 t).spec = o.spec := ho1.spec
  refine ⟨hs, ?_⟩
  unfold resetStatus
  rw [hspec]
  by_cases hgit : o.spec.dataSource.type = .git
  · rw [if_pos hgit]
    exact .inl ⟨⟨hgit, hm⟩, rfl, rfl⟩
  · rw [if_neg hgit]
    refine .inr ⟨fun h => hgit h.1, ?_, ?_, ?_, ?_⟩
    · rw [← ho1.status]; rfl
    · rw [← ho1.status]; rfl
    · rw [← ho1.status]; rfl
    · rw [hadErrors_dropError_withResources, ho1.status]

lemma memory_resets_iff {o m s s' : AutoIndexer} {t t' : Time} (h : Memory o t m s)
    (hs : s'.status = (settled m t').status) (hspec : s'.spec = s.spec) :
    (s'.status.numOfDocumentInIndex = 0 ∧ FullRun s') ↔ Resets o t := by
  obtain ⟨hso, hm⟩ := h
  have hspec : s'.spec = o.spec := hspec.trans hso
  have hnum : s'.status.numOfDocumentInIndex = m.status.numOfDocumentInIndex := by rw [hs]; rfl
  have hcommit : s'.status.lastIndexedCommit = m.status.lastIndexedCommit := by rw [hs]; rfl
  have hts : s'.status.lastIndexingTimestamp = m.status.lastIndexingTimestamp := by rw [hs]; rfl
  have herr : hadErrors s'.status.conditions = hadErrors (dropError m.status.conditions) := by
    rw [hs, hadErrors_settled]
  unfold Resets
  rw [fullRun_iff, hnum, herr]
  rcases hm with ⟨hmark, h0, hc⟩ | ⟨hmark, hk⟩
  · have hfull : FullAnyway s' :=
      fullAnyway_of_git (by rw [hspec, hmark.1]) (by rw [hcommit, hc])
    exact ⟨fun _ => .inl hmark, fun _ => ⟨h0, .inr hfull⟩⟩
  · have hany : FullAnyway s' ↔ FullAnyway o :=
      ⟨fun h => h.congr hspec.symm (by rw [hcommit, hk.commit]) (by rw [hts, hk.timestamp]),
        fun h => h.congr hspec (by rw [hcommit, hk.commit]) (by rw [hts, hk.timestamp])⟩
    rw [hk.count, hk.errors, hany]
    simp [hmark]

/-- **A reconcile that remediates a drift without an error leaves a stored status that counts
no documents and makes the next run take in the whole source if and only if `Resets`.** -/
theorem reconcile_resets_iff {o : AutoIndexer} (h : Remediates o w) :
    Runs (Serves True) (fun e w' => e = none → ∃ o', w'.stored = some o' ∧
      ((o'.status.numOfDocumentInIndex = 0 ∧ FullRun o') ↔ Resets o w.clock)) reconcile w := by
  refine (reconcile_runs h.stored h.notDeleting (R := fun m s _ => Memory o w.clock m s) ?_).mono ?_
  · intro o1 w1 ho1 hw1
    obtain ⟨cs, rfl⟩ := hw1
    have hmark : AlreadyMarked (withResources o1 w.clock) w.clock ↔ AlreadyMarked o w.clock := by
      unfold AlreadyMarked
      rw [← ho1.annotations]
      rfl
    rw [handlePhase_eq_remediate (o := withResources o1 w.clock)
      (show o1.status.indexingPhase = _ by rw [ho1.status, h.phase])
      (show o1.spec.driftRemediationPolicy = _ by rw [ho1.spec, h.policy])
      (show (o1.annotations.driftDetected == some "true") = _ by rw [ho1.annotations]; exact h.detected)
      (show o1.spec.suspended = _ by rw [ho1.spec, h.suspended])
      (show driftRemediated o1.annotations = _ by rw [ho1.annotations, h.notRemediated])]
    refine (remediate_runs (w := { w with stored := some o1, children := cs })
      (o := withResources o1 w.clock) rfl h.idle).mono ?_
    rintro ⟨m, e⟩ w' hr
    refine ⟨fun he => ?_, fun hf => absurd trivial hf⟩
    rcases hr he with ⟨h1, rfl, hs⟩ | ⟨h1, h2, h3, hs⟩
    · refine ⟨o1, hs, rfl, .inl ?_, memory_of_marked ho1 (hmark.mp h1) ho1.spec⟩
      rw [resetStatus_resourceVersion]
      rfl
    · refine ⟨m, hs, h2, .inr rfl, h3.trans ho1.spec, .inr ⟨fun hc => h1 (hmark.mpr hc.2), ?_⟩⟩
      exact .of_status (h2.trans ho1.status)
  · rintro e w' ⟨hrec, -⟩ he
    obtain ⟨m, s, s', w1, hmem, hs', hspec, -, -, -, rfl⟩ := hrec he
    exact ⟨s', rfl, memory_resets_iff hmem hs' hspec⟩

/-- `demo` with seven documents and a drift to remediate. -/
def drifted : AutoIndexer :=
  { demo with
    annotations := ⟨some "true", some (.rfc3339 0), none⟩
    spec := { demo.spec with
      schedule := some "@hourly", suspend := some true, driftRemediationPolicy := some .auto }
    status := ⟨some 500000, some "abc", 1, .driftRemediation, 1, 0, 7, []⟩ }

def driftedWorld : World :=
  { demoWorld with
    stored := some drifted
    indexes := [⟨generateRAGEngineEndpoint "rag" "default", "index", []⟩] }

lemma driftedWorld_remediates : Remediates drifted driftedWorld where
  stored := rfl
  notDeleting := rfl
  phase := rfl
  policy := rfl
  detected := by decide
  suspended := by decide
  notRemediated := by decide
  idle := rfl

theorem reconcile_resets_drifted :
    Runs (Serves True) (fun e w' => e = none → ∃ o', w'.stored = some o' ∧
      ((o'.status.numOfDocumentInIndex = 0 ∧ FullRun o') ↔ Resets drifted 1000000))
      reconcile driftedWorld :=
  reconcile_resets_iff driftedWorld_remediates

/-- The annotation patch brings the old count and the old commit back. -/
theorem not_reconcile_resets :
    ¬ ∀ (w : World) (o : AutoIndexer), Remediates o w →
      Runs (Serves True) (fun e w' => e = none → ∃ o', w'.stored = some o' ∧
        o'.status.numOfDocumentInIndex = 0 ∧ FullRun o') reconcile w := by
  intro h
  have hrun := (h driftedWorld drifted driftedWorld_remediates).exec (serves_serve True)
  obtain ⟨o', ho', hnum, -⟩ := hrun (by decide)
  have hseven : (reconcile.exec serve driftedWorld).2.stored.map
      (·.status.numOfDocumentInIndex) = some 7 := by decide
  rw [ho', Option.map_some, hnum] at hseven
  exact absurd hseven (by decide)

end KaitoAutoIndexer.Remediation
