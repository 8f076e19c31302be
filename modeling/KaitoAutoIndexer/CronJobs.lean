import KaitoAutoIndexer.SystemSteps
import KaitoAutoIndexer.SharedAccounts

/-!
The CronJob of an AutoIndexer over any history of edits and reconciles.
-/

namespace KaitoAutoIndexer.CronJobs

open KaitoAutoIndexer.Lib KaitoAutoIndexer.Types KaitoAutoIndexer.Cluster
open KaitoAutoIndexer.Controller KaitoAutoIndexer.ControllerCalls KaitoAutoIndexer.ControllerSpec
open KaitoAutoIndexer.Children KaitoAutoIndexer.System KaitoAutoIndexer.Detector
open KaitoAutoIndexer.SharedAccounts (repairs_account repairs_generatedRole repairs_generatedBinding)

variable {w w' : World} {o : AutoIndexer}

/-! ### What leaves the generated objects alone -/

/-- The call does not write a generated object. -/
def Spares : Call → Prop
  | .createChild _ => False
  | .updateChild _ => False
  | _ => True

abbrev Sparing {α : Type} (p : Go α) : Prop := Obeys Spares (fun _ => True) p

lemma Sparing.bind {α β : Type} {p : Go α} {f : α → Go β} (hp : Sparing p)
    (hf : ∀ a, Sparing (f a)) : Sparing (p >>= f) :=
  Obeys.bind hp fun a _ => hf a

lemma sparing_ask {c : Call} (hc : Spares c) : Sparing (ask c) := ⟨hc, fun _ => trivial⟩

lemma sparing_pure {α : Type} (a : α) : Sparing (pure a : Go α) := trivial

lemma sparing_setAutoIndexerCondition (o : AutoIndexer) (type : String) (status : ConditionStatus)
    (reason message : String) : Sparing (setAutoIndexerCondition o type status reason message) :=
  (sparing_ask (by trivial)).bind fun _ => sparing_pure _

lemma sparing_getJobStatus : Sparing getJobStatus :=
  (sparing_ask (by trivial)).bind fun r => by cases r <;> exact sparing_pure _

lemma sparing_ensureJob (o : AutoIndexer) : Sparing (ensureJob o) := by
  refine (sparing_ask (by trivial)).bind fun _ => (sparing_ask (by trivial)).bind fun r => ?_
  match r with
  | .ok _ => exact sparing_pure _
  | .error .notFound => exact (sparing_ask (by trivial)).bind fun _ => sparing_pure _
  | .error .conflict => exact sparing_pure _
  | .error (.other m) => exact sparing_pure _

lemma sparing_setSuspendedState (o : AutoIndexer) (suspend : Bool) :
    Sparing (setSuspendedState o suspend) := by
  unfold setSuspendedState
  extract_lets existing o'
  split
  · exact (sparing_ask (by trivial)).bind fun r => by cases r <;> exact sparing_pure _
  · exact sparing_pure _

lemma sparing_patchAndReturn (o original : AutoIndexer) (err : Err) :
    Sparing (patchAndReturn o original err) := by
  unfold patchAndReturn
  split
  · exact (sparing_ask (by trivial)).bind fun r => by cases r <;> exact sparing_pure _
  · exact sparing_pure _

lemma sparing_deleteIndex (ragEngine index ns : String) : Sparing (deleteIndex ragEngine index ns) := by
  have hattempt : Sparing (deleteIndexAttempt (generateRAGEngineEndpoint ragEngine ns) index) := by
    refine (sparing_ask (by trivial)).bind fun r => ?_
    cases r with
    | error e => exact sparing_pure _
    | ok status => dsimp only; split <;> exact sparing_pure _
  exact Sparing.bind (obeys_retry hattempt _) fun r => by cases r <;> exact sparing_pure _

lemma sparing_listIndexes (ragEngine ns : String) : Sparing (listIndexes ragEngine ns) := by
  have hattempt : Sparing (ask (.httpGetIndexes (generateRAGEngineEndpoint ragEngine ns))) :=
    sparing_ask (by trivial)
  exact Sparing.bind (obeys_retry hattempt _) fun r => by cases r <;> exact sparing_pure _

lemma sparing_updateAnnotations (o existing : AutoIndexer) : Sparing (updateAnnotations o existing) := by
  unfold updateAnnotations
  split
  · exact (sparing_ask (by trivial)).bind fun r => by cases r <;> exact sparing_pure _
  · exact sparing_pure _

lemma sparing_finishRemediation (o : AutoIndexer) : Sparing (finishRemediation o) :=
  (sparing_ask (by trivial)).bind fun _ => sparing_updateAnnotations _ _

lemma sparing_remediate (o : AutoIndexer) : Sparing (remediate o) := by
  refine sparing_getJobStatus.bind fun r => ?_
  cases r with
  | error e => exact sparing_pure _
  | ok jobs =>
    dsimp only
    split
    · exact sparing_pure _
    · refine (sparing_listIndexes _ _).bind fun r => ?_
      cases r with
      | error e => exact sparing_pure _
      | ok indexes =>
        dsimp only
        split
        · refine (sparing_deleteIndex _ _ _).bind fun e => ?_
          cases e with
          | some e => exact sparing_pure _
          | none => exact sparing_finishRemediation o
        · exact sparing_finishRemediation o

lemma sparing_handleDriftRemediationPhase (o : AutoIndexer) :
    Sparing (handleDriftRemediationPhase o) := by
  unfold handleDriftRemediationPhase
  split
  · exact sparing_pure _
  · split
    · split
      · exact sparing_setSuspendedState _ _
      · exact sparing_pure _
    · split
      · exact sparing_pure _
      · split
        · exact sparing_setSuspendedState _ _
        · split
          · exact sparing_pure _
          · exact sparing_remediate o

lemma sparing_handlePendingPhase (o : AutoIndexer) : Sparing (handlePendingPhase o) := by
  unfold handlePendingPhase
  split
  · split <;> exact sparing_pure _
  · refine (sparing_ensureJob o).bind fun e => ?_
    cases e with
    | some e =>
      exact (sparing_ask (by trivial)).bind fun _ => (sparing_ask (by trivial)).bind fun _ => sparing_pure _
    | none => exact sparing_pure _

lemma sparing_handleScheduledPhase (o : AutoIndexer) : Sparing (handleScheduledPhase o) := by
  unfold handleScheduledPhase
  split
  · exact sparing_pure _
  · refine sparing_getJobStatus.bind fun r => ?_
    cases r with
    | error e => exact sparing_pure _
    | ok jobs => dsimp only; repeat' split <;> try exact sparing_pure _

lemma sparing_handleRunningPhase (o : AutoIndexer) : Sparing (handleRunningPhase o) := by
  refine sparing_getJobStatus.bind fun r => ?_
  cases r with
  | error e => exact sparing_pure _
  | ok jobs => dsimp only; repeat' split <;> try exact sparing_pure _

lemma sparing_handlePhase (o : AutoIndexer) : Sparing (handlePhase o) := by
  unfold handlePhase
  split
  · exact sparing_handlePendingPhase o
  · exact sparing_handleScheduledPhase o
  · unfold handleSuspendedPhase
    split <;> exact sparing_pure _
  · exact sparing_handleRunningPhase o
  · exact sparing_pure _
  · exact sparing_pure _
  · exact sparing_handleDriftRemediationPhase o
  · exact sparing_pure _

lemma sparing_garbageCollectAutoIndexer (o : AutoIndexer) : Sparing (garbageCollectAutoIndexer o) := by
  refine (sparing_ask (by trivial)).bind fun r => ?_
  cases r with
  | error e => exact sparing_pure _
  | ok jobs =>
    dsimp only
    split
    · exact sparing_pure _
    · refine (sparing_deleteIndex _ _ _).bind fun e => ?_
      cases e with
      | some e => exact sparing_pure _
      | none =>
        dsimp only
        split
        · exact (sparing_ask (by trivial)).bind fun _ => sparing_pure _
        · exact sparing_pure _

lemma sparing_checkAndMark (o : AutoIndexer) : Sparing (checkAndMark o) := by
  have hmark : ∀ o : AutoIndexer, Sparing (setDriftDetected o) := fun o =>
    (sparing_ask (by trivial)).bind fun _ => (sparing_ask (by trivial)).bind fun _ => sparing_pure _
  have hclear : ∀ o : AutoIndexer, Sparing (setDriftRemediated o) := by
    intro o
    unfold setDriftRemediated
    dsimp only
    split
    · exact sparing_pure _
    · exact (sparing_ask (by trivial)).bind fun _ => sparing_pure _
  have hcount : ∀ e i n ns, Sparing (getDocumentCount e i n ns) := fun e i n ns =>
    Sparing.bind (obeys_retry (sparing_ask (by trivial)) _) fun r => by cases r <;> exact sparing_pure _
  have hcheck : Sparing (checkAutoIndexerDrift o) := by
    unfold checkAutoIndexerDrift
    dsimp only
    repeat' split
    all_goals first
      | exact sparing_pure _
      | exact (hcount _ _ _ _).bind fun r => by cases r <;> exact sparing_pure _
  refine hcheck.bind fun result => ?_
  dsimp only
  split
  · exact (hmark o).bind fun _ => sparing_pure _
  · exact (hclear o).bind fun _ => sparing_pure _

lemma sparing_performDriftCheck : Sparing performDriftCheck := by
  have hall : ∀ items : List AutoIndexer, Sparing (checkAll items) := by
    intro items
    induction items with
    | nil => exact sparing_pure _
    | cons o items ih => exact (sparing_checkAndMark o).bind fun _ => ih
  refine (sparing_ask (by trivial)).bind fun r => ?_
  cases r with
  | error e => exact sparing_pure _
  | ok items => exact hall items

lemma children_of_serves {mayFail : Prop} {c : Call} {r : Answer c} (hc : Spares c)
    (h : Serves mayFail w c r w') : w'.children = w.children := by
  rcases h with h | ⟨-, -, rfl | ⟨⟨e, i, rfl⟩, rfl⟩⟩
  · obtain rfl : w' = (serve w c).2 := congrArg Prod.snd h
    cases c with
    | createChild child => cases hc
    | updateChild child => cases hc
    | _ => simp only [serve] <;> (repeat' split) <;> rfl
  · rfl
  · simp only [serve]
    split <;> rfl

lemma Sparing.children {mayFail : Prop} {α : Type} {p : Go α} (h : Sparing p) (w : World) :
    Runs (Serves mayFail) (fun _ w' => w'.children = w.children) p w :=
  (Obeys.runs (J := fun w' => w'.children = w.children) h
    (fun _ _ _ _ hc hJ hs => (children_of_serves hc hs).trans hJ) rfl).mono fun _ _ h => h.2

/-! ### The CronJobs in a reconcile -/

def cronName (o : AutoIndexer) : String := o.name ++ "-cronjob"

/-- What ensuring the CronJob writes. -/
def updatedCron (desired existing : Child) : Option Child :=
  if existing.body ≠ desired.body then some { existing with body := desired.body } else none

lemma keeps_updatedCron (desired : Child) : Keeps desired (updatedCron desired) := by
  intro existing child hkind hname hu
  unfold updatedCron at hu
  split at hu
  · cases hu
    exact ⟨hkind, hname⟩
  · cases hu

/-- What a reconcile of the object does to the CronJobs: where the spec has a schedule, the one
that it generates may be ensured, and it is when there is no error. -/
structure Reconciled (o : AutoIndexer) (image : String) (w : World) (e : Err) (w' : World) : Prop where
  elsewhere : ∀ name, name ≠ cronName o → childrenAt w' .cronJob name = childrenAt w .cronJob name
  unscheduled : o.spec.schedule = none →
    childrenAt w' .cronJob (cronName o) = childrenAt w .cronJob (cronName o)
  scheduled : ∀ schedule, o.spec.schedule = some schedule →
    childrenAt w' .cronJob (cronName o) = childrenAt w .cronJob (cronName o) ∨
      childrenAt w' .cronJob (cronName o) =
        ensured (generateIndexingCronJobManifest o schedule image)
          (updatedCron (generateIndexingCronJobManifest o schedule image))
          (childrenAt w .cronJob (cronName o))
  done : e = none → ∀ schedule, o.spec.schedule = some schedule →
    childrenAt w' .cronJob (cronName o) =
      ensured (generateIndexingCronJobManifest o schedule image)
        (updatedCron (generateIndexingCronJobManifest o schedule image))
        (childrenAt w .cronJob (cronName o))

lemma childrenAt_congr (h : w'.children = w.children) (kind : ChildKind) (name : String) :
    childrenAt w' kind name = childrenAt w kind name := by
  unfold childrenAt
  rw [h]

/-- Only the CronJobs matter. -/
lemma Reconciled.congr {w1 w2 : World} {image : String} {e e' : Err}
    (h : Reconciled o image w1 e w2) (hw : ∀ name, childrenAt w1 .cronJob name = childrenAt w .cronJob name)
    (hw' : ∀ name, childrenAt w' .cronJob name = childrenAt w2 .cronJob name) (he : e' = none → e = none) :
    Reconciled o image w e' w' := by
  refine ⟨fun name hn => ?_, fun hs => ?_, fun s hs => ?_, fun hn s hs => ?_⟩
  · rw [hw', h.elsewhere name hn, hw]
  · rw [hw', h.unscheduled hs, hw]
  · rw [hw', ← hw]
    exact h.scheduled s hs
  · rw [hw', ← hw]
    exact h.done (he hn) s hs

/-- An error before the CronJob is ensured. -/
lemma reconciled_failed {image e : String}
    (hw : ∀ name, childrenAt w' .cronJob name = childrenAt w .cronJob name) :
    Reconciled o image w (some e) w' :=
  ⟨fun name _ => hw name, fun _ => hw _, fun _ _ => .inl (hw _), nofun⟩

lemma ensureCronJob_reconciled {schedule : String} (hs : o.spec.schedule = some schedule) (w : World) :
    Runs (Serves True) (fun e w' => SameButChildren w w' ∧ Reconciled o w.image w e w')
      (ensureCronJob o schedule) w := by
  simp only [ensureCronJob, ask_bind, runs_ask]
  intro image w1 h
  obtain rfl := eq_of_serves_read rfl (by simp) h
  obtain rfl : image = w1.image := by
    rcases h with h | ⟨-, hf, -⟩
    · exact congrArg Prod.fst h
    · exact hf.elim
  refine (ensureChild_ensured (keeps_updatedCron _) w1).mono fun e w' h => ⟨h.same, ?_⟩
  refine ⟨fun name hn => h.elsewhere _ _ fun hk => hn hk.2.symm, fun hnone => ?_, fun s hs' => ?_,
    fun he s hs' => ?_⟩
  · rw [hs] at hnone
    cases hnone
  · obtain rfl : schedule = s := Option.some.inj (hs.symm.trans hs')
    exact h.here
  · obtain rfl : schedule = s := Option.some.inj (hs.symm.trans hs')
    exact h.done he

/-- Ensuring an object of another kind leaves the CronJobs alone. -/
lemma ensureChild_crons {desired : Child} {updated : Child → Option Child} (hk : Keeps desired updated)
    (hkind : desired.kind ≠ .cronJob) (w : World) :
    Runs (Serves True) (fun _ w' => SameButChildren w w' ∧
      ∀ name, childrenAt w' .cronJob name = childrenAt w .cronJob name)
      (ensureChild desired updated) w :=
  (ensureChild_ensured hk w).mono fun _ _ h =>
    ⟨h.same, fun _ => h.elsewhere _ _ fun hk => hkind hk.1⟩

lemma ensureRBACResources_crons (o : AutoIndexer) (w : World) :
    Runs (Serves True) (fun _ w' => SameButChildren w w' ∧
      ∀ name, childrenAt w' .cronJob name = childrenAt w .cronJob name) (ensureRBACResources o) w := by
  refine (ensureChild_crons (repairs_account o).keeps (by simp [generateServiceAccountManifest])
    w).bind fun e w1 ⟨hs1, h1⟩ => ?_
  cases e with
  | some e => exact ⟨hs1, h1⟩
  | none =>
    refine (ensureChild_crons (repairs_generatedRole o).keeps (by simp [generateRoleManifest])
      w1).bind fun e w2 ⟨hs2, h2⟩ => ?_
    have h12 := fun name => (h2 name).trans (h1 name)
    cases e with
    | some e => exact ⟨hs1.trans hs2, h12⟩
    | none =>
      refine (ensureChild_crons (repairs_generatedBinding o).keeps
        (by simp [generateRoleBindingManifest]) w2).bind fun e w3 ⟨hs3, h3⟩ => ?_
      have h13 := fun name => (h3 name).trans (h12 name)
      cases e with
      | some e => exact ⟨(hs1.trans hs2).trans hs3, h13⟩
      | none => exact ⟨(hs1.trans hs2).trans hs3, h13⟩

/-- The object in memory keeps its spec, name and UID; only the conditions change. -/
lemma ensureRequiredResources_reconciled (o : AutoIndexer) (w : World) :
    Runs (Serves True) (fun r w' => Reconciled o w.image w r.2 w') (ensureRequiredResources o) w := by
  refine (validateRAGEngineRef_runs o w).bind fun e w1 ⟨h1, _, _⟩ => ?_
  subst h1
  cases e with
  | some e =>
    simp only [resourceFailure, runs_setAutoIndexerCondition_bind]
    exact reconciled_failed fun _ => rfl
  | none =>
    refine (ensureRBACResources_crons o w1).bind fun e w2 ⟨hs2, h2⟩ => ?_
    cases e with
    | some e =>
      simp only [resourceFailure, runs_setAutoIndexerCondition_bind]
      exact reconciled_failed h2
    | none =>
      have himage : w2.image = w1.image := by
        obtain ⟨_, rfl⟩ := hs2
        rfl
      refine Runs.bind (Q := fun e w' => Reconciled o w1.image w1 e w') ?_ fun e w3 h3 => ?_
      · cases hs : o.spec.schedule with
        | some schedule =>
          refine (ensureCronJob_reconciled hs w2).mono fun e w3 ⟨_, h3⟩ => ?_
          rw [himage] at h3
          exact h3.congr (fun name => (h2 name)) (fun _ => rfl) id
        | none =>
          refine ⟨fun name _ => h2 name, fun _ => h2 _, fun s hs' => ?_, fun _ s hs' => ?_⟩
          · rw [hs] at hs'
            cases hs'
          · rw [hs] at hs'
            cases hs'
      cases e with
      | some e =>
        simp only [resourceFailure, runs_setAutoIndexerCondition_bind]
        exact h3
      | none =>
        simp only [runs_setAutoIndexerCondition_bind]
        exact h3

/-- An error is passed on. -/
lemma patchAndReturn_fails (o original : AutoIndexer) (e : String) :
    Obeys (fun _ => True) (· ≠ none) (patchAndReturn o original (some e)) := by
  unfold patchAndReturn
  split
  · simp only [ask_bind, obeys_ask]
    refine ⟨trivial, fun r => ?_⟩
    cases r with
    | error e => exact Option.some_ne_none _
    | ok u => exact Option.some_ne_none _
  · exact Option.some_ne_none _

lemma syncAutoIndexer_reconciled (o : AutoIndexer) (w : World) :
    Runs (Serves True) (fun e w' => Reconciled o w.image w e w') (syncAutoIndexer o) w := by
  refine (ensureRequiredResources_reconciled o w).bind ?_
  rintro ⟨m, e⟩ w1 h1
  have hrest : ∀ {p : Go Err}, Sparing p → (e = none ∨ Obeys (fun _ => True) (· ≠ none) p) →
      Runs (Serves True) (fun e w' => Reconciled o w.image w e w') p w1 := by
    intro p hp he
    rcases he with rfl | he
    · exact (hp.children w1).mono fun e' w' hw' =>
        h1.congr (fun _ => rfl) (childrenAt_congr hw' _) fun _ => rfl
    · refine ((hp.children w1).and (Obeys.runs (J := fun _ => True) he (fun _ _ _ _ _ _ _ => trivial)
        trivial)).mono fun e' w' ⟨hw', hne, _⟩ => ?_
      exact h1.congr (fun _ => rfl) (childrenAt_congr hw' _) fun h => absurd h hne
  cases e with
  | some e =>
    exact hrest (sparing_patchAndReturn _ _ _) (.inr (patchAndReturn_fails m o e))
  | none =>
    refine hrest ?_ (.inl rfl)
    refine (sparing_handlePhase m).bind ?_
    rintro ⟨m, e⟩
    cases e with
    | some e =>
      exact (sparing_setAutoIndexerCondition _ _ _ _ _).bind fun _ => sparing_patchAndReturn _ _ _
    | none =>
      exact (sparing_setAutoIndexerCondition _ _ _ _ _).bind fun _ =>
        (sparing_setAutoIndexerCondition _ _ _ _ _).bind fun _ => sparing_patchAndReturn _ _ _

/-- The object that a reconcile works with has the spec, the name and the UID of the stored one. -/
lemma ensureFinalizer_object (hw : w.stored = some o) :
    Runs (Serves True) (fun r w' => w'.children = w.children ∧ w'.image = w.image ∧ (r.2 = none →
      r.1.spec = o.spec ∧ r.1.name = o.name ∧ r.1.namespace_ = o.namespace_ ∧ r.1.uid = o.uid))
      (ensureFinalizer o) w := by
  unfold ensureFinalizer
  split
  · exact ⟨rfl, rfl, fun _ => ⟨rfl, rfl, rfl, rfl⟩⟩
  · simp only [ask_bind, runs_ask]
    intro r w' h
    obtain ⟨h1, h2⟩ := serves_patch hw h
    cases r with
    | error e =>
      obtain rfl := (h1 e rfl).2
      exact ⟨rfl, rfl, fun hnone => by cases hnone⟩
    | ok o' =>
      obtain ⟨rfl, rfl⟩ := h2 o' rfl
      refine ⟨rfl, rfl, fun _ => ?_⟩
      simp [mergeMain]

/-- The objects generated from two AutoIndexers that agree there are the same. -/
lemma Reconciled.of_same {o' : AutoIndexer} {image : String} {e : Err}
    (hspec : o'.spec = o.spec) (hname : o'.name = o.name) (hns : o'.namespace_ = o.namespace_)
    (huid : o'.uid = o.uid) (h : Reconciled o' image w e w') : Reconciled o image w e w' := by
  have hcron : cronName o' = cronName o := by rw [cronName, hname, cronName]
  have hmake : ∀ s, generateIndexingCronJobManifest o' s image =
      generateIndexingCronJobManifest o s image := by
    intro s
    simp [generateIndexingCronJobManifest, generateJobTemplate, generateServiceAccountName,
      azureIdentity, resourceLabels, hspec, hname, hns, huid]
  obtain ⟨h1, h2, h3, h4⟩ := h
  rw [hcron] at h1 h2 h3 h4
  rw [hspec] at h2 h3 h4
  simp only [hmake] at h3 h4
  exact ⟨h1, h2, h3, h4⟩

lemma serves_get {r : Except ApiError AutoIndexer} (h : Serves True w .get r w') :
    w' = w ∧ ((r = .error .notFound ∧ w.stored = none) ∨ (∃ m, r = .error (.other m)) ∨
      ∃ o, w.stored = some o ∧ r = .ok o) := by
  rcases h with h | ⟨-, ⟨m, rfl⟩, h⟩
  · simp only [serve] at h
    split at h
    · rename_i o ho
      cases h
      exact ⟨rfl, .inr (.inr ⟨o, ho, rfl⟩)⟩
    · rename_i ho
      cases h
      exact ⟨rfl, .inl ⟨rfl, ho⟩⟩
  · obtain rfl : w' = w := by simpa using h
    exact ⟨rfl, .inr (.inl ⟨m, rfl⟩)⟩

lemma reconcileObject_reconciled (hw : w.stored = some o) (hd : ¬ o.deleting = true) :
    Runs (Serves True) (fun e w' => Reconciled o w.image w e w') (reconcileObject o) w := by
  unfold reconcileObject
  rw [if_neg hd]
  refine (ensureFinalizer_object hw).bind ?_
  rintro ⟨o', e⟩ w2 ⟨hc, himage, hsame⟩
  have hcrons := childrenAt_congr hc .cronJob
  cases e with
  | some e => exact reconciled_failed hcrons
  | none =>
    obtain ⟨hspec, hname, hns, huid⟩ := hsame rfl
    refine (syncAutoIndexer_reconciled o' w2).mono fun e w' h => ?_
    rw [himage] at h
    exact (h.of_same hspec hname hns huid).congr hcrons (fun _ => rfl) id

/-- What a reconcile does to the CronJobs: nothing, when there is no object or it is being
deleted. -/
lemma reconcile_reconciled (w : World) :
    Runs (Serves True) (fun e w' => (w'.children = w.children ∧ (e = none →
        ∀ o, w.stored = some o → o.deleting = true)) ∨
      ∃ o, w.stored = some o ∧ Reconciled o w.image w e w') reconcile w := by
  simp only [reconcile, ask_bind, runs_ask]
  intro r w1 h
  obtain ⟨rfl, ⟨rfl, ho⟩ | ⟨m, rfl⟩ | ⟨o, ho, rfl⟩⟩ := serves_get h
  · exact .inl ⟨rfl, fun _ o ho' => by rw [ho] at ho'; cases ho'⟩
  · exact .inl ⟨rfl, nofun⟩
  · by_cases hd : o.deleting = true
    · have hgc : Runs (Serves True) (fun _ w' => w'.children = w1.children) (reconcileObject o) w1 := by
        unfold reconcileObject
        rw [if_pos hd]
        exact (sparing_garbageCollectAutoIndexer o).children w1
      refine hgc.mono fun e w' hw' => .inl ⟨hw', fun _ o' ho' => ?_⟩
      obtain rfl : o = o' := Option.some.inj (ho.symm.trans ho')
      exact hd
    · exact (reconcileObject_reconciled ho hd).mono fun e w' h => .inr ⟨o, ho, h⟩

/-! ### Histories -/

/-- What may happen between two reconciles: users edit or delete the AutoIndexer, the image
changes, Jobs come and go, the detector checks, and a Job runs. Nobody else writes the generated
objects. -/
inductive Step : World → World → Prop
  | reconciles {w w' : World} {e : Err} (h : Ends (Serves True) reconcile w e w') : Step w w'
  | checks {w w' : World} {u : Unit} (h : Ends (Serves True) performDriftCheck w u w') : Step w w'
  | works {w w' : World} {r : Git.Remote} {a : Option Bool}
      (h : Ends (JobServes True) (Job.main r) w a w') : Step w w'
  | acts {w w' : World} {a : Act} (h : Env a w w') (hc : w'.children = w.children) : Step w w'

/-- The stored object is the one named `n` with the UID `u`. -/
def Same (n u : String) (w : World) : Prop := ∀ o, w.stored = some o → o.name = n ∧ o.uid = u

variable {n u : String}

lemma same_of_stored (h : Same n u w) (hw : w'.stored = w.stored) : Same n u w' := by
  intro o ho
  exact h o (hw ▸ ho)

lemma same_of_written {c : Call} {r : Answer c} {s : Option AutoIndexer}
    (h : SystemSteps.Written o c r s) (hn : o.name = n ∧ o.uid = u) :
    ∀ o', s = some o' → o'.name = n ∧ o'.uid = u := by
  rintro o' rfl
  generalize hs : some o' = s at h
  cases h with
  | patch =>
    cases hs
    simpa [mergeMain] using hn
  | patchStatus =>
    cases hs
    simpa [AutoIndexer.withStatus] using hn
  | update =>
    cases hs
    simpa [SystemSteps.replaced] using hn
  | remove => cases hs

lemma same_of_serves (w : World) (c : Call) (r : Answer c) (w' : World) (hw : Same n u w)
    (h : Serves True w c r w') : Same n u w' := by
  rcases SystemSteps.stored_of_serves h with ⟨hs, -⟩ | ⟨o, ho, hwr⟩
  · exact same_of_stored hw hs
  · exact same_of_written hwr (hw o ho)

lemma same_of_jobServes (w : World) (c : JobClient.JobCall) (r : JobClient.JobAnswer c) (w' : World)
    (hw : Same n u w) (h : JobServes True w c r w') : Same n u w' := by
  rcases SystemSteps.stored_of_jobServes h with ⟨hs, -⟩ | ⟨o, ho, hwr⟩
  · exact same_of_stored hw hs
  · intro o' ho'
    rw [ho'] at hwr
    generalize hs : some o' = s at hwr
    cases hwr
    cases hs
    simpa [AutoIndexer.withStatus] using hw o ho

lemma same_of_env {a : Act} (hw : Same n u w) (h : Env a w w') : Same n u w' := by
  rcases SystemSteps.stored_of_env h with hs | ⟨o, ho, ⟨spec, -, hs⟩ | ⟨-, hs⟩⟩
  · exact same_of_stored hw hs
  · intro o' ho'
    rw [hs] at ho'
    cases ho'
    simpa [AutoIndexer.withSpec] using hw o ho
  · intro o' ho'
    rw [hs] at ho'
    unfold deleted at ho'
    split at ho'
    · cases ho'
    · cases ho'
      simpa using hw o ho

lemma children_of_jobServes (w : World) (c : JobClient.JobCall) (r : JobClient.JobAnswer c) (w' : World)
    (h : JobServes True w c r w') : w'.children = w.children := by
  cases c with
  | now => exact congrArg World.children h.2
  | getAutoIndexer => exact congrArg World.children h.1
  | patchStatus body =>
    rcases h with h | ⟨-, rfl, -⟩
    · have hw' : w' = (patchJobStatus w body).2 := congrArg Prod.snd h
      rw [hw']
      unfold patchJobStatus
      (repeat' split) <;> rfl
    · rfl
  | rag t q =>
    obtain ⟨s, -, rfl⟩ := h
    unfold putStore
    split <;> rfl
  | kusto q => exact congrArg World.children h
  | fetch url => exact congrArg World.children h

/-- The only CronJob there may be is the one of the AutoIndexer. -/
structure Inv (n u : String) (w : World) : Prop where
  same : Same n u w
  elsewhere : ∀ name, name ≠ n ++ "-cronjob" → childrenAt w .cronJob name = []
  here : childrenAt w .cronJob (n ++ "-cronjob") = [] ∨
    ∃ c, childrenAt w .cronJob (n ++ "-cronjob") = [c] ∧ c.owners = [u]

lemma Inv.of_children (h : Inv n u w) (hs : Same n u w') (hc : w'.children = w.children) :
    Inv n u w' := by
  refine ⟨hs, fun name hn => ?_, ?_⟩
  · rw [childrenAt_congr hc]
    exact h.elsewhere name hn
  · rw [childrenAt_congr hc]
    exact h.here

/-- Ensuring the CronJob of the AutoIndexer leaves one, as generated. -/
lemma ensured_cron {schedule image : String} {l : List Child} (hu : o.uid = u)
    (hl : l = [] ∨ ∃ c, l = [c] ∧ c.owners = [u]) :
    ∃ c, ensured (generateIndexingCronJobManifest o schedule image)
      (updatedCron (generateIndexingCronJobManifest o schedule image)) l = [c] ∧ c.owners = [u] ∧
        c.body = (generateIndexingCronJobManifest o schedule image).body := by
  rcases hl with rfl | ⟨c, rfl, hc⟩
  · exact ⟨_, rfl, congrArg (fun v => [v]) hu, rfl⟩
  · by_cases hb : c.body = (generateIndexingCronJobManifest o schedule image).body
    · refine ⟨c, ?_, hc, hb⟩
      simp [ensured, updatedCron, hb]
    · refine ⟨{ c with body := (generateIndexingCronJobManifest o schedule image).body }, ?_, hc, rfl⟩
      simp [ensured, updatedCron, hb]

lemma Inv.of_reconciled {image : String} {e : Err} (h : Inv n u w) (ho : w.stored = some o)
    (hs : Same n u w') (hr : Reconciled o image w e w') : Inv n u w' := by
  obtain ⟨rfl, rfl⟩ := h.same o ho
  refine ⟨hs, fun name hn => (hr.elsewhere name hn).trans (h.elsewhere name hn), ?_⟩
  change childrenAt w' .cronJob (cronName o) = [] ∨ _
  cases hsch : o.spec.schedule with
  | none =>
    have hsame := hr.unscheduled hsch
    rcases h.here with hn | ⟨c, hc, hco⟩
    · exact .inl (hsame.trans hn)
    · exact .inr ⟨c, hsame.trans hc, hco⟩
  | some schedule =>
    rcases hr.scheduled schedule hsch with hsame | hens
    · rcases h.here with hn | ⟨c, hc, hco⟩
      · exact .inl (hsame.trans hn)
      · exact .inr ⟨c, hsame.trans hc, hco⟩
    · obtain ⟨c, hc, hco, -⟩ := @ensured_cron _ _ schedule image _ rfl h.here
      exact .inr ⟨c, hens.trans hc, hco⟩

lemma Inv.step (h : Inv n u w) (hs : Step w w') : Inv n u w' := by
  cases hs with
  | reconciles he =>
    have hsame := he.keeps same_of_serves h.same
    rcases (reconcile_reconciled w).ends he with ⟨hc, -⟩ | ⟨o, ho, hr⟩
    · exact h.of_children hsame hc
    · exact h.of_reconciled ho hsame hr
  | checks he =>
    exact h.of_children (he.keeps same_of_serves h.same) ((sparing_performDriftCheck.children w).ends he)
  | works he =>
    refine h.of_children (he.keeps same_of_jobServes h.same) ?_
    refine Ends.keeps (J := fun v => v.children = w.children) he (fun v c r v' hv hs => ?_) rfl
    exact (children_of_jobServes v c r v' hs).trans hv
  | acts he hc => exact h.of_children (same_of_env h.same he) hc

/-- The invariant holds after every history. -/
lemma inv_of_steps {w0 : World} (h0 : w0.children = []) (hs : Same n u w0)
    (h : Relation.ReflTransGen Step w0 w) : Inv n u w := by
  induction h with
  | refl =>
    have hat : ∀ name, childrenAt w0 .cronJob name = [] := fun name => by simp [childrenAt, h0]
    exact ⟨hs, fun name _ => hat name, .inl (hat _)⟩
  | tail _ hstep ih => exact ih.step hstep

/-! ### The CronJob follows the spec -/

/-- The CronJobs of the cluster. -/
def cronJobs (w : World) : List Child := w.children.filter (·.kind == .cronJob)

lemma Inv.cronJobs_eq (h : Inv n u w) : cronJobs w = childrenAt w .cronJob (n ++ "-cronjob") := by
  unfold cronJobs childrenAt
  refine List.filter_congr fun c hc => ?_
  by_cases hk : c.kind = .cronJob
  · have hname : c.name = n ++ "-cronjob" := by
      by_contra hn
      have hmem : c ∈ childrenAt w .cronJob c.name := mem_childrenAt.mpr ⟨hc, hk, rfl⟩
      rw [h.elsewhere c.name hn] at hmem
      cases hmem
    simp [hk, hname]
  · simp [hk]

/-- The CronJobs are those that the spec of the object asks for: none, or the one named after it,
owned by it, with the schedule, the suspend flag and the pod template of the spec. -/
def Follows (o : AutoIndexer) (image : String) (w : World) : Prop :=
  match o.spec.schedule with
  | none => cronJobs w = []
  | some schedule => ∃ c, cronJobs w = [c] ∧ c.name = o.name ++ "-cronjob" ∧ c.owners = [o.uid] ∧
      c.body = .cronJob schedule o.spec.suspend (generateJobTemplate o image)

lemma exists_inv {w0 : World} (h0 : w0.children = []) (h : Relation.ReflTransGen Step w0 w)
    (ho : w.stored = some o) : Inv o.name o.uid w := by
  obtain ⟨n, u, hs⟩ : ∃ n u, Same n u w0 := by
    cases hw : w0.stored with
    | none => exact ⟨"", "", fun o ho => by rw [hw] at ho; cases ho⟩
    | some o0 =>
      refine ⟨o0.name, o0.uid, fun o ho => ?_⟩
      obtain rfl : o0 = o := Option.some.inj (hw.symm.trans ho)
      exact ⟨rfl, rfl⟩
  have hinv := inv_of_steps h0 hs h
  obtain ⟨rfl, rfl⟩ := hinv.same o ho
  exact hinv

/-- **After every reconcile without an error, in every history from a cluster without generated
objects, the CronJob follows the spec** that the reconcile began with, exactly when the reconcile
has not found a CronJob without a schedule in the spec. -/
theorem reconcile_follows_iff (w0 w w' : World) (o : AutoIndexer) (h0 : w0.children = [])
    (h : Relation.ReflTransGen Step w0 w) (ho : w.stored = some o) (hd : o.deleting = false)
    (hr : Ends (Serves True) reconcile w none w') :
    Follows o w.image w' ↔ (o.spec.schedule = none → cronJobs w = []) := by
  have hinv : Inv o.name o.uid w := exists_inv h0 h ho
  have hinv' : Inv o.name o.uid w' := hinv.step (.reconciles hr)
  have hrec : Reconciled o w.image w none w' := by
    rcases (reconcile_reconciled w).ends hr with ⟨-, hnone⟩ | ⟨o', ho', hrec⟩
    · rw [hnone rfl o ho] at hd
      cases hd
    · obtain rfl : o = o' := Option.some.inj (ho.symm.trans ho')
      exact hrec
  unfold Follows
  cases hs : o.spec.schedule with
  | none =>
    dsimp only
    rw [hinv'.cronJobs_eq, hinv.cronJobs_eq, ← cronName, hrec.unscheduled hs]
    simp
  | some schedule =>
    obtain ⟨c, hc, hco, hbody⟩ :=
      @ensured_cron o _ schedule w.image _ rfl hinv.here
    have hat : childrenAt w' .cronJob (cronName o) = [c] := (hrec.done rfl schedule hs).trans hc
    have hname : c.name = cronName o := by
      have hmem : c ∈ childrenAt w' .cronJob (cronName o) := by simp [hat]
      exact (mem_childrenAt.mp hmem).2.2
    have hfollows : cronJobs w' = [c] := hinv'.cronJobs_eq.trans hat
    simp only [reduceCtorEq, false_implies, iff_true]
    exact ⟨c, hfollows, hname, hco, hbody⟩

/-! ### A schedule that is removed -/

/-- The example's AutoIndexer with a schedule. -/
def scheduledWorld : World :=
  { demoWorld with stored := some { demo with spec := { demo.spec with schedule := some "@daily" } } }

/-- The cluster after a reconcile. -/
def reconciled (w : World) : World := (reconcile.exec serve w).2

lemma ends_reconciled (h : (reconcile.exec serve w).1 = none) :
    Ends (Serves True) reconcile w none (reconciled w) := by
  have he := Ends.exec reconcile w (serves_serve True)
  rwa [h] at he

/-- With a schedule, the first reconcile makes the CronJob. -/
theorem reconcile_follows_demo :
    Follows { demo with spec := { demo.spec with schedule := some "@daily" } } "image"
      (reconciled scheduledWorld) :=
  (reconcile_follows_iff scheduledWorld scheduledWorld (reconciled scheduledWorld) _ rfl .refl rfl rfl
    (ends_reconciled (by rfl))).mpr nofun

/-- The cluster once a user has removed the schedule. -/
def unscheduledWorld : World :=
  let w := reconciled scheduledWorld
  { w with stored := w.stored.map fun o => accept o (o.withSpec demo.spec) }

/-- A reconcile leaves the CronJob of the schedule that the user has removed. -/
theorem not_reconcile_follows :
    ¬ ∀ (w0 w w' : World) (o : AutoIndexer), w0.children = [] →
      Relation.ReflTransGen Step w0 w → w.stored = some o → o.deleting = false →
      Ends (Serves True) reconcile w none w' → Follows o w.image w' := by
  intro h
  have hmade : Step scheduledWorld (reconciled scheduledWorld) :=
    .reconciles (ends_reconciled (by rfl))
  have hedit : Step (reconciled scheduledWorld) unscheduledWorld := .acts (.edits rfl) rfl
  have hfollows := h scheduledWorld unscheduledWorld (reconciled unscheduledWorld) _ rfl
    ((Relation.ReflTransGen.single hmade).tail hedit) rfl rfl (ends_reconciled (by rfl))
  have hleft : (cronJobs (reconciled unscheduledWorld)).length = 1 := by rfl
  have hnone : cronJobs (reconciled unscheduledWorld) = [] := hfollows
  rw [hnone] at hleft
  cases hleft

end KaitoAutoIndexer.CronJobs
