import KaitoAutoIndexer.Controller

/-!
Which calls the routines of the controller make, whatever the answers.
-/

namespace KaitoAutoIndexer.ControllerCalls

open KaitoAutoIndexer.Lib KaitoAutoIndexer.Types KaitoAutoIndexer.Conditions
open KaitoAutoIndexer.Cluster KaitoAutoIndexer.Controller

/-- The call neither writes the AutoIndexer nor deletes an index, nor reads the object anew. -/
def Plain : Call → Prop
  | .get | .list => False
  | .patch _ _ | .patchStatus _ _ | .update _ => False
  | .httpDeleteIndex _ _ => False
  | _ => True

/-- The call looks at, makes or updates what an AutoIndexer needs. -/
def Prepares : Call → Prop
  | .getRAGEngine _ | .getChild _ _ | .createChild _ | .updateChild _ => True
  | .getJobImage | .now => True
  | _ => False

lemma Prepares.plain {c : Call} (h : Prepares c) : Plain c := by
  cases c <;> first | exact h.elim | trivial

/-- Indexes are deleted only where `del` allows it, patches leave the mark of the drift
detector alone, and the object is not updated as a whole. -/
def Allowed (del : String → String → Prop) : Call → Prop
  | .httpDeleteIndex e i => del e i
  | .patch original modified =>
    modified.annotations.driftDetected = original.annotations.driftDetected
  | .update _ => False
  | _ => True

/-- The index an AutoIndexer names. -/
def ownIndex (o : AutoIndexer) (e i : String) : Prop :=
  e = generateRAGEngineEndpoint o.spec.ragEngine o.namespace_ ∧ i = o.spec.indexName

variable {del : String → String → Prop}

lemma Plain.allowed {c : Call} (h : Plain c) : Allowed del c := by
  cases c <;> simp_all [Plain, Allowed]

/-- Nothing is said of the result. -/
abbrev Makes {α : Type} (del : String → String → Prop) (p : Go α) : Prop :=
  Obeys (Allowed del) (fun _ => True) p

abbrev Preparing {α : Type} (p : Go α) : Prop := Obeys Prepares (fun _ => True) p

/-- Every call is plain, and nothing is said of the result. -/
abbrev Plainly {α : Type} (p : Go α) : Prop := Obeys Plain (fun _ => True) p

lemma Makes.bind {α β : Type} {p : Go α} {f : α → Go β} (hp : Makes del p)
    (hf : ∀ a, Makes del (f a)) : Makes del (p >>= f) :=
  Obeys.bind hp fun a _ => hf a

lemma Plainly.bind {α β : Type} {p : Go α} {f : α → Go β} (hp : Plainly p)
    (hf : ∀ a, Plainly (f a)) : Plainly (p >>= f) :=
  Obeys.bind hp fun a _ => hf a

lemma Plainly.makes {α : Type} {p : Go α} (h : Plainly p) : Makes del p :=
  Obeys.mono (fun _ => Plain.allowed) (fun _ h => h) h

lemma makes_ask {c : Call} (hc : Allowed del c) : Makes del (ask c) := ⟨hc, fun _ => trivial⟩

lemma makes_pure {α : Type} (a : α) : Makes del (pure a) := trivial

lemma plainly_ask {c : Call} (hc : Plain c) : Plainly (ask c) := ⟨hc, fun _ => trivial⟩

lemma plainly_pure {α : Type} (a : α) : Plainly (pure a : Go α) := trivial

lemma prepares_ask {c : Call} (hc : Prepares c) : Preparing (ask c) := ⟨hc, fun _ => trivial⟩

/-! ### The RAG engine client -/

/-- The attempts together make the calls of one, and have the result of one. -/
lemma obeys_retry {α : Type} {φ : Call → Prop} {P : Except String α → Prop}
    {attempt : Go (Except String α)} (h : Obeys φ P attempt) (n : ℕ) :
    Obeys φ P (retry attempt n) := by
  induction n with
  | zero => exact h
  | succ n ih =>
    refine Obeys.bind h fun r hr => ?_
    cases r with
    | ok a => exact hr
    | error e => exact ih

lemma makes_deleteIndex {ragEngine index ns : String}
    (h : del (generateRAGEngineEndpoint ragEngine ns) index) :
    Makes del (deleteIndex ragEngine index ns) := by
  have hattempt : Makes del
      (deleteIndexAttempt (generateRAGEngineEndpoint ragEngine ns) index) := by
    refine (makes_ask (by exact h)).bind fun r => ?_
    cases r with
    | error e => exact makes_pure _
    | ok status => dsimp only; split <;> exact makes_pure _
  exact Makes.bind (obeys_retry hattempt _) fun r => by cases r <;> exact makes_pure _

lemma plainly_listIndexes (ragEngine ns : String) : Plainly (listIndexes ragEngine ns) := by
  have hattempt : Plainly (ask (.httpGetIndexes (generateRAGEngineEndpoint ragEngine ns))) :=
    plainly_ask (by trivial)
  exact Plainly.bind (obeys_retry hattempt _) fun r => by cases r <;> exact plainly_pure _

/-! ### Status, jobs and resources -/

/-- `m` is the object `o` with other conditions of the types that the controller sets. -/
def SameButConditions (o m : AutoIndexer) : Prop :=
  ∃ cs, ControllerWrites o.status.conditions cs ∧
    m = o.withStatus { o.status with conditions := cs }

lemma SameButConditions.refl (o : AutoIndexer) : SameButConditions o o :=
  ⟨o.status.conditions, .refl _, rfl⟩

lemma SameButConditions.trans {a b c : AutoIndexer} (h : SameButConditions a b)
    (h' : SameButConditions b c) : SameButConditions a c := by
  obtain ⟨s, hs, rfl⟩ := h
  obtain ⟨s', hs', rfl⟩ := h'
  exact ⟨s', hs.trans hs', rfl⟩

lemma makes_setAutoIndexerCondition (o : AutoIndexer) (type : String) (status : ConditionStatus)
    (reason message : String) : Makes del (setAutoIndexerCondition o type status reason message) :=
  (makes_ask (by trivial)).bind fun _ => makes_pure _

lemma makes_updateAnnotations {o existing : AutoIndexer}
    (h : o.annotations.driftDetected = existing.annotations.driftDetected) :
    Makes del (updateAnnotations o existing) := by
  unfold updateAnnotations
  split
  · exact (makes_ask (by exact h)).bind fun r => by cases r <;> exact makes_pure _
  · exact makes_pure _

lemma makes_setSuspendedState (o : AutoIndexer) (suspend : Bool) :
    Makes del (setSuspendedState o suspend) := by
  unfold setSuspendedState
  extract_lets existing o'
  split
  · exact (makes_ask (by exact rfl)).bind fun r => by cases r <;> exact makes_pure _
  · exact makes_pure _

lemma makes_patchAndReturn (o original : AutoIndexer) (err : Err) :
    Makes del (patchAndReturn o original err) := by
  unfold patchAndReturn
  split
  · exact (makes_ask (by trivial)).bind fun r => by cases r <;> exact makes_pure _
  · exact makes_pure _

lemma plainly_getJobStatus : Plainly getJobStatus :=
  (plainly_ask (by trivial)).bind fun r => by cases r <;> exact plainly_pure _

lemma prepares_ensureChild (desired : Child) (updated : Child → Option Child) :
    Preparing (ensureChild desired updated) := by
  refine (prepares_ask (by trivial)).bind fun r _ => ?_
  match r with
  | .ok existing =>
    dsimp only
    split
    · exact ⟨trivial, fun _ => trivial⟩
    · trivial
  | .error .notFound => exact ⟨trivial, fun _ => trivial⟩
  | .error .conflict => trivial
  | .error (.other m) => trivial

lemma prepares_validateRAGEngineRef (o : AutoIndexer) : Preparing (validateRAGEngineRef o) := by
  refine ⟨trivial, fun r => ?_⟩
  match r with
  | .ok _ => trivial
  | .error .notFound => trivial
  | .error .conflict => trivial
  | .error (.other m) => trivial

lemma prepares_ensureRBACResources (o : AutoIndexer) : Preparing (ensureRBACResources o) := by
  refine (prepares_ensureChild _ _).bind fun e _ => ?_
  cases e with
  | some e => trivial
  | none =>
    refine (prepares_ensureChild _ _).bind fun e _ => ?_
    cases e with
    | some e => trivial
    | none => exact (prepares_ensureChild _ _).bind fun e _ => by cases e <;> trivial

lemma prepares_ensureCronJob (o : AutoIndexer) (schedule : String) :
    Preparing (ensureCronJob o schedule) :=
  ⟨trivial, fun _ => prepares_ensureChild _ _⟩

lemma plainly_ensureJob (o : AutoIndexer) : Plainly (ensureJob o) := by
  refine (plainly_ask (by trivial)).bind fun _ => (plainly_ask (by trivial)).bind fun r => ?_
  match r with
  | .ok _ => exact plainly_pure _
  | .error .notFound => exact (plainly_ask (by trivial)).bind fun _ => plainly_pure _
  | .error .conflict => exact plainly_pure _
  | .error (.other m) => exact plainly_pure _

/-! ### Required resources, and the object they leave -/

lemma prepares_setAutoIndexerCondition (o : AutoIndexer) {type : String} (status : ConditionStatus)
    (reason message : String) (h : type = errorType ∨ type = resourceType) :
    Obeys Prepares (SameButConditions o) (setAutoIndexerCondition o type status reason message) :=
  ⟨trivial, fun _ => ⟨_, controllerWrites_setCondition _ h, rfl⟩⟩

lemma prepares_resourceFailure (o : AutoIndexer) (reason err message : String) :
    Obeys Prepares (fun r => SameButConditions o r.1) (resourceFailure o reason err message) :=
  (prepares_setAutoIndexerCondition _ _ _ _ (.inl rfl)).bind fun _ h =>
    (prepares_setAutoIndexerCondition _ _ _ _ (.inr rfl)).bind fun _ h' => h.trans h'

/-- The object in memory only gets other conditions. -/
lemma prepares_ensureRequiredResources (o : AutoIndexer) :
    Obeys Prepares (fun r => SameButConditions o r.1) (ensureRequiredResources o) := by
  refine (prepares_validateRAGEngineRef o).bind fun e _ => ?_
  cases e with
  | some e => exact prepares_resourceFailure _ _ _ _
  | none =>
    refine (prepares_ensureRBACResources o).bind fun e _ => ?_
    cases e with
    | some e => exact prepares_resourceFailure _ _ _ _
    | none =>
      refine Obeys.bind (P := fun _ => True) ?_ fun e _ => ?_
      · cases o.spec.schedule with
        | some schedule => exact prepares_ensureCronJob o schedule
        | none => trivial
      cases e with
      | some e => exact prepares_resourceFailure _ _ _ _
      | none =>
        exact (prepares_setAutoIndexerCondition _ _ _ _ (.inl rfl)).bind fun _ h =>
          (prepares_setAutoIndexerCondition _ _ _ _ (.inr rfl)).bind fun _ h' => h.trans h'

lemma plain_ensureRequiredResources (o : AutoIndexer) :
    Obeys Plain (fun r => SameButConditions o r.1) (ensureRequiredResources o) :=
  (prepares_ensureRequiredResources o).mono (fun _ => Prepares.plain) fun _ h => h

/-! ### Phases -/

lemma plainly_handlePendingPhase (o : AutoIndexer) : Plainly (handlePendingPhase o) := by
  unfold handlePendingPhase
  split
  · split <;> exact plainly_pure _
  · refine (plainly_ensureJob o).bind fun e => ?_
    cases e with
    | some e =>
      refine (plainly_ask (by trivial)).bind fun _ => ?_
      exact (plainly_ask (by trivial)).bind fun _ => plainly_pure _
    | none => exact plainly_pure _

lemma plainly_handleScheduledPhase (o : AutoIndexer) : Plainly (handleScheduledPhase o) := by
  unfold handleScheduledPhase
  split
  · exact plainly_pure _
  · refine plainly_getJobStatus.bind fun r => ?_
    cases r with
    | error e => exact plainly_pure _
    | ok jobs => dsimp only; repeat' split <;> try exact plainly_pure _

lemma plainly_handleSuspendedPhase (o : AutoIndexer) : Plainly (handleSuspendedPhase o) := by
  unfold handleSuspendedPhase
  split <;> exact plainly_pure _

lemma plainly_handleRunningPhase (o : AutoIndexer) : Plainly (handleRunningPhase o) := by
  refine plainly_getJobStatus.bind fun r => ?_
  cases r with
  | error e => exact plainly_pure _
  | ok jobs => dsimp only; repeat' split <;> try exact plainly_pure _

/-- The object with the status reset that Git sources get. -/
def resetStatus (o : AutoIndexer) : AutoIndexer :=
  if o.spec.dataSource.type = .git then
    o.withStatus { o.status with lastIndexedCommit := some "", numOfDocumentInIndex := 0 }
  else o

lemma resetStatus_annotations (o : AutoIndexer) : (resetStatus o).annotations = o.annotations := by
  unfold resetStatus
  split <;> rfl

lemma resetStatus_resourceVersion (o : AutoIndexer) :
    (resetStatus o).resourceVersion = o.resourceVersion := by
  unfold resetStatus
  split <;> rfl

lemma makes_finishRemediation (o : AutoIndexer) : Makes del (finishRemediation o) :=
  (makes_ask (by trivial)).bind fun _ => makes_updateAnnotations (by split <;> rfl)

lemma makes_remediate {o : AutoIndexer}
    (h : del (generateRAGEngineEndpoint o.spec.ragEngine o.namespace_) o.spec.indexName) :
    Makes del (remediate o) := by
  refine (Plainly.makes plainly_getJobStatus).bind fun r => ?_
  cases r with
  | error e => exact makes_pure _
  | ok jobs =>
    dsimp only
    split
    · exact makes_pure _
    · refine (Plainly.makes (plainly_listIndexes _ _)).bind fun r => ?_
      cases r with
      | error e => exact makes_pure _
      | ok indexes =>
        dsimp only
        split
        · refine (makes_deleteIndex h).bind fun e => ?_
          cases e with
          | some e => exact makes_pure _
          | none => exact makes_finishRemediation o
        · exact makes_finishRemediation o

/-- Apart from the remediation itself, the phase DriftRemediation deletes nothing. -/
lemma makes_handleDriftRemediationPhase {o : AutoIndexer} (h : Makes del (remediate o)) :
    Makes del (handleDriftRemediationPhase o) := by
  unfold handleDriftRemediationPhase
  split
  · exact makes_pure _
  · split
    · split
      · exact makes_setSuspendedState _ _
      · exact makes_pure _
    · split
      · exact makes_pure _
      · split
        · exact makes_setSuspendedState _ _
        · split
          · exact makes_pure _
          · exact h

lemma makes_handlePhase {o : AutoIndexer} (h : Makes del (remediate o)) :
    Makes del (handlePhase o) := by
  unfold handlePhase
  split
  · exact (plainly_handlePendingPhase o).makes
  · exact (plainly_handleScheduledPhase o).makes
  · exact (plainly_handleSuspendedPhase o).makes
  · exact (plainly_handleRunningPhase o).makes
  · exact makes_pure _
  · exact makes_pure _
  · exact makes_handleDriftRemediationPhase h
  · exact makes_pure _

/-! ### Reconcile -/

lemma makes_syncAutoIndexer {o : AutoIndexer}
    (h : del (generateRAGEngineEndpoint o.spec.ragEngine o.namespace_) o.spec.indexName) :
    Makes del (syncAutoIndexer o) := by
  refine Obeys.bind ((plain_ensureRequiredResources o).mono (fun _ => Plain.allowed)
    fun _ h => h) ?_
  rintro ⟨m, e⟩ ⟨cs, -, rfl⟩
  cases e with
  | some e => exact makes_patchAndReturn _ _ _
  | none =>
    have hm : Makes del (remediate (o.withStatus { o.status with conditions := cs })) :=
      makes_remediate h
    refine (makes_handlePhase hm).bind ?_
    rintro ⟨m, e⟩
    cases e with
    | some e =>
      exact (makes_setAutoIndexerCondition _ _ _ _ _).bind fun _ => makes_patchAndReturn _ _ _
    | none =>
      exact (makes_setAutoIndexerCondition _ _ _ _ _).bind fun _ =>
        (makes_setAutoIndexerCondition _ _ _ _ _).bind fun _ => makes_patchAndReturn _ _ _

lemma makes_ensureFinalizer (o : AutoIndexer) : Makes del (ensureFinalizer o) := by
  unfold ensureFinalizer
  split
  · exact makes_pure _
  · exact (makes_ask (by exact rfl)).bind fun r => by cases r <;> exact makes_pure _

end KaitoAutoIndexer.ControllerCalls
