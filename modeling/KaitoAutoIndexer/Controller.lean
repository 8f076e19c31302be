import KaitoAutoIndexer.Cluster

/-!
The AutoIndexer controller: the RAG engine client, the resources it ensures, the handler of
every phase, garbage collection and `Reconcile`.

A handler gets the object in memory and returns it as it left it, with the error if there
was one; the object is also patched when a handler has failed.
-/

namespace KaitoAutoIndexer.Controller

open KaitoAutoIndexer.Lib KaitoAutoIndexer.Types KaitoAutoIndexer.Conditions
open KaitoAutoIndexer.Cluster

/-- A Go error; `none` is `nil`. -/
abbrev Err := Option String

def ask (c : Call) : Go (Answer c) := Prog.call c

@[simp] lemma ask_bind {α : Type} (c : Call) (f : Answer c → Go α) :
    @Bind.bind Go _ (no_index (Answer c)) α (ask c) f = Prog.ask c f := rfl

def autoIndexerFinalizer : String := "finalizer.autoindexer.kaito.sh"

/-! ### The RAG engine client -/

/-- Retries after the first attempt. -/
def maxRetries : ℕ := 3

/-- Attempts until one succeeds, at most `n` after the first; the error is the last one. -/
def retry {α : Type} (attempt : Go (Except String α)) : ℕ → Go (Except String α)
  | 0 => attempt
  | n + 1 => do
    match ← attempt with
    | .ok a => pure (.ok a)
    | .error _ => retry attempt n

def generateRAGEngineEndpoint (ragEngineName ns : String) : String :=
  "http://" ++ ragEngineName ++ "." ++ ns ++ ".svc.cluster.local:80"

def deleteIndexAttempt (endpoint indexName : String) : Go (Except String Unit) := do
  match ← ask (.httpDeleteIndex endpoint indexName) with
  | .error e => pure (.error ("failed to make HTTP request to RAG engine: " ++ e))
  | .ok status =>
    if status ≠ 200 ∧ status ≠ 404 then
      pure (.error "RAG engine returned non-200 or 404 status")
    else pure (.ok ())

/-- `RAGClient.DeleteIndex`. -/
def deleteIndex (ragEngineName indexName ns : String) : Go Err := do
  match ← retry (deleteIndexAttempt (generateRAGEngineEndpoint ragEngineName ns) indexName)
      maxRetries with
  | .ok _ => pure none
  | .error e => pure (some ("failed to delete index after 4 attempts: " ++ e))

/-- `RAGClient.ListIndexes`. -/
def listIndexes (ragEngineName ns : String) : Go (Except String (List String)) := do
  match ← retry (ask (.httpGetIndexes (generateRAGEngineEndpoint ragEngineName ns))) maxRetries with
  | .ok names => pure (.ok names)
  | .error e => pure (.error ("failed to list indexes after 4 attempts: " ++ e))

/-- `RAGClient.GetDocumentCount`. -/
def getDocumentCount (ragEngineName indexName autoindexerName ns : String) :
    Go (Except String (BitVec 32)) := do
  match ← retry (ask (.httpGetDocumentCount (generateRAGEngineEndpoint ragEngineName ns)
      indexName (ns ++ "_" ++ autoindexerName))) maxRetries with
  | .ok n => pure (.ok (int32 n))
  | .error e => pure (.error ("failed to get document count after 4 attempts: " ++ e))

/-! ### Status -/

def setAutoIndexerCondition (o : AutoIndexer) (type : String) (status : ConditionStatus)
    (reason message : String) : Go AutoIndexer := do
  let t ← ask .now
  pure (o.withStatus { o.status with
    conditions := setCondition ⟨type, status, reason, message, t, o.generation⟩
      o.status.conditions })

def updateStatus (o : AutoIndexer) (newPhase : Phase) (newConditions : List Condition) :
    AutoIndexer :=
  o.withStatus { o.status with
    indexingPhase := newPhase
    conditions := newConditions.foldl (fun cs c => replaceCondition c cs) o.status.conditions }

def updateAnnotations (o existing : AutoIndexer) : Go (AutoIndexer × Err) := do
  if existing.annotations ≠ o.annotations then
    match ← ask (.patch existing o) with
    | .error e => pure (o, some e.message)
    | .ok o' => pure (o', none)
  else pure (o, none)

def setSuspendedState (o : AutoIndexer) (suspend : Bool) : Go (AutoIndexer × Err) := do
  let existing := o
  let o := o.withSpec { o.spec with suspend := some suspend }
  if existing.spec ≠ o.spec then
    match ← ask (.patch existing o) with
    | .error e => pure (o, some e.message)
    | .ok o' => pure (o', none)
  else pure (o, none)

def patchAndReturn (o original : AutoIndexer) (err : Err) : Go Err := do
  if original.status ≠ o.status then
    match ← ask (.patchStatus original o) with
    | .error e => pure (some e.message)
    | .ok _ => pure err
  else pure err

/-! ### Jobs -/

structure JobScan where
  running : ℕ
  failed : ℕ
  completed : ℕ
  latestJobFailed : Bool
  lastJobTimestamp : Option Time

/-- The job's start time is set and after the last one seen. -/
def startedAfter (job : Job) (last : Option Time) : Bool :=
  match job.startTime, last with
  | some t, some l => decide (l < t)
  | some _, none => true
  | none, _ => false

/-- One turn of the loop of `getJobStatus`. -/
def scanJob (s : JobScan) (job : Job) : JobScan :=
  let last := if s.lastJobTimestamp.isNone then job.startTime else s.lastJobTimestamp
  let later := startedAfter job last
  let last' := if later then job.startTime else last
  if 0 < job.active then
    ⟨s.running + 1, s.failed, s.completed, if later then false else s.latestJobFailed, last'⟩
  else if 0 < job.failed then
    ⟨s.running, s.failed + 1, s.completed, if later then true else s.latestJobFailed, last'⟩
  else if 0 < job.succeeded then
    ⟨s.running, s.failed, s.completed + 1, if later then false else s.latestJobFailed, last'⟩
  else ⟨s.running, s.failed, s.completed, s.latestJobFailed, last⟩

def scanJobs (jobs : List Job) : JobScan := jobs.foldl scanJob ⟨0, 0, 0, false, none⟩

def getJobStatus : Go (Except String JobScan) := do
  match ← ask .listJobs with
  | .error e => pure (.error ("failed to list jobs: " ++ e.message))
  | .ok jobs => pure (.ok (scanJobs jobs))

/-! ### Generated objects -/

def resourceLabels (o : AutoIndexer) : List (String × String) :=
  [("autoindexer.kaito.sh/name", o.name), ("autoindexer.kaito.sh/namespace", o.namespace_)]

/-- The Azure part of the workload identity, when the credentials are of that type. -/
def azureIdentity (o : AutoIndexer) : Option AzureWorkloadIdentity :=
  match o.spec.credentials with
  | some c => if c.type = .workloadIdentity then c.workloadIdentity.join else none
  | none => none

def generateServiceAccountName (o : AutoIndexer) : String :=
  match azureIdentity o with
  | some a => if a.serviceAccountName ≠ "" then a.serviceAccountName else o.name ++ "-job-sa"
  | none => o.name ++ "-job-sa"

def generateRoleName (o : AutoIndexer) : String := o.name ++ "-job-access"
def generateRoleBindingName (o : AutoIndexer) : String := o.name ++ "-job-access-binding"

def generateServiceAccountManifest (o : AutoIndexer) : Child where
  kind := .serviceAccount
  name := generateServiceAccountName o
  owners := [o.uid]
  labels := resourceLabels o
  body := .serviceAccount <|
    match azureIdentity o with
    | some a => [("azure.workload.identity/client-id", a.clientID),
        ("azure.workload.identity/tenant-id", a.tenantID)]
    | none => []

def generateRoleManifest (o : AutoIndexer) : Child where
  kind := .role
  name := generateRoleName o
  owners := [o.uid]
  labels := resourceLabels o
  body := .role [o.name]

def generateRoleBindingManifest (o : AutoIndexer) : Child where
  kind := .roleBinding
  name := generateRoleBindingName o
  owners := [o.uid]
  labels := resourceLabels o
  body := .roleBinding (generateServiceAccountName o) (generateRoleName o)

def generateJobTemplate (o : AutoIndexer) (image : String) : JobTemplate :=
  ⟨o.name, o.namespace_, o.spec, image, generateServiceAccountName o⟩

def generateIndexingCronJobManifest (o : AutoIndexer) (schedule image : String) : Child where
  kind := .cronJob
  name := o.name ++ "-cronjob"
  owners := [o.uid]
  labels := resourceLabels o
  body := .cronJob schedule o.spec.suspend (generateJobTemplate o image)

/-! ### Required resources -/

def errOf : Except ApiError Unit → Err
  | .ok _ => none
  | .error e => some e.message

def validateRAGEngineRef (o : AutoIndexer) : Go Err := do
  match ← ask (.getRAGEngine o.spec.ragEngine) with
  | .ok _ => pure none
  | .error .notFound => pure (some ("referenced RAGEngine " ++ o.namespace_ ++ "/" ++
      o.spec.ragEngine ++ " not found"))
  | .error e => pure (some ("failed to get referenced RAGEngine: " ++ e.message))

/-- `ensureServiceAccount`, `ensureRole`, `ensureRoleBinding` and `ensureCronJob`: create the
object if it is not there, else update it to `updated existing` if that is not `none`. -/
def ensureChild (desired : Child) (updated : Child → Option Child) : Go Err := do
  match ← ask (.getChild desired.kind desired.name) with
  | .error .notFound => return errOf (← ask (.createChild desired))
  | .error e => pure (some e.message)
  | .ok existing =>
    match updated existing with
    | some child => return errOf (← ask (.updateChild child))
    | none => pure none

def hasOwnerReference (child : Child) (o : AutoIndexer) : Bool := child.owners.contains o.uid

def ensureServiceAccount (o : AutoIndexer) : Go Err :=
  let desired := generateServiceAccountManifest o
  ensureChild desired fun existing =>
    if ¬ hasOwnerReference existing o then
      some { existing with owners := desired.owners, labels := desired.labels, body := desired.body }
    else if existing.body ≠ desired.body then some { existing with body := desired.body }
    else none

def ensureRole (o : AutoIndexer) : Go Err :=
  let desired := generateRoleManifest o
  ensureChild desired fun existing =>
    if existing.body ≠ desired.body ∨ ¬ hasOwnerReference existing o then some desired else none

def ensureRoleBinding (o : AutoIndexer) : Go Err :=
  let desired := generateRoleBindingManifest o
  ensureChild desired fun existing =>
    if existing.body ≠ desired.body ∨ ¬ hasOwnerReference existing o then some desired else none

def ensureRBACResources (o : AutoIndexer) : Go Err := do
  match ← ensureServiceAccount o with
  | some e => pure (some ("failed to ensure ServiceAccount: " ++ e))
  | none =>
    match ← ensureRole o with
    | some e => pure (some ("failed to ensure Role: " ++ e))
    | none =>
      match ← ensureRoleBinding o with
      | some e => pure (some ("failed to ensure RoleBinding: " ++ e))
      | none => pure none

def ensureCronJob (o : AutoIndexer) (schedule : String) : Go Err := do
  let image ← ask .getJobImage
  let desired := generateIndexingCronJobManifest o schedule image
  ensureChild desired fun existing =>
    if existing.body ≠ desired.body then some { existing with body := desired.body } else none

def ensureJob (o : AutoIndexer) : Go Err := do
  let image ← ask .getJobImage
  match ← ask (.getJob (o.name ++ "-job")) with
  | .error .notFound =>
    return errOf (← ask (.createJob (o.name ++ "-job") (generateJobTemplate o image)))
  | .error e => pure (some e.message)
  -- Jobs are immutable once created
  | .ok _ => pure none

/-- Both conditions of a failed resource, and the error. -/
def resourceFailure (o : AutoIndexer) (reason err message : String) : Go (AutoIndexer × Err) := do
  let o ← setAutoIndexerCondition o errorType .true reason err
  let o ← setAutoIndexerCondition o resourceType .false reason message
  pure (o, some err)

def ensureRequiredResources (o : AutoIndexer) : Go (AutoIndexer × Err) := do
  match ← validateRAGEngineRef o with
  | some e => resourceFailure o "RAGEngineNotFound" e "Referenced RAGEngine not found"
  | none =>
    match ← ensureRBACResources o with
    | some e => resourceFailure o "RBACFailed" e "Failed to ensure RBAC resources"
    | none =>
      match ← (match o.spec.schedule with
        | some schedule => ensureCronJob o schedule
        | none => pure none) with
      | some e => resourceFailure o "CronJobFailed" e "Failed to ensure CronJob resources"
      | none =>
        let o ← setAutoIndexerCondition o errorType .false "ResourcesEnsured" ""
        let o ← setAutoIndexerCondition o resourceType .true "ResourcesEnsured"
          "All required resources are ensured"
        pure (o, none)

/-! ### Phases -/

def handlePendingPhase (o : AutoIndexer) : Go (AutoIndexer × Err) := do
  if o.spec.schedule.isSome then
    if o.spec.suspended then pure (updateStatus o .suspended [], none)
    else pure (updateStatus o .scheduled [], none)
  else
    match ← ensureJob o with
    | some e =>
      let t ← ask .now
      let t' ← ask .now
      pure (updateStatus o .failed
        [⟨errorType, .true, "JobCreationFailed", "Failed to ensure indexing job", t, o.generation⟩,
         ⟨resourceType, .false, "JobCreationFailed", "Failed to ensure indexing job", t',
          o.generation⟩], some e)
    | none => pure (updateStatus o .running [], none)

def handleScheduledPhase (o : AutoIndexer) : Go (AutoIndexer × Err) := do
  if o.spec.suspended then pure (updateStatus o .suspended [], none)
  else
    match ← getJobStatus with
    | .error e => pure (o, some e)
    | .ok jobs =>
      if 0 < jobs.running then pure (updateStatus o .running [], none)
      else if o.driftDetected then
        if o.spec.driftRemediationPolicy = none ∨ o.spec.driftRemediationPolicy = some .ignore then
          pure (o, none)
        else pure (updateStatus o .driftRemediation [], none)
      else pure (o, none)

def handleSuspendedPhase (o : AutoIndexer) : Go (AutoIndexer × Err) :=
  if ¬ o.spec.suspended then pure (updateStatus o .scheduled [], none) else pure (o, none)

def handleRunningPhase (o : AutoIndexer) : Go (AutoIndexer × Err) := do
  match ← getJobStatus with
  | .error e => pure (o, some e)
  | .ok jobs =>
    if jobs.running = 0 then
      if 0 < jobs.failed ∧ jobs.latestJobFailed ∧ o.spec.schedule = none then
        pure (updateStatus o .failed [], none)
      else if 0 < jobs.completed then
        if o.spec.schedule.isSome then pure (updateStatus o .scheduled [], none)
        else pure (updateStatus o .completed [], none)
      else pure (o, none)
    else pure (o, none)

def handleCompletedPhase (o : AutoIndexer) : Go (AutoIndexer × Err) := pure (o, none)

def handleFailedPhase (o : AutoIndexer) : Go (AutoIndexer × Err) := pure (o, none)

/-- Both timestamps are there and parse, and the remediation is the later one. -/
def driftRemediated (a : Annotations) : Bool :=
  match a.lastDriftDetected.bind Stamp.parse, a.lastDriftRemediated.bind Stamp.parse with
  | some tDetect, some tRemediate => decide (tDetect < tRemediate)
  | _, _ => false

/-- Of the characters beyond ASCII only the Kelvin sign and the long s fold to ASCII ones. -/
def foldRune (c : Char) : Char :=
  if c.toNat = 0x212A then 'k' else if c.toNat = 0x17F then 's' else c.toLower

/-- `strings.EqualFold`, where one of the two is ASCII, as the index name of a spec is. -/
def equalFold (s t : String) : Bool := s.toList.map foldRune == t.toList.map foldRune

/-- The status reset of a drift remediation, and the annotation that marks it as done. -/
def finishRemediation (o : AutoIndexer) : Go (AutoIndexer × Err) := do
  let o := if o.spec.dataSource.type = .git then
      o.withStatus { o.status with lastIndexedCommit := some "", numOfDocumentInIndex := 0 }
    else o
  let existing := o
  let t ← ask .now
  let o := { o with annotations :=
    { o.annotations with lastDriftRemediated := some (Stamp.format t) } }
  updateAnnotations o existing

/-- The part of `handleDriftRemediationPhase` that deletes the index. -/
def remediate (o : AutoIndexer) : Go (AutoIndexer × Err) := do
  match ← getJobStatus with
  | .error e => pure (o, some e)
  | .ok jobs =>
    if 0 < jobs.running then pure (o, none)
    else
      match ← listIndexes o.spec.ragEngine o.namespace_ with
      | .error e => pure (o, some e)
      | .ok indexes =>
        if indexes.any (equalFold · o.spec.indexName) then
          match ← deleteIndex o.spec.ragEngine o.spec.indexName o.namespace_ with
          | some e => pure (o, some e)
          | none => finishRemediation o
        else finishRemediation o

def handleDriftRemediationPhase (o : AutoIndexer) : Go (AutoIndexer × Err) :=
  if o.spec.driftRemediationPolicy = some .ignore then pure (updateStatus o .pending [], none)
  else if ¬ o.driftDetected then
    if o.spec.suspended then setSuspendedState o false
    else pure (updateStatus o .pending [], none)
  else if o.spec.driftRemediationPolicy = none ∨ o.spec.driftRemediationPolicy = some .manual then
    pure (o, none)
  else if ¬ o.spec.suspended then setSuspendedState o true
  -- waiting for the detector to update the annotations
  else if driftRemediated o.annotations then pure (o, none)
  else remediate o

/-- The switch of `syncAutoIndexer`. -/
def handlePhase (o : AutoIndexer) : Go (AutoIndexer × Err) :=
  match o.status.indexingPhase with
  | .pending => handlePendingPhase o
  | .scheduled => handleScheduledPhase o
  | .suspended => handleSuspendedPhase o
  | .running => handleRunningPhase o
  | .completed => handleCompletedPhase o
  | .failed => handleFailedPhase o
  | .driftRemediation => handleDriftRemediationPhase o
  | .unset => pure (updateStatus o .pending [], none)

/-! ### Reconcile -/

def syncAutoIndexer (o : AutoIndexer) : Go Err := do
  let existing := o
  match ← ensureRequiredResources o with
  | (o, some e) => patchAndReturn o existing (some e)
  | (o, none) =>
    match ← handlePhase o with
    | (o, some e) =>
      let o ← setAutoIndexerCondition o errorType .true "ReconcileFailed" e
      patchAndReturn o existing (some e)
    | (o, none) =>
      let o ← setAutoIndexerCondition o errorType .false "ReconcileSucceeded" ""
      let o ← setAutoIndexerCondition o resourceType .true "ReconcileSucceeded" ""
      patchAndReturn o existing none

def ensureFinalizer (o : AutoIndexer) : Go (AutoIndexer × Err) := do
  if autoIndexerFinalizer ∈ o.finalizers then pure (o, none)
  else
    let modified := { o with finalizers := o.finalizers ++ [autoIndexerFinalizer] }
    match ← ask (.patch o modified) with
    | .error e => pure (modified, some e.message)
    | .ok o' => pure (o', none)

def garbageCollectAutoIndexer (o : AutoIndexer) : Go Err := do
  match ← ask .listJobs with
  | .error e => pure (some e.message)
  | .ok jobs =>
    if jobs.any fun j => j.active ≠ 0 then pure none
    else
      match ← deleteIndex o.spec.ragEngine o.spec.indexName o.namespace_ with
      | some e => pure (some e)
      | none =>
        if autoIndexerFinalizer ∈ o.finalizers then
          let o := { o with finalizers := o.finalizers.filter (· ≠ autoIndexerFinalizer) }
          return errOf (← ask (.update o))
        else pure none

/-- `Reconcile` after the object has been read. -/
def reconcileObject (o : AutoIndexer) : Go Err := do
  if o.deleting then garbageCollectAutoIndexer o
  else
    match ← ensureFinalizer o with
    | (_, some e) => pure (some e)
    | (o, none) => syncAutoIndexer o

def reconcile : Go Err := do
  match ← ask .get with
  | .error .notFound => pure none
  | .error e => pure (some e.message)
  | .ok o => reconcileObject o

end KaitoAutoIndexer.Controller
