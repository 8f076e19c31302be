import KaitoAutoIndexer.Lib.Prog

/-!
The AutoIndexer resource as the API server stores it: spec, status and the metadata the
controller, the drift detector and the indexing job read or write.
-/

namespace KaitoAutoIndexer.Types

/-- A point in time, in microseconds. -/
abbrev Time := ℕ

/-- The value of a timestamp annotation: a whole second in RFC 3339, or any other text. -/
inductive Stamp
  | rfc3339 (second : ℕ)
  | text (s : String)
  deriving DecidableEq

/-- `time.Format(time.RFC3339)` keeps whole seconds. -/
def Stamp.format (t : Time) : Stamp := .rfc3339 (t / 1000000)

/-- `time.Parse(time.RFC3339, ..)`. -/
def Stamp.parse : Stamp → Option ℕ
  | .rfc3339 s => some s
  | .text _ => none

inductive ConditionStatus
  | true | false | unknown
  deriving DecidableEq

structure Condition where
  type : String
  status : ConditionStatus
  reason : String
  message : String
  lastTransitionTime : Time
  observedGeneration : ℕ
  deriving DecidableEq

/-- `AutoIndexerPhase`; `unset` stands for the empty string and every unknown text. -/
inductive Phase
  | pending | running | suspended | scheduled | completed | failed | driftRemediation | unset
  deriving DecidableEq

/-- `DriftRemediationStrategy`. -/
inductive Strategy
  | auto | manual | ignore
  deriving DecidableEq

structure GitDataSource where
  repository : String
  branch : String
  commit : Option String
  paths : List String
  excludePaths : List String
  deriving DecidableEq

structure StaticDataSource where
  urls : List String
  deriving DecidableEq

structure DatabaseDataSource where
  language : String
  initialQuery : String
  incrementalQuery : Option String
  deriving DecidableEq

inductive DataSourceType
  | git | static | database
  deriving DecidableEq

structure DataSource where
  type : DataSourceType
  git : Option GitDataSource
  static : Option StaticDataSource
  database : Option DatabaseDataSource
  deriving DecidableEq

inductive CredentialType
  | secretRef | workloadIdentity
  deriving DecidableEq

structure SecretKeyRef where
  name : String
  key : String
  deriving DecidableEq

structure AzureWorkloadIdentity where
  serviceAccountName : String
  scope : String
  clientID : String
  tenantID : String
  deriving DecidableEq

/-- `CredentialsSpec`; Azure is the only cloud provider, so `workloadIdentity` says whether
the struct is there and, in it, whether its Azure part is. -/
structure Credentials where
  type : CredentialType
  secretRef : Option SecretKeyRef
  workloadIdentity : Option (Option AzureWorkloadIdentity)
  deriving DecidableEq

structure Spec where
  ragEngine : String
  indexName : String
  dataSource : DataSource
  credentials : Option Credentials
  schedule : Option String
  suspend : Option Bool
  driftRemediationPolicy : Option Strategy
  deriving DecidableEq

/-- `AutoIndexerStatus`, less the two fields that nothing reads or writes. -/
structure Status where
  lastIndexingTimestamp : Option Time
  lastIndexedCommit : Option String
  lastIndexingDurationSeconds : ℕ
  indexingPhase : Phase
  successfulIndexingCount : ℕ
  errorIndexingCount : ℕ
  numOfDocumentInIndex : ℕ
  conditions : List Condition
  deriving DecidableEq

/-- The three annotations of `autoindexer.kaito.sh`: `drift-detected`,
`last-drift-detected` and `last-drift-remediated`. -/
structure Annotations where
  driftDetected : Option String
  lastDriftDetected : Option Stamp
  lastDriftRemediated : Option Stamp
  deriving DecidableEq

structure AutoIndexer where
  name : String
  namespace_ : String
  uid : String
  generation : ℕ
  resourceVersion : ℕ
  deletionTimestamp : Option Time
  finalizers : List String
  annotations : Annotations
  spec : Spec
  status : Status
  deriving DecidableEq

/-- `int32(n)`, which keeps the low 32 bits. -/
def int32 (n : ℕ) : BitVec 32 := BitVec.ofNat 32 n

/-- `spec.Suspend != nil && *spec.Suspend`. -/
def Spec.suspended (s : Spec) : Bool := s.suspend == some true

/-- `DeletionTimestamp` is set. -/
def AutoIndexer.deleting (o : AutoIndexer) : Bool := o.deletionTimestamp.isSome

/-- The `drift-detected` annotation is the text `"true"`. -/
def AutoIndexer.driftDetected (o : AutoIndexer) : Bool :=
  o.annotations.driftDetected == some "true"

def AutoIndexer.withStatus (o : AutoIndexer) (s : Status) : AutoIndexer := { o with status := s }
def AutoIndexer.withSpec (o : AutoIndexer) (s : Spec) : AutoIndexer := { o with spec := s }

/-- The tag that the documents of an AutoIndexer carry. -/
def AutoIndexer.tag (o : AutoIndexer) : String := o.namespace_ ++ "_" ++ o.name

end KaitoAutoIndexer.Types
