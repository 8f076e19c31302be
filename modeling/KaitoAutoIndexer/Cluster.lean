import KaitoAutoIndexer.Conditions
import KaitoAutoIndexer.Rag

/-!
The cluster as the controller sees it: the stored AutoIndexer, the objects made for it, its
Jobs, and the indexes of the RAG engines; and what the API server and the engines do with
the calls of the controller.
-/

namespace KaitoAutoIndexer.Cluster

open KaitoAutoIndexer.Lib KaitoAutoIndexer.Types KaitoAutoIndexer.Rag

inductive ApiError
  | notFound
  | conflict
  | other (message : String)
  deriving DecidableEq

def ApiError.message : ApiError → String
  | .notFound => "not found"
  | .conflict => "the object has been modified"
  | .other m => m

/-! ### The objects made for an AutoIndexer -/

inductive ChildKind
  | serviceAccount | role | roleBinding | cronJob
  deriving DecidableEq

/-- What the pod template of a Job is generated from; it carries a hash of the spec, so
templates of different specs differ. -/
structure JobTemplate where
  autoIndexer : String
  namespace_ : String
  spec : Spec
  image : String
  serviceAccountName : String
  deriving DecidableEq

/-- The part of a generated object that the controller compares with the stored one. -/
inductive Body
  | serviceAccount (annotations : List (String × String))
  | role (resourceNames : List String)
  | roleBinding (subject : String) (roleRef : String)
  | cronJob (schedule : String) (suspend : Option Bool) (template : JobTemplate)
  deriving DecidableEq

structure Child where
  kind : ChildKind
  name : String
  owners : List String
  labels : List (String × String)
  body : Body
  deriving DecidableEq

structure Job where
  name : String
  active : ℕ
  succeeded : ℕ
  failed : ℕ
  startTime : Option Time
  template : JobTemplate
  deriving DecidableEq

/-- Created, and not yet active. -/
def Job.waiting (j : Job) : Bool := j.active == 0 && j.succeeded == 0 && j.failed == 0

def Job.finished (j : Job) : Bool := j.active == 0 && (decide (0 < j.succeeded) || decide (0 < j.failed))

/-- An index of the RAG engine at `endpoint`. -/
structure Index where
  endpoint : String
  name : String
  docs : Store
  deriving DecidableEq

/-- `jobs` are the Jobs that carry the label of the AutoIndexer, in listing order. -/
structure World where
  stored : Option AutoIndexer
  ragEngines : List String
  children : List Child
  jobs : List Job
  indexes : List Index
  image : String
  clock : Time
  deriving DecidableEq

/-! ### Merge patches -/

/-- A field of a merge patch: absent when the client saw no change. -/
def pick {β : Type} [DecidableEq β] (original modified current : β) : β :=
  if original = modified then current else modified

@[simp] lemma pick_self {β : Type} [DecidableEq β] (a c : β) : pick a a c = c := by simp [pick]

def mergeSpec (original modified current : Spec) : Spec where
  ragEngine := pick original.ragEngine modified.ragEngine current.ragEngine
  indexName := pick original.indexName modified.indexName current.indexName
  dataSource := pick original.dataSource modified.dataSource current.dataSource
  credentials := pick original.credentials modified.credentials current.credentials
  schedule := pick original.schedule modified.schedule current.schedule
  suspend := pick original.suspend modified.suspend current.suspend
  driftRemediationPolicy := pick original.driftRemediationPolicy
    modified.driftRemediationPolicy current.driftRemediationPolicy

def mergeAnnotations (original modified current : Annotations) : Annotations where
  driftDetected := pick original.driftDetected modified.driftDetected current.driftDetected
  lastDriftDetected := pick original.lastDriftDetected modified.lastDriftDetected
    current.lastDriftDetected
  lastDriftRemediated := pick original.lastDriftRemediated modified.lastDriftRemediated
    current.lastDriftRemediated

def mergeStatus (original modified current : Status) : Status where
  lastIndexingTimestamp := pick original.lastIndexingTimestamp modified.lastIndexingTimestamp
    current.lastIndexingTimestamp
  lastIndexedCommit := pick original.lastIndexedCommit modified.lastIndexedCommit
    current.lastIndexedCommit
  lastIndexingDurationSeconds := pick original.lastIndexingDurationSeconds
    modified.lastIndexingDurationSeconds current.lastIndexingDurationSeconds
  indexingPhase := pick original.indexingPhase modified.indexingPhase current.indexingPhase
  successfulIndexingCount := pick original.successfulIndexingCount
    modified.successfulIndexingCount current.successfulIndexingCount
  errorIndexingCount := pick original.errorIndexingCount modified.errorIndexingCount
    current.errorIndexingCount
  numOfDocumentInIndex := pick original.numOfDocumentInIndex modified.numOfDocumentInIndex
    current.numOfDocumentInIndex
  conditions := pick original.conditions modified.conditions current.conditions

/-- A patch of the main resource: the status of the patch is ignored. -/
def mergeMain (original modified current : AutoIndexer) : AutoIndexer :=
  { current with
    finalizers := pick original.finalizers modified.finalizers current.finalizers
    annotations := mergeAnnotations original.annotations modified.annotations current.annotations
    spec := mergeSpec original.spec modified.spec current.spec }

@[simp] lemma pick_original {β : Type} [DecidableEq β] (a m : β) : pick a m a = m := by
  unfold pick
  split <;> simp_all

@[simp] lemma mergeStatus_original (original modified : Status) :
    mergeStatus original modified original = modified := by simp [mergeStatus]

@[simp] lemma mergeSpec_original (original modified : Spec) :
    mergeSpec original modified original = modified := by simp [mergeSpec]

@[simp] lemma mergeAnnotations_original (original modified : Annotations) :
    mergeAnnotations original modified original = modified := by simp [mergeAnnotations]

lemma mergeMain_original (original modified : AutoIndexer) :
    mergeMain original modified original =
      { original with finalizers := modified.finalizers, annotations := modified.annotations,
                      spec := modified.spec } := by
  simp [mergeMain]

/-- What the server stores when it accepts a write: a new resource version unless nothing
changed, and a new generation when the spec did. -/
def accept (current new : AutoIndexer) : AutoIndexer :=
  if new = current then current
  else { new with
    resourceVersion := current.resourceVersion + 1
    generation := if new.spec = current.spec then current.generation
      else current.generation + 1 }

section accept

variable (current new : AutoIndexer)

@[simp] lemma accept_status : (accept current new).status = new.status := by
  unfold accept; split <;> simp_all
@[simp] lemma accept_spec : (accept current new).spec = new.spec := by
  unfold accept; split <;> simp_all
@[simp] lemma accept_annotations : (accept current new).annotations = new.annotations := by
  unfold accept; split <;> simp_all
@[simp] lemma accept_finalizers : (accept current new).finalizers = new.finalizers := by
  unfold accept; split <;> simp_all
@[simp] lemma accept_name : (accept current new).name = new.name := by
  unfold accept; split <;> simp_all
@[simp] lemma accept_namespace : (accept current new).namespace_ = new.namespace_ := by
  unfold accept; split <;> simp_all
@[simp] lemma accept_uid : (accept current new).uid = new.uid := by
  unfold accept; split <;> simp_all
@[simp] lemma accept_deletionTimestamp :
    (accept current new).deletionTimestamp = new.deletionTimestamp := by
  unfold accept; split <;> simp_all

lemma accept_resourceVersion :
    accept current new = current ∨ current.resourceVersion < (accept current new).resourceVersion := by
  unfold accept; split <;> simp

end accept

/-! ### The calls of the controller -/

/-- `list` lists the AutoIndexers, of which the world has one at most; the Jobs are those
with its label. -/
inductive Call
  | get
  | list
  | patch (original modified : AutoIndexer)
  | patchStatus (original modified : AutoIndexer)
  | update (obj : AutoIndexer)
  | getRAGEngine (name : String)
  | getChild (kind : ChildKind) (name : String)
  | createChild (child : Child)
  | updateChild (child : Child)
  | listJobs
  | getJob (name : String)
  | createJob (name : String) (template : JobTemplate)
  | getJobImage
  | httpGetDocumentCount (endpoint index owner : String)
  | httpGetIndexes (endpoint : String)
  | httpDeleteIndex (endpoint index : String)
  | now

/-- An HTTP request fails, or is answered; of the answer to a deletion the client looks at
the status code, of the others only at a body of the right form with status 200. -/
abbrev Answer : Call → Type
  | .get => Except ApiError AutoIndexer
  | .list => Except ApiError (List AutoIndexer)
  | .patch _ _ => Except ApiError AutoIndexer
  | .patchStatus _ _ => Except ApiError Unit
  | .update _ => Except ApiError Unit
  | .getRAGEngine _ => Except ApiError Unit
  | .getChild _ _ => Except ApiError Child
  | .createChild _ => Except ApiError Unit
  | .updateChild _ => Except ApiError Unit
  | .listJobs => Except ApiError (List Job)
  | .getJob _ => Except ApiError Job
  | .createJob _ _ => Except ApiError Unit
  | .getJobImage => String
  | .httpGetDocumentCount _ _ _ => Except String ℕ
  | .httpGetIndexes _ => Except String (List String)
  | .httpDeleteIndex _ _ => Except String ℕ
  | .now => Time

/-- Programs of the controller. -/
abbrev Go := Prog Call Answer

def Index.at (endpoint name : String) (i : Index) : Bool := i.endpoint == endpoint && i.name == name

/-- The documents of an index; an index that does not exist has none. -/
def World.store (w : World) (endpoint name : String) : Store :=
  (w.indexes.filter (Index.at endpoint name)).flatMap Index.docs

def World.deleteIndex (w : World) (endpoint name : String) : World :=
  { w with indexes := w.indexes.filter fun i => !i.at endpoint name }

/-- How a call is answered when nothing goes wrong on the way. -/
def serve (w : World) : (c : Call) → Answer c × World
  | .get =>
    match w.stored with
    | some o => (.ok o, w)
    | none => (.error .notFound, w)
  | .list => (.ok w.stored.toList, w)
  | .patch original modified =>
    match w.stored with
    | some o =>
      let o' := accept o (mergeMain original modified o)
      (.ok o', { w with stored := some o' })
    | none => (.error .notFound, w)
  | .patchStatus original modified =>
    match w.stored with
    | some o =>
      -- the patch carries a resource version only when it differs from the original's
      if original.resourceVersion ≠ modified.resourceVersion ∧
          o.resourceVersion ≠ modified.resourceVersion then (.error .conflict, w)
      else
        let s := mergeStatus original.status modified.status o.status
        (.ok (), { w with stored := some (accept o (o.withStatus s)) })
    | none => (.error .notFound, w)
  | .update obj =>
    match w.stored with
    | some o =>
      if o.resourceVersion ≠ obj.resourceVersion then (.error .conflict, w)
      else
        let o' := { o with
          finalizers := obj.finalizers, annotations := obj.annotations, spec := obj.spec }
        if o'.deleting ∧ o'.finalizers = [] then (.ok (), { w with stored := none })
        else (.ok (), { w with stored := some (accept o o') })
    | none => (.error .notFound, w)
  | .getRAGEngine name =>
    (if name ∈ w.ragEngines then .ok () else .error .notFound, w)
  | .getChild kind name =>
    match w.children.find? fun c => c.kind == kind && c.name == name with
    | some c => (.ok c, w)
    | none => (.error .notFound, w)
  | .createChild child => (.ok (), { w with children := w.children ++ [child] })
  | .updateChild child =>
    (.ok (), { w with children := w.children.map fun c =>
      if c.kind = child.kind ∧ c.name = child.name then child else c })
  | .listJobs => (.ok w.jobs, w)
  | .getJob name =>
    match w.jobs.find? (·.name == name) with
    | some j => (.ok j, w)
    | none => (.error .notFound, w)
  | .createJob name template =>
    (.ok (), { w with jobs := w.jobs ++ [⟨name, 0, 0, 0, none, template⟩] })
  | .getJobImage => (w.image, w)
  | .httpGetDocumentCount endpoint index owner =>
    if w.indexes.any (Index.at endpoint index) then
      (.ok ((w.store endpoint index).filter (·.doc.owner == some owner)).length, w)
    else (.error "RAG engine returned non-200 status: 404", w)
  | .httpGetIndexes endpoint =>
    (.ok ((w.indexes.filter (·.endpoint == endpoint)).map Index.name), w)
  | .httpDeleteIndex endpoint index =>
    if w.indexes.any (Index.at endpoint index) then (.ok 200, w.deleteIndex endpoint index)
    else (.ok 404, w)
  | .now => (w.clock, w)

/-- The ways a call may be reported as failed. -/
def Fault : (c : Call) → Answer c → Prop
  | .get, r => ∃ m, r = .error (.other m)
  | .list, r => ∃ m, r = .error (.other m)
  | .patch _ _, r => ∃ m, r = .error (.other m)
  | .patchStatus _ _, r => ∃ m, r = .error (.other m)
  | .update _, r => ∃ m, r = .error (.other m)
  | .getRAGEngine _, r => ∃ m, r = .error (.other m)
  | .getChild _ _, r => ∃ m, r = .error (.other m)
  | .createChild _, r => ∃ m, r = .error (.other m)
  | .updateChild _, r => ∃ m, r = .error (.other m)
  | .listJobs, r => ∃ m, r = .error (.other m)
  | .getJob _, r => ∃ m, r = .error (.other m)
  | .createJob _ _, r => ∃ m, r = .error (.other m)
  | .getJobImage, _ => False
  | .httpGetDocumentCount _ _ _, r => ∃ m, r = .error m
  | .httpGetIndexes _, r => ∃ m, r = .error m
  | .httpDeleteIndex _ _, r => (∃ m, r = .error m) ∨ ∃ n, n ≠ 200 ∧ n ≠ 404 ∧ r = .ok n
  | .now, _ => False

/-- The services of the cluster. A call that is reported as failed has done nothing, but for
a deletion of an index, which may have been carried out all the same. -/
def Serves (mayFail : Prop) : Service World Call Answer := fun w c r w' =>
  (r, w') = serve w c ∨
    mayFail ∧ Fault c r ∧ (w' = w ∨ (∃ e i, c = .httpDeleteIndex e i) ∧ w' = (serve w c).2)

lemma serves_serve (mayFail : Prop) (w : World) (c : Call) :
    Serves mayFail w c (serve w c).1 (serve w c).2 := Or.inl rfl

@[simp] lemma serves_false (w : World) (c : Call) (r : Answer c) (w' : World) :
    Serves False w c r w' ↔ (r, w') = serve w c := by
  simp [Serves]

end KaitoAutoIndexer.Cluster
