import KaitoAutoIndexer.Lib.Interleave
import KaitoAutoIndexer.Detector
import KaitoAutoIndexer.Job

/-!
The whole system around one AutoIndexer: the controller, the drift detector and the indexing
job run side by side on one cluster, in which Jobs come and go, users edit the spec, and time
passes.
-/

namespace KaitoAutoIndexer.System

open KaitoAutoIndexer.Lib KaitoAutoIndexer.Types KaitoAutoIndexer.Rag
open KaitoAutoIndexer.Cluster KaitoAutoIndexer.Controller KaitoAutoIndexer.Detector
open KaitoAutoIndexer.JobClient

/-! ### What the cluster does with the calls of the job -/

/-- The documents of an index are replaced; an index that is not there is made. -/
def putStore (w : World) (endpoint name : String) (s : Store) : World :=
  if s = w.store endpoint name then w
  else { w with indexes := w.indexes.filter (fun i => !i.at endpoint name) ++ [⟨endpoint, name, s⟩] }

/-- The object the job reads. -/
def readAutoIndexer (w : World) : Except ApiError AutoIndexer :=
  match w.stored with
  | some o => .ok o
  | none => .error .notFound

/-- The patch of the status carries the resource version that the job has read. -/
def patchJobStatus (w : World) (body : AutoIndexer) : Except ApiError Unit × World :=
  match w.stored with
  | some o =>
    if o.resourceVersion ≠ body.resourceVersion then (.error .conflict, w)
    else (.ok (), { w with stored := some (accept o (o.withStatus body.status)) })
  | none => (.error .notFound, w)

/-- The services of the cluster for the job. What a query or a fetch gives is open. -/
def JobServes (mayFail : Prop) : Service World JobCall JobAnswer
  | w, .now, r, w' => r = w.clock ∧ w' = w
  | w, .getAutoIndexer, r, w' =>
    w' = w ∧ (r = readAutoIndexer w ∨ mayFail ∧ ∃ m, r = .error (.other m))
  | w, .patchStatus body, r, w' =>
    (r, w') = patchJobStatus w body ∨ mayFail ∧ w' = w ∧ ∃ m, r = .error (.other m)
  | w, .rag t q, r, w' => ∃ s, Rag.Serves mayFail (w.store t.endpoint t.index) q r s ∧
      w' = putStore w t.endpoint t.index s
  | w, .kusto _, _, w' => w' = w
  | w, .fetch _, _, w' => w' = w

/-- One way to answer the job: queries give no rows, and nothing can be fetched. -/
def jobServe (w : World) : (c : JobCall) → JobAnswer c × World
  | .now => (w.clock, w)
  | .getAutoIndexer => (readAutoIndexer w, w)
  | .patchStatus body => patchJobStatus w body
  | .rag t q =>
    let a := Rag.serve (w.store t.endpoint t.index) q
    (a.1, putStore w t.endpoint t.index a.2)
  | .kusto _ => (.ok [], w)
  | .fetch _ => (.error "unreachable", w)

lemma jobServes_jobServe (mayFail : Prop) (w : World) (c : JobCall) :
    JobServes mayFail w c (jobServe w c).1 (jobServe w c).2 := by
  match c with
  | .now => exact ⟨rfl, rfl⟩
  | .getAutoIndexer => exact ⟨rfl, .inl rfl⟩
  | .patchStatus body => exact .inl rfl
  | .rag t q => exact ⟨_, Rag.serves_serve mayFail _ q, rfl⟩
  | .kusto q => rfl
  | .fetch u => rfl

/-- As `jobServe`, with a page behind every URL. -/
def fetched (w : World) : (c : JobCall) → JobAnswer c × World
  | .fetch _ => (.ok (some "A"), w)
  | c => jobServe w c

lemma jobServes_fetched (mayFail : Prop) (w : World) (c : JobCall) :
    JobServes mayFail w c (fetched w c).1 (fetched w c).2 := by
  match c with
  | .fetch u => rfl
  | .now => exact jobServes_jobServe mayFail w .now
  | .getAutoIndexer => exact jobServes_jobServe mayFail w .getAutoIndexer
  | .patchStatus body => exact jobServes_jobServe mayFail w (.patchStatus body)
  | .rag t q => exact jobServes_jobServe mayFail w (.rag t q)
  | .kusto q => exact jobServes_jobServe mayFail w (.kusto q)

/-! ### Threads and environment -/

/-- What runs programs: the reconciler, the loop of the drift detector, and the pod of a Job.
The CronJob forbids that two Jobs run at a time. -/
inductive Actor
  | controller | detector | job
  deriving DecidableEq

abbrev Actor.Calls : Actor → Type
  | .controller => Call
  | .detector => Call
  | .job => JobCall

abbrev Actor.Answers : (i : Actor) → i.Calls → Type
  | .controller, c => Answer c
  | .detector, c => Answer c
  | .job, c => JobAnswer c

abbrev Actor.Result : Actor → Type
  | .controller => Err
  | .detector => Unit
  | .job => Option Bool

/-- What happens without one of the programs. -/
inductive Act
  /-- The CronJob makes a Job. -/
  | fires (name : String)
  /-- The status of a Job changes. -/
  | moves (job : Job)
  /-- A finished Job is removed. -/
  | gone (name : String)
  /-- A user edits the spec. -/
  | edits (spec : Spec)
  /-- A user deletes the AutoIndexer. -/
  | deletes
  | passes (t : Time)
  /-- Others change the RAG engines, their indexes, or the generated objects. -/
  | others (ragEngines : List String) (indexes : List Index) (children : List Child)
      (image : String)

/-- The object once a user has deleted it: it stays as long as it has a finalizer. -/
def deleted (o : AutoIndexer) (t : Time) : Option AutoIndexer :=
  if o.finalizers = [] then none
  else some (accept o { o with deletionTimestamp := o.deletionTimestamp <|> some t })

/-- The CronJob may make a Job: it is not suspended, and none that it made is unfinished. -/
def MayFire (w : World) (template : JobTemplate) : Prop :=
  (∃ c ∈ w.children, ∃ schedule suspend, c.body = .cronJob schedule suspend template ∧
    suspend ≠ some true) ∧
  ∀ j ∈ w.jobs, j.name ≠ template.autoIndexer ++ "-job" → j.finished = true

inductive Env : Act → World → World → Prop
  | fires {w : World} {name : String} {template : JobTemplate} (h : MayFire w template)
      (hn : ∀ j ∈ w.jobs, j.name ≠ name) :
      Env (.fires name) w { w with jobs := w.jobs ++ [⟨name, 0, 0, 0, none, template⟩] }
  | moves {w : World} {job : Job} {l₁ l₂ : List Job} {old : Job} (h : w.jobs = l₁ ++ old :: l₂)
      (hn : job.name = old.name) (ht : job.template = old.template) :
      Env (.moves job) w { w with jobs := l₁ ++ job :: l₂ }
  | gone {w : World} {l₁ l₂ : List Job} {old : Job} (h : w.jobs = l₁ ++ old :: l₂)
      (hf : old.finished = true) : Env (.gone old.name) w { w with jobs := l₁ ++ l₂ }
  | edits {w : World} {o : AutoIndexer} {spec : Spec} (h : w.stored = some o) :
      Env (.edits spec) w { w with stored := some (accept o (o.withSpec spec)) }
  | deletes {w : World} {o : AutoIndexer} (h : w.stored = some o) :
      Env .deletes w { w with stored := deleted o w.clock }
  | passes {w : World} {t : Time} (h : w.clock ≤ t) : Env (.passes t) w { w with clock := t }
  | others {w : World} {ragEngines : List String} {indexes : List Index} {children : List Child}
      {image : String} :
      Env (.others ragEngines indexes children image) w
        { w with ragEngines := ragEngines, indexes := indexes, children := children, image := image }

/-- Every call may fail. -/
abbrev system : System Actor World where
  Calls := Actor.Calls
  Answers := Actor.Answers
  Result := Actor.Result
  Act := Act
  starts
    | .controller, p => p = reconcile
    | .detector, p => p = performDriftCheck
    | .job, p => ∃ r, p = Job.main r
  serve
    | .controller => Serves True
    | .detector => Serves True
    | .job => JobServes True
  env := Env

end KaitoAutoIndexer.System
