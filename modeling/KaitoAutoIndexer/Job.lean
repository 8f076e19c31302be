import KaitoAutoIndexer.Git
import KaitoAutoIndexer.Kusto
import KaitoAutoIndexer.Static

/-!
The indexing job: the handler it makes for an AutoIndexer, and its run.
-/

namespace KaitoAutoIndexer.Job

open KaitoAutoIndexer.Lib KaitoAutoIndexer.Types KaitoAutoIndexer.Conditions
open KaitoAutoIndexer.Rag KaitoAutoIndexer.JobClient
open KaitoAutoIndexer.Git KaitoAutoIndexer.Kusto KaitoAutoIndexer.Static

inductive Handler
  | git (h : GitHandler)
  | static (h : StaticHandler)
  | database (h : KustoHandler)

/-- The endpoint and the index that `_apply_crd_config` takes from the resource. -/
def target (o : AutoIndexer) : Target where
  endpoint := "http://" ++ o.spec.ragEngine ++ "." ++ o.namespace_ ++ ".svc.cluster.local:80"
  index := o.spec.indexName

def gitHandler (o : AutoIndexer) (g : GitDataSource) : GitHandler where
  target := target o
  autoindexerName := o.tag
  repository := g.repository
  branch := g.branch
  commit := g.commit
  paths := g.paths
  excludePaths := g.excludePaths
  lastIndexedCommit := o.status.lastIndexedCommit.getD ""
  conditions := o.status.conditions

def staticHandler (o : AutoIndexer) (s : StaticDataSource) : StaticHandler where
  target := target o
  autoindexerName := o.tag
  urls := s.urls

def kustoHandler (o : AutoIndexer) (d : DatabaseDataSource) : KustoHandler where
  target := target o
  autoindexerName := o.tag
  initialQuery := d.initialQuery
  incrementalQuery := d.incrementalQuery
  conditions := o.status.conditions

/-- `_apply_crd_config` and `_create_data_source_handler`; `none` stands for the exceptions
raised on a configuration that is missing or not supported. -/
def createDataSourceHandler (o : AutoIndexer) : Option Handler :=
  if o.spec.indexName = "" ∨ o.spec.ragEngine = "" then none
  else
    match o.spec.dataSource.type with
    | .git =>
      match o.spec.dataSource.git with
      | some g => if g.repository = "" then none else some (.git (gitHandler o g))
      | none => none
    | .static => o.spec.dataSource.static.map fun s => .static (staticHandler o s)
    | .database =>
      match o.spec.dataSource.database with
      | some d =>
        if d.language ≠ "Kusto" ∨ d.initialQuery = "" then none
        else some (.database (kustoHandler o d))
      | none => none

def Handler.target : Handler → Target
  | .git h => h.target
  | .static h => h.target
  | .database h => h.target

def Handler.autoindexerName : Handler → String
  | .git h => h.autoindexerName
  | .static h => h.autoindexerName
  | .database h => h.autoindexerName

def Handler.updateIndex (r : Remote) : Handler → Py Outcome
  | .git h => h.updateIndex r
  | .static h => h.updateIndex
  | .database h => h.updateIndex

/-- `indexing_duration_seconds` of the status update: `timedelta.seconds` leaves days out,
`total_seconds()` does not. -/
def Handler.durationSeconds (totalTime : Time) : Handler → ℕ
  | .database _ => totalTime / 1000000
  | _ => totalTime / 1000000 % 86400

/-- `update_autoindexer_status` of the handlers. -/
def Handler.updateAutoindexerStatus (h : Handler) (out : Outcome) : Py Unit := do
  match ← createBaseStatusUpdate h.target h.autoindexerName out.errors
      (h.durationSeconds out.totalTime) with
  | none => pure ()
  | some update =>
    let _ ← JobClient.updateAutoindexerStatus
      { update with lastIndexedCommit := out.commitHash.filter (· ≠ "") }
    pure ()

/-- `AutoIndexerJob.run`, without the events it creates. -/
def run (r : Remote) (h : Handler) : Py Bool := do
  let startTime ← ask .now
  let _ ← addStatusCondition indexingType .true "IndexingStarted"
    "Document indexing process has started"
  let out ← h.updateIndex r
  h.updateAutoindexerStatus out
  let endTime ← ask .now
  let durationSeconds := (endTime - startTime) / 1000000
  let documentCount ← countDocuments h.target h.autoindexerName
  if out.returned ≠ [] then
    let _ ← addStatusCondition errorType .true "IndexingErrors"
      ("Indexing completed with " ++ toString out.returned.length ++ " errors")
    let _ ← updateIndexingCompletion false durationSeconds documentCount
    pure false
  else
    let _ ← addStatusCondition indexingType .false "IndexingCompleted"
      "Document indexing process completed successfully"
    let _ ← updateIndexingCompletion true durationSeconds documentCount
    pure true

/-- What the process of a job does: `none` if the job cannot be made. -/
def main (r : Remote) : Py (Option Bool) := do
  match ← getAutoindexer with
  | .ok (some o) =>
    match createDataSourceHandler o with
    | some h => return some (← run r h)
    | none => pure none
  | _ => pure none

end KaitoAutoIndexer.Job
