import KaitoAutoIndexer.JobClient

/-!
The Kusto data source handler: the query of a run, the documents made of its rows, and
their indexing in batches.
-/

namespace KaitoAutoIndexer.Kusto

open KaitoAutoIndexer.Lib KaitoAutoIndexer.Types KaitoAutoIndexer.Conditions
open KaitoAutoIndexer.Rag KaitoAutoIndexer.JobClient

structure KustoHandler where
  target : Target
  autoindexerName : String
  initialQuery : String
  incrementalQuery : Option String
  conditions : List Condition

/-- `_get_last_checkpoint_time`; a resource that cannot be read has no timestamp. -/
def getLastCheckpointTime : Py (Option Time) := do
  match ← getAutoindexer with
  | .ok (some o) => pure o.status.lastIndexingTimestamp
  | _ => pure none

def timestampVariable : String := "$LAST_INDEXING_TIMESTAMP"

/-- `_build_query`, after the timestamp was read. -/
def KustoHandler.query (h : KustoHandler) (lastTimestamp : Option Time) : Except String Query :=
  match lastTimestamp with
  | none => .ok (.plain h.initialQuery)
  | some t =>
    if hadErrors h.conditions then .ok (.plain h.initialQuery)
    else
      match h.incrementalQuery with
      | some q => .ok (.stamped (Text.splitAround timestampVariable.toList q.toList) t)
      | none => .error "'NoneType' object has no attribute 'replace'"

def KustoHandler.buildQuery (h : KustoHandler) : Py (Except String Query) := do
  return h.query (← getLastCheckpointTime)

/-! ### Documents -/

/-- The text made of a record: its columns with a value that is not blank. -/
def recordText (record : Record) : Option String :=
  let parts := record.filterMap fun (key, value) =>
    match value with
    | some v => if v.toList.all Text.isSpace then none else some (key ++ ": " ++ v)
    | none => none
  if parts = [] then none else some ("\n".intercalate parts)

/-- `_format_documents`. -/
def KustoHandler.formatDocuments (h : KustoHandler) : List Record → Py (List Document)
  | [] => pure []
  | record :: records =>
    match recordText record with
    | none => h.formatDocuments records
    | some text => do
      let t ← ask .now
      let doc : Document :=
        ⟨text, [("autoindexer", h.autoindexerName), ("source_type", "kusto"),
          ("timestamp", Text.isoformat t)]⟩
      return doc :: (← h.formatDocuments records)

/-! ### A run -/

def batchSize : ℕ := 50

/-- The batch loop; `number` counts the batches from 1, `fuel` bounds them. -/
def KustoHandler.indexBatches (h : KustoHandler) : (fuel : ℕ) → (number : ℕ) → List Document → List String →
    Py (List String)
  | 0, _, _, errors => pure errors
  | fuel + 1, number, docs, errors =>
    if docs = [] then pure errors
    else do
      match ← ask (.rag h.target (.indexDocuments (docs.take batchSize))) with
      | .ok _ => h.indexBatches fuel (number + 1) (docs.drop batchSize) errors
      | .error e =>
        h.indexBatches fuel (number + 1) (docs.drop batchSize)
          (errors ++ ["Failed to index batch " ++ toString number ++ ": " ++ e])

/-- The indexing part of `update_index`, with the returned errors and the handler's own. The
errors of failed batches are in both; an error of the query is only returned. -/
def KustoHandler.indexRecords (h : KustoHandler) : Py (List String × List String) := do
  match ← h.buildQuery with
  | .error e => pure (["Unexpected error in Kusto handler: " ++ e], [])
  | .ok query =>
    match ← ask (.kusto query) with
    | .error e => pure (["Kusto data source error: " ++ e], [])
    | .ok records =>
      let documents ← h.formatDocuments records
      let errors ← h.indexBatches documents.length 1 documents []
      pure (errors, errors)

/-- `update_index` of the Kusto handler. -/
def KustoHandler.updateIndex (h : KustoHandler) : Py Outcome := do
  let startTime ← ask .now
  let (returned, errors) ← h.indexRecords
  let endTime ← ask .now
  pure ⟨returned, errors, none, endTime - startTime⟩

end KaitoAutoIndexer.Kusto
