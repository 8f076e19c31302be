import KaitoAutoIndexer.Cluster
import KaitoAutoIndexer.Text

/-!
The calls an indexing job makes, its client for the AutoIndexer resource, and the status
update that all data source handlers share.
-/

namespace KaitoAutoIndexer.JobClient

open KaitoAutoIndexer.Lib KaitoAutoIndexer.Types KaitoAutoIndexer.Conditions
open KaitoAutoIndexer.Cluster KaitoAutoIndexer.Rag

/-- A Kusto query: a text, or a text cut into pieces with a timestamp put between them. -/
inductive Query
  | plain (text : String)
  | stamped (pieces : List String) (timestamp : Time)
  deriving DecidableEq

/-- The text sent to the server. -/
def Query.text : Query → String
  | .plain t => t
  | .stamped pieces ts => (Text.isoformat ts).intercalate pieces

/-- A row, as its columns with their values in text, `none` for a null. -/
abbrev Record := List (String × Option String)

inductive JobCall
  | now
  | getAutoIndexer
  | patchStatus (body : AutoIndexer)
  | rag (target : Target) (q : Request)
  | kusto (query : Query)
  | fetch (url : String)

abbrev JobAnswer : JobCall → Type
  | .now => Time
  | .getAutoIndexer => Except ApiError AutoIndexer
  | .patchStatus _ => Except ApiError Unit
  | .rag _ q => Response q
  | .kusto _ => Except String (List Record)
  | .fetch _ => Except String (Option String)

/-- Programs of the job. -/
abbrev Py := Prog JobCall JobAnswer

def ask (c : JobCall) : Py (JobAnswer c) := Prog.call c

@[simp] lemma ask_bind {α : Type} (c : JobCall) (f : JobAnswer c → Py α) :
    @Bind.bind Py _ (no_index (JobAnswer c)) α (ask c) f = Prog.ask c f := rfl

/-! ### `AutoIndexerK8sClient` -/

/-- A missing object is `None`; every other failure is raised. -/
def getAutoindexer : Py (Except ApiError (Option AutoIndexer)) := do
  match ← ask .getAutoIndexer with
  | .ok o => pure (.ok (some o))
  | .error .notFound => pure (.ok none)
  | .error e => pure (.error e)

/-- The entries of a `status_update` dictionary; an absent one is `none`. -/
structure StatusUpdate where
  lastIndexingTimestamp : Option Time := none
  lastIndexedCommit : Option String := none
  lastIndexingDurationSeconds : Option ℕ := none
  successfulIndexingCount : Option ℕ := none
  errorIndexingCount : Option ℕ := none
  numOfDocumentInIndex : Option ℕ := none
  conditions : Option (List Condition) := none

/-- `current["status"].update(status_update)`. -/
def StatusUpdate.apply (u : StatusUpdate) (s : Status) : Status :=
  { s with
    lastIndexingTimestamp := u.lastIndexingTimestamp <|> s.lastIndexingTimestamp
    lastIndexedCommit := u.lastIndexedCommit <|> s.lastIndexedCommit
    lastIndexingDurationSeconds :=
      u.lastIndexingDurationSeconds.getD s.lastIndexingDurationSeconds
    successfulIndexingCount := u.successfulIndexingCount.getD s.successfulIndexingCount
    errorIndexingCount := u.errorIndexingCount.getD s.errorIndexingCount
    numOfDocumentInIndex := u.numOfDocumentInIndex.getD s.numOfDocumentInIndex
    conditions := u.conditions.getD s.conditions }

def updateAutoindexerStatus (u : StatusUpdate) : Py Bool := do
  match ← getAutoindexer with
  | .error _ => pure false
  | .ok none => pure false
  | .ok (some current) =>
    match ← ask (.patchStatus (current.withStatus (u.apply current.status))) with
    | .ok _ => pure true
    | .error _ => pure false

def createCondition (type : String) (status : ConditionStatus) (reason message : String)
    (observedGeneration : ℕ) : Py Condition := do
  let t ← ask .now
  pure ⟨type, status, reason, message, t, observedGeneration⟩

def addStatusCondition (type : String) (status : ConditionStatus) (reason message : String) :
    Py Bool := do
  match ← getAutoindexer with
  | .error _ => pure false
  | .ok none => pure false
  | .ok (some current) =>
    let t ← ask .now
    let c : Condition := ⟨type, status, reason, message, t, current.generation⟩
    match ← ask (.patchStatus (current.withStatus { current.status with
        conditions := addCondition c current.status.conditions })) with
    | .ok _ => pure true
    | .error _ => pure false

/-- `_increment_counter`: one more than the stored counter, `1` if it cannot be read. -/
def incrementCounter (counter : Status → ℕ) : Py ℕ := do
  match ← getAutoindexer with
  | .ok (some current) => pure (counter current.status + 1)
  | _ => pure 1

def updateIndexingCompletion (success : Bool) (durationSeconds documentCount : ℕ) : Py Bool := do
  let t ← ask .now
  let update : StatusUpdate :=
    { lastIndexingTimestamp := some t
      lastIndexingDurationSeconds := some durationSeconds
      numOfDocumentInIndex := some documentCount }
  if success then
    let n ← incrementCounter Status.successfulIndexingCount
    updateAutoindexerStatus { update with successfulIndexingCount := some n }
  else
    let n ← incrementCounter Status.errorIndexingCount
    updateAutoindexerStatus { update with errorIndexingCount := some n }

/-! ### `_create_base_autoindexer_status_update` -/

/-- What a run of a handler leaves for the status update: the returned errors, the
handler's own error list, the commit it was at, and how long it took. -/
structure Outcome where
  returned : List String
  errors : List String
  commitHash : Option String
  totalTime : Time

/-- The number of documents tagged with `owner`; `0` if they cannot be listed. -/
def countDocuments (target : Target) (owner : String) : Py ℕ := do
  match ← ask (.rag target (.listDocuments [("autoindexer", owner)] 1)) with
  | .ok r => pure r.totalItems
  | .error _ => pure 0

def apostrophe : Char := Char.ofNat 39
def quotationMark : Char := Char.ofNat 34
def backslash : Char := Char.ofNat 92

/-- How `repr` prints a character of a string that it puts into the given quotes; beyond Latin-1
every character is taken as printable. -/
def reprChar (quote c : Char) : List Char :=
  let n := c.toNat
  if c = quote ∨ c = backslash then [backslash, c]
  else if n = 9 then [backslash, 't']
  else if n = 10 then [backslash, 'n']
  else if n = 13 then [backslash, 'r']
  else if n < 32 ∨ (127 ≤ n ∧ n ≤ 160) ∨ n = 173 then
    backslash :: 'x' :: (if n < 16 then ['0'] else []) ++ Nat.toDigits 16 n
  else [c]

/-- `repr` of a string: in double quotes when it has single ones only. -/
def pyRepr (s : String) : String :=
  let quote :=
    if apostrophe ∈ s.toList ∧ quotationMark ∉ s.toList then quotationMark else apostrophe
  String.ofList (quote :: s.toList.flatMap (reprChar quote) ++ [quote])

/-- A list of strings, as Python prints it. -/
def pyList (l : List String) : String := "[" ++ ", ".intercalate (l.map pyRepr) ++ "]"

/-- `none` stands for the exception raised when the resource cannot be read. -/
def createBaseStatusUpdate (target : Target) (autoindexerName : String) (errors : List String)
    (indexingDurationSeconds : ℕ) : Py (Option StatusUpdate) := do
  match ← getAutoindexer with
  | .error _ => pure none
  | .ok none => pure none
  | .ok (some current) =>
    let t ← ask .now
    let n ← countDocuments target autoindexerName
    let g := current.generation
    let succeeded ← createCondition succeededType .true "IndexingCompleted"
      "Indexing completed successfully" g
    let error ←
      if errors ≠ [] then
        createCondition errorType .true "IndexingErrors"
          ("Indexing completed with errors: " ++ pyList errors) g
      else createCondition errorType .false "IndexingCompleted" "No errors during indexing" g
    let failed ← createCondition failedType .false "IndexingCompleted"
      "Indexing completed successfully" g
    let indexing ← createCondition indexingType .false "IndexingCompleted"
      "Document indexing process completed successfully" g
    pure (some
      { lastIndexingTimestamp := some t
        lastIndexingDurationSeconds := some indexingDurationSeconds
        numOfDocumentInIndex := some n
        conditions := some ([succeeded, error, failed, indexing].foldl
          (fun cs c => replaceCondition c cs) current.status.conditions) })

end KaitoAutoIndexer.JobClient
