import KaitoAutoIndexer.JobClient

/-!
The Git data source handler: which files it selects, the full and the incremental run, and
the choice between them.
-/

namespace KaitoAutoIndexer.Git

open KaitoAutoIndexer.Lib KaitoAutoIndexer.Types KaitoAutoIndexer.Conditions
open KaitoAutoIndexer.Rag KaitoAutoIndexer.JobClient

/-! ### What Git gives -/

/-- The letters of `diff_item.change_type`. -/
inductive ChangeType
  | added | modified | deleted | renamed | typeChanged | copied
  deriving DecidableEq

structure DiffItem where
  changeType : ChangeType
  aPath : Option String
  bPath : Option String
  deriving DecidableEq

/-- `git.exc.BadName`, or any other failure of the diff. -/
inductive DiffError
  | badName
  | other (message : String)

/-- A repository cloned and checked out. -/
structure Checkout where
  workDir : String
  /-- The hash of the checked-out commit. -/
  head : String
  /-- What `os.walk` yields: directories relative to `workDir`, with the files in them. -/
  walk : List (String × List String)
  /-- Opening a file and extracting its text. -/
  read : String → Except String String
  /-- The changes from a commit to the checked-out one. -/
  diff : String → Except DiffError (List DiffItem)

/-- What lies outside the handler: the remote repository and the pattern matcher. -/
structure Remote where
  clone : Except String Checkout
  /-- What `git checkout` of a name ends at. It may be the name of a tag, a commit or a path as well. -/
  checkout : String → Except String Checkout
  /-- What a fetch and a pull make of what is checked out. -/
  pull : Checkout → Except String Checkout
  /-- Whether a path matches one of the patterns. -/
  matchesAny : List String → String → Bool

structure GitHandler where
  target : Target
  autoindexerName : String
  repository : String
  branch : String
  commit : Option String
  paths : List String
  excludePaths : List String
  lastIndexedCommit : String
  conditions : List Condition

/-! ### Which files -/

def binaryExtensions : List String :=
  [".exe", ".so", ".dll", ".bin", ".obj", ".o", ".a", ".lib", ".dylib"]

/-- `_should_index_file`. -/
def shouldIndexFile (h : GitHandler) (r : Remote) (filePath : String) : Bool :=
  if (Text.pathParts filePath).any (·.head? == some '.') then false
  else if binaryExtensions.contains (Text.lower (Text.extension filePath)) then false
  else if h.paths.isEmpty ∧ h.excludePaths.isEmpty then true
  else if ¬ h.excludePaths.isEmpty ∧ r.matchesAny h.excludePaths filePath then false
  else if ¬ h.paths.isEmpty then r.matchesAny h.paths filePath
  else true

/-- `os.path.join`, for a relative second part. -/
def joinPath (dir name : String) : String := if dir = "" then name else dir ++ "/" ++ name

/-- `os.path.join(work_dir, dir)`, as `os.walk` names the directories. -/
def root (c : Checkout) (dir : String) : String :=
  if dir = "" then c.workDir else c.workDir ++ "/" ++ dir

/-- All files of the working directory, in walk order. -/
def Checkout.files (c : Checkout) : List String :=
  c.walk.flatMap fun d => d.2.map (joinPath d.1)

/-- `_get_repository_files`. -/
def getRepositoryFiles (h : GitHandler) (r : Remote) (c : Checkout) : List String :=
  c.walk.flatMap fun d =>
    if Text.contains (root c d.1) ".git" then []
    else (d.2.map (joinPath d.1)).filter (shouldIndexFile h r)

/-- `_read_file_content`; a file that cannot be read gives `None`. -/
def readFileContent (c : Checkout) (filePath : String) : Option String :=
  (c.read filePath).toOption

/-- `if content:`, with the content. -/
def readText (c : Checkout) (filePath : String) : Option String :=
  (readFileContent c filePath).filter (· ≠ "")

/-! ### Documents and batches -/

/-- `_create_document`. -/
def createDocument (h : GitHandler) (c : Checkout) (filePath content changeType : String) :
    Py Document := do
  let t ← ask .now
  let language := Text.getFileExtensionLanguage (Text.extension filePath)
  pure
    { text := content
      metadata :=
        [("autoindexer", h.autoindexerName), ("source_type", "git"),
         ("repository", h.repository), ("branch", h.branch), ("file_path", filePath),
         ("change_type", changeType), ("timestamp", Text.isoformat t), ("commit", c.head)] ++
        if language = "" then [] else [("language", language), ("split_type", "code")] }

def indexDocumentsBatch (h : GitHandler) (docs : List Document) (errors : List String) :
    Py (List String) := do
  match ← ask (.rag h.target (.indexDocuments docs)) with
  | .ok _ => pure errors
  | .error e => pure (errors ++ ["Failed to index document batch: " ++ e])

def updateDocumentsBatch (h : GitHandler) (docs : List StoredDocument) (errors : List String) :
    Py (List String) := do
  match ← ask (.rag h.target (.updateDocuments docs)) with
  | .ok _ => pure errors
  | .error e => pure (errors ++ ["Failed to update document batch: " ++ e])

/-- `_delete_documents_batch`. Each id is passed to `rag_client.delete_document`, which
`KAITORAGClient` does not have: the first one raises and the loop ends. -/
def deleteDocumentsBatch (docIds : List ℕ) (errors : List String) : List String :=
  match docIds with
  | [] => errors
  | _ :: _ => errors ++ ["Failed to delete document batch: " ++
      "'KAITORAGClient' object has no attribute 'delete_document'"]

/-! ### The full run -/

/-- The loop of `_index_all_files`, with the pending documents. -/
def indexAllLoop (h : GitHandler) (c : Checkout) :
    List String → List Document → List String → Py (List Document × List String)
  | [], documents, errors => pure (documents, errors)
  | filePath :: files, documents, errors =>
    match readText c filePath with
    | none => indexAllLoop h c files documents errors
    | some content => do
      let doc ← createDocument h c filePath content "full"
      let documents := documents ++ [doc]
      if 10 ≤ documents.length then
        let errors ← indexDocumentsBatch h documents errors
        indexAllLoop h c files [] errors
      else indexAllLoop h c files documents errors

/-- `_index_all_files`. -/
def indexAllFiles (h : GitHandler) (r : Remote) (c : Checkout) (errors : List String) :
    Py (List String) := do
  let (documents, errors) ← indexAllLoop h c (getRepositoryFiles h r c) [] errors
  if documents ≠ [] then indexDocumentsBatch h documents errors else pure errors

/-! ### The incremental run -/

/-- The three queues of `_index_diff_files`, and the errors so far. -/
structure Pending where
  createDocs : List Document
  updateDocs : List StoredDocument
  deleteDocIds : List ℕ
  errors : List String

/-- `diff_item.b_path or diff_item.a_path`. -/
def DiffItem.filePath (d : DiffItem) : String :=
  match d.bPath with
  | some p => if p ≠ "" then p else d.aPath.getD ""
  | none => d.aPath.getD ""

/-- The first document that `list_documents` returns for a path, if it returns one, and the
errors: a failed request is recorded, and then counts as no answer. -/
def lookup (h : GitHandler) (path purpose : String) (errors : List String) :
    Py (Option StoredDocument × List String) := do
  match ← ask (.rag h.target (.listDocuments [("file_path", path)] 1)) with
  | .ok r => pure (r.documents.head?, errors)
  | .error e => pure (none,
      errors ++ ["Failed to fetch file from rag " ++ path ++ " for " ++ purpose ++ ": " ++ e])

/-- Queue a replacement of the document found at `oldPath`, or a new document if there is
none. -/
def queueReplacement (h : GitHandler) (c : Checkout) (q : Pending)
    (oldPath filePath content purpose changeType : String) : Py Pending := do
  match ← lookup h oldPath purpose q.errors with
  | (some found, errors) =>
    let doc ← createDocument h c filePath content changeType
    pure { q with updateDocs := q.updateDocs ++ [⟨found.docId, doc⟩], errors := errors }
  | (none, errors) =>
    let doc ← createDocument h c filePath content "added"
    pure { q with createDocs := q.createDocs ++ [doc], errors := errors }

/-- The branches on the change type, with the queues after them; `false` stands for
`continue`. -/
def queueItem (h : GitHandler) (r : Remote) (c : Checkout) (q : Pending) (d : DiffItem) :
    Py (Pending × Bool) := do
  let filePath := d.filePath
  if ¬ shouldIndexFile h r filePath then pure (q, false)
  else
    match d.changeType with
    | .added =>
      match readText c filePath with
      | some content =>
        let doc ← createDocument h c filePath content "added"
        pure ({ q with createDocs := q.createDocs ++ [doc] }, true)
      | none => pure (q, true)
    | .modified =>
      match readText c filePath with
      | none => pure (q, false)
      | some content =>
        return (← queueReplacement h c q filePath filePath content "update" "modified", true)
    | .deleted =>
      match ← lookup h filePath "deletion" q.errors with
      | (none, errors) => pure ({ q with errors := errors }, false)
      | (some found, errors) =>
        pure ({ q with deleteDocIds := q.deleteDocIds ++ [found.docId], errors := errors }, true)
    | .renamed =>
      match readText c filePath with
      | none => pure (q, false)
      | some content =>
        match d.aPath.filter (· ≠ "") with
        | some aPath =>
          return (← queueReplacement h c q aPath filePath content "renaming" "renamed", true)
        | none => pure (q, true)
    | .typeChanged => pure (q, true)
    | .copied => pure (q, true)

/-- The new documents are sent off if there are at least `n`. -/
def flushCreates (h : GitHandler) (n : ℕ) (q : Pending) : Py Pending :=
  if n ≤ q.createDocs.length then do
    let errors ← indexDocumentsBatch h q.createDocs q.errors
    pure { q with createDocs := [], errors := errors }
  else pure q

def flushUpdates (h : GitHandler) (n : ℕ) (q : Pending) : Py Pending :=
  if n ≤ q.updateDocs.length then do
    let errors ← updateDocumentsBatch h q.updateDocs q.errors
    pure { q with updateDocs := [], errors := errors }
  else pure q

def flushDeletes (n : ℕ) (q : Pending) : Pending :=
  if n ≤ q.deleteDocIds.length then
    { q with deleteDocIds := [], errors := deleteDocumentsBatch q.deleteDocIds q.errors }
  else q

def flush (h : GitHandler) (n : ℕ) (q : Pending) : Py Pending := do
  let q ← flushCreates h n q
  let q ← flushUpdates h n q
  pure (flushDeletes n q)

/-- The three size checks at the end of a turn. -/
def flushFull (h : GitHandler) (q : Pending) : Py Pending := flush h 10 q

/-- What is left in the queues after the loop is sent off. -/
def flushRest (h : GitHandler) (q : Pending) : Py Pending := flush h 1 q

/-- The loop of `_index_diff_files`. -/
def indexDiffLoop (h : GitHandler) (r : Remote) (c : Checkout) :
    List DiffItem → Pending → Py Pending
  | [], q => pure q
  | d :: items, q => do
    let (q, reached) ← queueItem h r c q d
    let q ← (if reached then flushFull h q else pure q)
    indexDiffLoop h r c items q

/-- `_index_diff_files`; an exception is returned as its message. -/
def indexDiffFiles (h : GitHandler) (r : Remote) (c : Checkout) (errors : List String) :
    Py (Except String (List String)) := do
  match c.diff h.lastIndexedCommit with
  | .error .badName => return .ok (← indexAllFiles h r c errors)
  | .error (.other m) => pure (.error ("Failed to index diff files: " ++ m))
  | .ok items =>
    let q ← indexDiffLoop h r c items ⟨[], [], [], errors⟩
    return .ok (← flushRest h q).errors

/-! ### A run -/

inductive Path
  | full | incremental
  deriving DecidableEq

/-- The choice made in `update_index`. -/
def GitHandler.path (h : GitHandler) : Path :=
  if h.commit.any (· ≠ "") then .full
  else if h.lastIndexedCommit ≠ "" ∧ ¬ hadErrors h.conditions then .incremental
  else .full

/-- A pull that fails leaves what is checked out. -/
def Remote.pulled (r : Remote) (c : Checkout) : Checkout :=
  match r.pull c with
  | .ok c' => c'
  | .error _ => c

/-- A branch that cannot be checked out leaves the default branch. -/
def checkoutBranch (h : GitHandler) (r : Remote) (c : Checkout) : Checkout :=
  match r.checkout h.branch with
  | .ok c' => r.pulled c'
  | .error _ => c

/-- `_setup_repository`. -/
def setupRepository (h : GitHandler) (r : Remote) : Except String Checkout :=
  match r.clone with
  | .error e => .error ("Failed to clone repository " ++ h.repository ++ ": " ++ e)
  | .ok c =>
    let c := if h.branch ∉ ["main", "master", "HEAD"] then checkoutBranch h r c else c
    match h.commit.filter (· ≠ "") with
    | none => .ok c
    | some commit =>
      match r.checkout commit with
      | .ok c' => .ok c'
      | .error e => .error ("Repository setup failed: Failed to checkout commit " ++ commit ++
          ": " ++ e)

/-- The indexing part of `update_index`, with the commit that was checked out. -/
def GitHandler.indexRepository (h : GitHandler) (r : Remote) :
    Py (List String × Option String) := do
  match setupRepository h r with
  | .error e => pure (["Data source error: " ++ e], none)
  | .ok c =>
    match h.path with
    | .full => return (← indexAllFiles h r c [], some c.head)
    | .incremental =>
      match ← indexDiffFiles h r c [] with
      | .ok errors => pure (errors, some c.head)
      | .error e => pure (["Data source error: " ++ e], some c.head)

/-- `update_index` of the Git handler. -/
def GitHandler.updateIndex (h : GitHandler) (r : Remote) : Py Outcome := do
  let startTime ← ask .now
  let (errors, commitHash) ← h.indexRepository r
  let endTime ← ask .now
  pure ⟨errors, errors, commitHash, endTime - startTime⟩

end KaitoAutoIndexer.Git
