import KaitoAutoIndexer.JobClient

/-!
The static data source handler: every URL is fetched on every run, and the run ends at the
first one that fails.
-/

namespace KaitoAutoIndexer.Static

open KaitoAutoIndexer.Lib KaitoAutoIndexer.Types
open KaitoAutoIndexer.Rag KaitoAutoIndexer.JobClient

structure StaticHandler where
  target : Target
  autoindexerName : String
  urls : List String

/-- The path part that `urlparse` finds in `scheme://host/path;parameters?query#fragment`. -/
def urlPath (url : String) : String :=
  let parts := ((url.toList.takeWhile fun c => c ≠ '?' && c ≠ '#').splitOn '/').drop 3
  let last := (parts.getLast?.getD []).takeWhile (· ≠ ';')
  String.ofList ((parts.dropLast ++ [last]).flatMap ('/' :: ·))

def StaticHandler.createDocument (h : StaticHandler) (url content : String) : Py Document := do
  let t ← ask .now
  let language := Text.getFileExtensionLanguage (Text.extension (urlPath url))
  pure
    { text := content
      metadata :=
        [("autoindexer", h.autoindexerName), ("source_type", "url"), ("source_url", url),
         ("timestamp", Text.isoformat t)] ++
        if language = "" then [] else [("language", language), ("split_type", "code")] }

/-- The error of a URL, as the loop raises it. -/
def fetchError (url e : String) : String := "Failed to fetch content from " ++ url ++ ": " ++ e

/-- The loop over the URLs, with the pending documents. A failure in a turn, also one to
index a full batch, is recorded and ends the loop, with the exception as `.error`. -/
def StaticHandler.fetchLoop (h : StaticHandler) :
    List String → List Document → Py (Except String (List Document))
  | [], documents => pure (.ok documents)
  | url :: urls, documents => do
    match ← ask (.fetch url) with
    | .error e => pure (.error (fetchError url e))
    | .ok content =>
      match content.filter (· ≠ "") with
      | none => h.fetchLoop urls documents
      | some content =>
        let doc ← h.createDocument url content
        let documents := documents ++ [doc]
        if 10 ≤ documents.length then
          match ← ask (.rag h.target (.indexDocuments documents)) with
          | .ok _ => h.fetchLoop urls []
          | .error e => pure (.error (fetchError url e))
        else h.fetchLoop urls documents

/-- The indexing part of `update_index`. -/
def StaticHandler.indexUrls (h : StaticHandler) : Py (List String) := do
  match ← h.fetchLoop h.urls [] with
  | .error e => pure [e, "Data source error: " ++ e]
  | .ok documents =>
    if documents = [] then pure []
    else
      match ← ask (.rag h.target (.indexDocuments documents)) with
      | .ok _ => pure []
      | .error e => pure ["Unexpected error during indexing: " ++ e]

/-- `update_index` of the static handler. -/
def StaticHandler.updateIndex (h : StaticHandler) : Py Outcome := do
  let startTime ← ask .now
  let errors ← h.indexUrls
  let endTime ← ask .now
  pure ⟨errors, errors, none, endTime - startTime⟩

end KaitoAutoIndexer.Static
