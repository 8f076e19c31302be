import KaitoAutoIndexer.Types

/-!
The RAG engine as the indexing job sees it: the documents of one index, and the three
requests of `KAITORAGClient` that a handler makes.
-/

namespace KaitoAutoIndexer.Rag

open KaitoAutoIndexer.Types

/-- A metadata dictionary, and equally a metadata filter. -/
abbrev Metadata := List (String × String)

structure Document where
  text : String
  metadata : Metadata
  deriving DecidableEq

/-- A document with the id the engine knows it by. -/
structure StoredDocument where
  docId : ℕ
  doc : Document
  deriving DecidableEq

abbrev Store := List StoredDocument

/-- The index a handler works on: the endpoint of its RAG client, and its `index_name`. -/
structure Target where
  endpoint : String
  index : String
  deriving DecidableEq

/-- The metadata holds every entry of the filter. -/
def Document.matches (filter : Metadata) (d : Document) : Bool :=
  filter.all fun e => d.metadata.lookup e.1 == some e.2

/-- The AutoIndexer a document is tagged with. -/
def Document.owner (d : Document) : Option String := d.metadata.lookup "autoindexer"

def Document.filePath (d : Document) : Option String := d.metadata.lookup "file_path"

def ids (s : Store) : List ℕ := s.map StoredDocument.docId

/-- Replace text and metadata of the document with the id of `u`. -/
def replace (u : StoredDocument) (s : Store) : Store :=
  s.map fun d => if d.docId = u.docId then u else d

/-- The replacements of a batch, one after the other. -/
def replaceAll (us : List StoredDocument) (s : Store) : Store :=
  us.foldl (fun s u => replace u s) s

/-- The documents are added, each under a fresh id. -/
def Added (docs : List Document) (s s' : Store) : Prop :=
  ∃ new : List ℕ, new.length = docs.length ∧ new.Nodup ∧ (∀ i ∈ new, i ∉ ids s) ∧
    s' = s ++ List.zipWith StoredDocument.mk new docs

structure ListResponse where
  documents : List StoredDocument
  totalItems : ℕ
  deriving DecidableEq

inductive Request
  | indexDocuments (docs : List Document)
  | updateDocuments (docs : List StoredDocument)
  | listDocuments (metadataFilter : Metadata) (limit : ℕ)

abbrev Response : Request → Type
  | .indexDocuments _ => Except String Unit
  | .updateDocuments _ => Except String Unit
  | .listDocuments _ _ => Except String ListResponse

/-- `list_documents` may return any of the documents that match the filter, up to the
limit, and counts them all. -/
def Listed (filter : Metadata) (limit : ℕ) (s : Store) (r : ListResponse) : Prop :=
  let found := s.filter fun d => d.doc.matches filter
  r.documents.Subperm found ∧ r.documents.length = min limit found.length ∧
    r.totalItems = found.length

/-- What the engine does with a request. A request that fails may or may not have been
carried out; whether requests fail at all is left to `mayFail`. -/
def Serves (mayFail : Prop) (s : Store) : (q : Request) → Response q → Store → Prop
  | .indexDocuments docs, .ok _, s' => Added docs s s'
  | .indexDocuments docs, .error _, s' => mayFail ∧ (s' = s ∨ Added docs s s')
  | .updateDocuments us, .ok _, s' => s' = replaceAll us s
  | .updateDocuments us, .error _, s' => mayFail ∧ (s' = s ∨ s' = replaceAll us s)
  | .listDocuments f n, .ok r, s' => s' = s ∧ Listed f n s r
  | .listDocuments _ _, .error _, s' => mayFail ∧ s' = s

/-- An engine that never fails: ids count up, and documents are listed in order. -/
def serve (s : Store) : (q : Request) → Response q × Store
  | .indexDocuments docs =>
    let first := (ids s).foldl max 0 + 1
    (.ok (), s ++ List.zipWith StoredDocument.mk ((List.range docs.length).map (first + ·)) docs)
  | .updateDocuments us => (.ok (), replaceAll us s)
  | .listDocuments f n =>
    let found := s.filter fun d => d.doc.matches f
    (.ok ⟨found.take n, found.length⟩, s)

/-! ### Ids -/

@[simp] lemma replaceAll_nil (s : Store) : replaceAll [] s = s := rfl

@[simp] lemma replaceAll_cons (u : StoredDocument) (us : List StoredDocument) (s : Store) :
    replaceAll (u :: us) s = replaceAll us (replace u s) := rfl

lemma replaceAll_append (us vs : List StoredDocument) (s : Store) :
    replaceAll (us ++ vs) s = replaceAll vs (replaceAll us s) := by
  simp [replaceAll, List.foldl_append]

@[simp] lemma ids_append (s t : Store) : ids (s ++ t) = ids s ++ ids t := by simp [ids]

@[simp] lemma ids_replace (u : StoredDocument) (s : Store) : ids (replace u s) = ids s := by
  unfold ids replace
  rw [List.map_map]
  refine List.map_congr_left fun d _ => ?_
  by_cases h : d.docId = u.docId <;> simp [h]

@[simp] lemma ids_replaceAll (us : List StoredDocument) (s : Store) :
    ids (replaceAll us s) = ids s := by
  induction us generalizing s with
  | nil => rfl
  | cons u us ih => simp [ih]

lemma ids_zipWith {new : List ℕ} {docs : List Document} (h : new.length = docs.length) :
    ids (List.zipWith StoredDocument.mk new docs) = new := by
  unfold ids
  rw [List.map_zipWith]
  induction new generalizing docs with
  | nil => simp
  | cons i new ih =>
    cases docs with
    | nil => simp at h
    | cons d docs => simpa using ih (by simpa using h)

lemma mem_replaceAll {us : List StoredDocument} {s : Store} {x : StoredDocument}
    (hx : x ∈ replaceAll us s) :
    x ∈ s ∨ x ∈ us := by
  induction us generalizing s with
  | nil => exact .inl hx
  | cons u us ih =>
    rcases ih hx with hx | hx
    · obtain ⟨y, hy, hyx⟩ := List.mem_map.mp hx
      split at hyx
      · exact .inr (by simp [hyx])
      · exact .inl (hyx ▸ hy)
    · exact .inr (List.mem_cons_of_mem _ hx)

/-- A document whose id is not in the batch is not touched. -/
lemma replaceAll_of_notMem {us : List StoredDocument} {s : Store} {d : StoredDocument}
    (hd : d ∈ s) (hu : d.docId ∉ ids us) : d ∈ replaceAll us s := by
  induction us generalizing s with
  | nil => exact hd
  | cons u us ih =>
    simp only [ids, List.map_cons, List.mem_cons, not_or] at hu
    refine ih ?_ hu.2
    exact List.mem_map.mpr ⟨d, hd, by simp [hu.1]⟩

lemma Added.nodup {docs : List Document} {s s' : Store} (h : Added docs s s')
    (hs : (ids s).Nodup) : (ids s').Nodup := by
  obtain ⟨new, hlen, hnew, hfresh, rfl⟩ := h
  rw [ids_append, ids_zipWith hlen, List.nodup_append']
  exact ⟨hs, hnew, fun i hi hi' => hfresh i hi' hi⟩

lemma docId_le_foldl_max (l : List ℕ) (n : ℕ) : n ≤ l.foldl max n ∧ ∀ i ∈ l, i ≤ l.foldl max n := by
  induction l generalizing n with
  | nil => simp
  | cons j l ih =>
    obtain ⟨h1, h2⟩ := ih (max n j)
    refine ⟨(le_max_left n j).trans h1, fun i hi => ?_⟩
    rcases List.mem_cons.mp hi with rfl | hi
    · exact (le_max_right n i).trans h1
    · exact h2 i hi

lemma serves_serve (mayFail : Prop) (s : Store) (q : Request) :
    Serves mayFail s q (serve s q).1 (serve s q).2 := by
  cases q with
  | indexDocuments docs =>
    refine ⟨_, by simp, ?_, fun i hi hids => ?_, rfl⟩
    · exact List.nodup_range.map fun a b hab => by simpa using hab
    · obtain ⟨k, -, rfl⟩ := List.mem_map.mp hi
      have := (docId_le_foldl_max (ids s) 0).2 _ hids
      omega
  | updateDocuments us => rfl
  | listDocuments f n =>
    exact ⟨rfl, (List.take_sublist _ _).subperm, by simp, rfl⟩

end KaitoAutoIndexer.Rag
