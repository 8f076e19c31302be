import KaitoAutoIndexer.Addresses
import KaitoAutoIndexer.ControllerSpec
import KaitoAutoIndexer.Detector
import KaitoAutoIndexer.JobSteps
import KaitoAutoIndexer.Ownership

/-!
The controller, the drift detector and the job mean the same index, and the same owner of
documents.
-/

namespace KaitoAutoIndexer.SameIndex

open KaitoAutoIndexer.Lib KaitoAutoIndexer.Lib.Percent KaitoAutoIndexer.Types
open KaitoAutoIndexer.Rag KaitoAutoIndexer.Cluster KaitoAutoIndexer.Controller
open KaitoAutoIndexer.Detector KaitoAutoIndexer.ControllerCalls
open KaitoAutoIndexer.JobClient KaitoAutoIndexer.Git KaitoAutoIndexer.Kusto
open KaitoAutoIndexer.Static KaitoAutoIndexer.Job KaitoAutoIndexer.JobSteps
open KaitoAutoIndexer.GitCalls (Permits obeys_updateIndex)
open KaitoAutoIndexer.Ownership KaitoAutoIndexer.ControllerSpec KaitoAutoIndexer.Addresses

/-! ### Documents and filters of the job -/

/-- Every document is tagged with `A`. -/
def Owned (A : String) (docs : List Document) : Prop := ∀ d ∈ docs, d.owner = some A

/-- A request goes to `t`, its documents are tagged with `A`, and a filter that asks for an
AutoIndexer asks for `A` and nothing else. -/
def Tags (t : Target) (A : String) : JobCall → Prop
  | .rag t' (.indexDocuments docs) => t' = t ∧ Owned A docs
  | .rag t' (.updateDocuments us) => t' = t ∧ Owned A (us.map StoredDocument.doc)
  | .rag t' (.listDocuments f _) => t' = t ∧ (f = [("autoindexer", A)] ∨ f.lookup "autoindexer" = none)
  | _ => True

variable {t : Target} {A : String}

lemma Owned.snoc {docs : List Document} {d : Document} (h : Owned A docs) (hd : d.owner = some A) :
    Owned A (docs ++ [d]) := by
  intro x hx
  rcases List.mem_append.mp hx with hx | hx
  · exact h x hx
  · rw [List.mem_singleton.mp hx]
    exact hd

/-- Nothing is said of the result. -/
abbrev Tagging {α : Type} (t : Target) (A : String) (p : Py α) : Prop :=
  Obeys (Tags t A) (fun _ => True) p

lemma tags_ask {α : Type} {P : α → Prop} {c : JobCall} {k : JobAnswer c → Py α} (hc : Tags t A c)
    (hk : ∀ r, Obeys (Tags t A) P (k r)) : Obeys (Tags t A) P (ask c >>= k) := ⟨hc, hk⟩

lemma tags_git (h : GitHandler) (r : Remote) :
    Tagging h.target h.autoindexerName (h.updateIndex r) := by
  have hpermits : ∀ c, Permits (Tags h.target h.autoindexerName)
      (fun d => d.owner = some h.autoindexerName) h c := by
    intro c
    refine ⟨trivial, fun p => ⟨rfl, .inr rfl⟩, fun docs hd => ⟨rfl, hd⟩, fun us hu => ⟨rfl, ?_⟩,
      fun p x changeType _ => tags_ask trivial fun _ => rfl⟩
    intro d hd
    obtain ⟨u, hmem, rfl⟩ := List.mem_map.mp hd
    exact hu u hmem
  exact (obeys_updateIndex trivial fun c _ => hpermits c).mono (fun _ h => h) fun _ _ => trivial

lemma tags_fetchLoop (h : StaticHandler) (urls : List String) {docs : List Document}
    (hd : Owned h.autoindexerName docs) :
    Obeys (Tags h.target h.autoindexerName)
      (fun r => ∀ docs, r = .ok docs → Owned h.autoindexerName docs) (h.fetchLoop urls docs) := by
  induction urls generalizing docs with
  | nil =>
    rintro _ ⟨⟩
    exact hd
  | cons url urls ih =>
    refine tags_ask trivial fun r => ?_
    cases r with
    | error e => rintro _ ⟨⟩
    | ok content =>
      dsimp only
      split
      · exact ih hd
      · rename_i text _
        have hcreate : Obeys (Tags h.target h.autoindexerName)
            (fun d => d.owner = some h.autoindexerName) (h.createDocument url text) :=
          tags_ask trivial fun _ => rfl
        refine hcreate.bind fun d howned => ?_
        split
        · refine tags_ask ⟨rfl, hd.snoc howned⟩ fun r => ?_
          cases r with
          | ok u => exact ih (by simp [Owned])
          | error e => rintro _ ⟨⟩
        · exact ih (hd.snoc howned)

lemma tags_static (h : StaticHandler) : Tagging h.target h.autoindexerName h.updateIndex := by
  refine tags_ask trivial fun start => Obeys.bind (P := fun _ => True) ?_ fun e _ =>
    tags_ask trivial fun fin => trivial
  have hnone : Owned h.autoindexerName [] := by simp [Owned]
  refine (tags_fetchLoop h _ hnone).bind fun r hr => ?_
  cases r with
  | error e => trivial
  | ok docs =>
    dsimp only
    split
    · trivial
    · exact tags_ask ⟨rfl, hr docs rfl⟩ fun r => by cases r <;> trivial

lemma tags_getAutoindexer : Tagging t A getAutoindexer := by
  refine tags_ask trivial fun r => ?_
  match r with
  | .ok o => trivial
  | .error .notFound => trivial
  | .error .conflict => trivial
  | .error (.other m) => trivial

lemma tags_formatDocuments (h : KustoHandler) (records : List Record) :
    Obeys (Tags t A) (Owned h.autoindexerName) (h.formatDocuments records) := by
  induction records with
  | nil => intro d hd; cases hd
  | cons r records ih =>
    unfold KustoHandler.formatDocuments
    split
    · exact ih
    · refine tags_ask trivial fun t => ih.bind fun docs hdocs => ?_
      intro d hd
      rcases List.mem_cons.mp hd with rfl | hd
      · simp [Document.owner]
      · exact hdocs d hd

lemma tags_indexBatches (h : KustoHandler) (fuel number : ℕ) {docs : List Document}
    (hd : Owned h.autoindexerName docs) (errors : List String) :
    Tagging h.target h.autoindexerName (h.indexBatches fuel number docs errors) := by
  induction fuel generalizing number docs errors with
  | zero => trivial
  | succ fuel ih =>
    unfold KustoHandler.indexBatches
    split
    · trivial
    · have htake : Owned h.autoindexerName (docs.take batchSize) :=
        fun d hm => hd d (List.mem_of_mem_take hm)
      have hdrop : Owned h.autoindexerName (docs.drop batchSize) :=
        fun d hm => hd d (List.mem_of_mem_drop hm)
      refine tags_ask ⟨rfl, htake⟩ fun r => ?_
      cases r with
      | ok u => exact ih _ hdrop _
      | error e => exact ih _ hdrop _

lemma tags_kusto (h : KustoHandler) : Tagging h.target h.autoindexerName h.updateIndex := by
  refine tags_ask trivial fun start => Obeys.bind (P := fun _ => True) ?_ fun ⟨e, e'⟩ _ =>
    tags_ask trivial fun fin => trivial
  have hquery : Tagging h.target h.autoindexerName h.buildQuery := by
    refine Obeys.bind (P := fun _ => True) ?_ fun last _ => trivial
    refine tags_getAutoindexer.bind fun r _ => ?_
    match r with
    | .ok (some o) => trivial
    | .ok none => trivial
    | .error e => trivial
  refine hquery.bind fun q _ => ?_
  cases q with
  | error e => trivial
  | ok q =>
    refine tags_ask trivial fun r => ?_
    cases r with
    | error e => trivial
    | ok records =>
      exact (tags_formatDocuments h records).bind fun docs hd =>
        (tags_indexBatches h _ _ hd _).bind fun e _ => trivial

lemma tags_updateIndex (r : Remote) (h : Handler) :
    Tagging h.target h.autoindexerName (h.updateIndex r) := by
  cases h with
  | git h => exact tags_git h r
  | static h => exact tags_static h
  | database h => exact tags_kusto h

/-! ### A run of the job -/

lemma tags_countDocuments : Tagging t A (countDocuments t A) :=
  tags_ask ⟨rfl, .inl rfl⟩ fun r => by cases r <;> trivial

lemma tags_addStatusCondition (type : String) (status : ConditionStatus) (reason message : String) :
    Tagging t A (addStatusCondition type status reason message) := by
  refine tags_getAutoindexer.bind fun r _ => ?_
  match r with
  | .error e => trivial
  | .ok none => trivial
  | .ok (some current) =>
    exact tags_ask trivial fun _ => tags_ask trivial fun r => by cases r <;> trivial

lemma tags_updateAutoindexerStatus (u : StatusUpdate) :
    Tagging t A (JobClient.updateAutoindexerStatus u) := by
  refine tags_getAutoindexer.bind fun r _ => ?_
  match r with
  | .error e => trivial
  | .ok none => trivial
  | .ok (some current) => exact tags_ask trivial fun r => by cases r <;> trivial

lemma tags_incrementCounter (counter : Status → ℕ) : Tagging t A (incrementCounter counter) := by
  refine tags_getAutoindexer.bind fun r _ => ?_
  match r with
  | .error e => trivial
  | .ok none => trivial
  | .ok (some current) => trivial

lemma tags_updateIndexingCompletion (success : Bool) (d n : ℕ) :
    Tagging t A (updateIndexingCompletion success d n) := by
  refine tags_ask trivial fun now => ?_
  dsimp only
  split
  · exact (tags_incrementCounter _).bind fun n _ => tags_updateAutoindexerStatus _
  · exact (tags_incrementCounter _).bind fun n _ => tags_updateAutoindexerStatus _

lemma tags_run (r : Remote) (h : Handler) : Tagging h.target h.autoindexerName (run r h) := by
  refine tags_ask trivial fun start => (tags_addStatusCondition _ _ _ _).bind fun _ _ => ?_
  refine (tags_updateIndex r h).bind fun out _ => ?_
  have hstatus : Tagging h.target h.autoindexerName (h.updateAutoindexerStatus out) := by
    refine (obeys_createBaseStatusUpdate trivial trivial ⟨rfl, .inl rfl⟩ _ _).bind fun u _ => ?_
    cases u with
    | none => trivial
    | some u => exact (tags_updateAutoindexerStatus _).bind fun _ _ => trivial
  refine hstatus.bind fun _ _ => tags_ask trivial fun fin => ?_
  refine tags_countDocuments.bind fun n _ => ?_
  split
  · exact (tags_addStatusCondition _ _ _ _).bind fun _ _ =>
      (tags_updateIndexingCompletion _ _ _).bind fun _ _ => trivial
  · exact (tags_addStatusCondition _ _ _ _).bind fun _ _ =>
      (tags_updateIndexingCompletion _ _ _).bind fun _ _ => trivial

lemma autoindexerName_of_create {o : AutoIndexer} {h : Handler}
    (hh : createDataSourceHandler o = some h) : h.autoindexerName = o.tag := by
  unfold createDataSourceHandler at hh
  split at hh
  · cases hh
  · split at hh
    · split at hh
      · split at hh
        · cases hh
        · cases hh
          rfl
      · cases hh
    · obtain ⟨s, -, rfl⟩ := Option.map_eq_some_iff.mp hh
      rfl
    · split at hh
      · split at hh
        · cases hh
        · cases hh
          rfl
      · cases hh

/-! ### The detector -/

/-- Documents are counted in `t`, with the tag `A`, and no index is deleted. -/
def Counts (t : Target) (A : String) : Call → Prop
  | .httpGetDocumentCount e i owner => e = t.endpoint ∧ i = t.index ∧ owner = A
  | .httpDeleteIndex _ _ => False
  | _ => True

lemma counts_checkAutoIndexerDrift (o : AutoIndexer) :
    Obeys (Counts (target o) o.tag) (fun _ => True) (checkAutoIndexerDrift o) := by
  have hattempt : Obeys (Counts (target o) o.tag) (fun _ => True)
      (Controller.ask (.httpGetDocumentCount
        (generateRAGEngineEndpoint o.spec.ragEngine o.namespace_) o.spec.indexName o.tag)) :=
    ⟨⟨rfl, rfl, rfl⟩, fun _ => trivial⟩
  have hcount : Obeys (Counts (target o) o.tag) (fun _ => True)
      (getDocumentCount o.spec.ragEngine o.spec.indexName o.name o.namespace_) :=
    (obeys_retry hattempt _).bind fun r _ => by cases r <;> trivial
  unfold checkAutoIndexerDrift
  extract_lets result
  repeat' split
  · trivial
  · trivial
  · trivial
  · trivial
  · exact hcount.bind fun r _ => by cases r <;> trivial

lemma counts_checkAndMark (o : AutoIndexer) :
    Obeys (Counts (target o) o.tag) (fun _ => True) (checkAndMark o) := by
  refine (counts_checkAutoIndexerDrift o).bind fun result _ => ?_
  have hdetected : Obeys (Counts (target o) o.tag) (fun _ => True) (setDriftDetected o) :=
    ⟨trivial, fun _ => ⟨trivial, fun _ => trivial⟩⟩
  have hremediated : Obeys (Counts (target o) o.tag) (fun _ => True) (setDriftRemediated o) := by
    unfold setDriftRemediated
    extract_lets mark
    split
    · trivial
    · exact ⟨trivial, fun _ => trivial⟩
  split
  · exact hdetected.bind fun _ _ => trivial
  · exact hremediated.bind fun _ _ => trivial

/-! ### One index, one owner -/

/-- What the controller, the detector and the job say of the index and of the documents of `o`,
where the client of the job has the URL `clientURL endpoint index` for the documents of an
index. -/
structure Agrees (clientURL : String → String → String) (o : AutoIndexer) : Prop where
  endpoint : generateRAGEngineEndpoint o.spec.ragEngine o.namespace_ = (target o).endpoint
  /-- The three URLs are of the same index. -/
  written : addressed (clientURL (target o).endpoint (target o).index) =
    some (server o, utf8 o.spec.indexName.toList)
  counted : addressed (documentCountURL (generateRAGEngineEndpoint o.spec.ragEngine o.namespace_)
      o.spec.indexName o.name o.namespace_) =
    addressed (clientURL (target o).endpoint (target o).index)
  deleted : addressed (deleteIndexURL (generateRAGEngineEndpoint o.spec.ragEngine o.namespace_)
      o.spec.indexName) =
    addressed (clientURL (target o).endpoint (target o).index)
  /-- Documents are counted by the filter that the job prints for its tag. -/
  filtered : filterOf (documentCountURL (generateRAGEngineEndpoint o.spec.ragEngine o.namespace_)
      o.spec.indexName o.name o.namespace_) =
    some (utf8 (jsonDumps [("autoindexer", o.tag)]).toList)
  detector : Obeys (Counts (target o) o.tag) (fun _ => True) (checkAndMark o)
  remediation : Obeys (DeletesOnly (target o).endpoint (target o).index) (fun _ => True)
    (syncAutoIndexer o)
  collection : Obeys (DeletesOnly (target o).endpoint (target o).index) (fun _ => True)
    (garbageCollectAutoIndexer o)
  job : ∀ r h, createDataSourceHandler o = some h → Tagging (target o) o.tag (run r h)

/-- The client of the job puts an index name of unreserved characters into the path as it is. -/
def PlainPaths (clientURL : String → String → String) : Prop :=
  ∀ endpoint index : String, (∀ c ∈ index.toList, unreserved c = true) →
    clientURL endpoint index = endpoint ++ "/indexes/" ++ index ++ "/documents"

/-- **Controller, detector and job mean the same index and the same owner**, and owners differ
when AutoIndexers do. -/
theorem sameIndex {clientURL : String → String → String} (hclient : PlainPaths clientURL)
    {o : AutoIndexer} (h : Admitted o) :
    Agrees clientURL o ∧
      ∀ o', Admitted o' → o'.tag = o.tag → o'.namespace_ = o.namespace_ ∧ o'.name = o.name := by
  have hwritten : addressed (clientURL (target o).endpoint (target o).index) =
      some (server o, utf8 o.spec.indexName.toList) := by
    have hindex : ∀ c ∈ (target o).index.toList, unreserved c = true := fun c hc =>
      unreserved_of_labelChar (labelChar_of_patIndexName h.indexName c hc)
    rw [hclient _ _ hindex]
    exact addressed_of_eq h rfl (.inr ⟨_, rfl⟩)
  refine ⟨?_, fun o' h' => eq_of_tag h h'⟩
  exact
    { endpoint := rfl
      written := hwritten
      counted := (addressed_documentCountURL h).trans hwritten.symm
      deleted := (addressed_deleteIndexURL h).trans hwritten.symm
      filtered := filterOf_documentCountURL h
      detector := counts_checkAndMark o
      remediation := makes_deletesOnly (makes_syncAutoIndexer ⟨rfl, rfl⟩)
      collection := garbageCollect_deletesOnly o
      job := by
        intro r x hx
        rw [← target_of_create hx, ← autoindexerName_of_create hx]
        exact tags_run r x }

/-- The AutoIndexer `docs` of `default`, with a client that joins the parts of a URL. -/
theorem sameIndex_demo :
    Agrees (fun endpoint index => endpoint ++ "/indexes/" ++ index ++ "/documents") demo ∧
      ∀ o', Admitted o' → o'.tag = demo.tag →
        o'.namespace_ = demo.namespace_ ∧ o'.name = demo.name :=
  sameIndex (fun _ _ _ => rfl)
    { namespace_ := by simp [demo, labelChar, alphanumeric]
      name := by simp [demo, nameChar, labelChar, alphanumeric]
      ragEngine := by simp [demo, nameChar, labelChar, alphanumeric]
      indexName := by decide }

end KaitoAutoIndexer.SameIndex
