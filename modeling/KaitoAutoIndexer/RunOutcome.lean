import KaitoAutoIndexer.Job
import KaitoAutoIndexer.GitSpec

/-!
What decides the result of a run: the failures of the source and of the RAG engine that it meets
while it indexes.
-/

namespace KaitoAutoIndexer.RunOutcome

open KaitoAutoIndexer.Lib KaitoAutoIndexer.Types KaitoAutoIndexer.Conditions
open KaitoAutoIndexer.Rag KaitoAutoIndexer.Cluster KaitoAutoIndexer.JobClient
open KaitoAutoIndexer.Git KaitoAutoIndexer.Kusto KaitoAutoIndexer.Static KaitoAutoIndexer.Job
open KaitoAutoIndexer.GitSpec (Action action)

/-! ### Failures -/

/-- What a run has been answered. -/
structure Log where
  /-- A query, a fetch, an indexing, an update or the lookup of a path has failed. -/
  failed : Bool
  /-- For each lookup of a path, whether it found a document. -/
  found : List Bool
  /-- For each read of the object, its timestamp, `none` if it could not be read. -/
  timestamps : List (Option Time)
  deriving DecidableEq

def silent : Log := ⟨false, [], []⟩

/-- A request for the documents of a path, and not for those of an AutoIndexer. -/
def isLookup (f : Metadata) : Bool := f.any (·.1 == "file_path")

def hear (g : Log) : (c : JobCall) → JobAnswer c → Log
  | .getAutoIndexer, .ok o => { g with timestamps := g.timestamps ++ [o.status.lastIndexingTimestamp] }
  | .getAutoIndexer, .error _ => { g with timestamps := g.timestamps ++ [none] }
  | .kusto _, .error _ => { g with failed := true }
  | .fetch _, .error _ => { g with failed := true }
  | .rag _ (.indexDocuments _), .error _ => { g with failed := true }
  | .rag _ (.updateDocuments _), .error _ => { g with failed := true }
  | .rag _ (.listDocuments f _), .error _ =>
    if isLookup f then { g with failed := true, found := g.found ++ [false] } else g
  | .rag _ (.listDocuments f _), .ok r =>
    if isLookup f then { g with found := g.found ++ [r.documents.head?.isSome] } else g
  | _, _ => g

/-- The lookups that a change calls for: `true` stands for one made to delete. -/
def lookups : Action → List Bool
  | .replace _ _ _ => [false]
  | .delete _ => [true]
  | _ => []

/-- A request has failed, or a document to delete was found: it cannot be deleted. -/
def Troubled (asked : List Bool) (g : Log) : Prop :=
  g.failed = true ∨ (true, true) ∈ asked.zip g.found

/-- The commits could be compared, and the engine has answered well. -/
def FineDiff (h : GitHandler) (r : Remote) (c : Checkout) (g : Log) : Prop :=
  match c.diff h.lastIndexedCommit with
  | .error .badName => g.failed = false
  | .error (.other _) => False
  | .ok items => ¬ Troubled (items.flatMap fun d => lookups (action h r c d)) g

/-- Nothing has gone wrong for the handler: the repository was set up and compared, or a query
could be built with the timestamp of the second read, and the source and the engine have answered
well. -/
def Fine (r : Remote) (g : Log) : Handler → Prop
  | .git h =>
    match setupRepository h r with
    | .error _ => False
    | .ok c =>
      match h.path with
      | .full => g.failed = false
      | .incremental => FineDiff h r c g
  | .static _ => g.failed = false
  | .database h => (h.query (g.timestamps.getD 1 none)).isOk = true ∧ g.failed = false

/-- Nothing but reads of the object is added. -/
structure Log.Later (g g' : Log) : Prop where
  failed : g'.failed = g.failed
  found : g'.found = g.found
  timestamps : g.timestamps <+: g'.timestamps

lemma Log.Later.refl (g : Log) : g.Later g := ⟨rfl, rfl, List.prefix_rfl⟩

lemma Log.Later.trans {g g' g'' : Log} (h : g.Later g') (h' : g'.Later g'') : g.Later g'' :=
  ⟨h'.failed.trans h.failed, h'.found.trans h.found, h.timestamps.trans h'.timestamps⟩

/-! ### What a handler returns -/

section

variable {α β : Type}

abbrev Hears (Q : α → Log → Prop) (p : Py α) (g : Log) : Prop :=
  Tells hear (fun _ _ => True) Q p g

variable {Q : α → Log → Prop} {g g' : Log} {h : GitHandler} {r : Remote} {c : Checkout}

lemma hears_ask {c : JobCall} {k : JobAnswer c → Py α} (hk : ∀ a, Hears Q (k a) (hear g c a)) :
    Hears Q (ask c >>= k) g := tells_ask trivial hk

/-- A part of a run adds an error if and only if a request fails. -/
def Grows (errors errors' : List String) (g g' : Log) : Prop :=
  errors' = errors ∧ g'.failed = g.failed ∨ errors' ≠ [] ∧ g'.failed = true

lemma Grows.trans {e e' e'' : List String} {g'' : Log} (h : Grows e e' g g')
    (h' : Grows e' e'' g' g'') : Grows e e'' g g'' := by
  rcases h' with ⟨rfl, hf⟩ | h'
  · rcases h with ⟨rfl, hf'⟩ | ⟨he, hf'⟩
    · exact .inl ⟨rfl, hf.trans hf'⟩
    · exact .inr ⟨he, hf.trans hf'⟩
  · exact .inr h'

lemma Grows.ne_nil_iff {errors : List String} (h : Grows [] errors g g') (hg : g.failed = false) :
    errors = [] ↔ g'.failed = false := by
  rcases h with ⟨rfl, hf⟩ | ⟨he, hf⟩
  · simp [hf, hg]
  · simp [he, hf]

lemma createDocument_hears (p x changeType : String) :
    Hears (fun _ g' => g' = g) (Git.createDocument h c p x changeType) g :=
  hears_ask fun _ => tells_ret rfl

lemma indexDocumentsBatch_hears (docs : List Document) (errors : List String) :
    Hears (fun errors' g' => g'.found = g.found ∧ Grows errors errors' g g')
      (indexDocumentsBatch h docs errors) g := by
  refine hears_ask fun a => ?_
  cases a with
  | ok u => exact tells_ret ⟨rfl, .inl ⟨rfl, rfl⟩⟩
  | error e => exact tells_ret ⟨rfl, .inr ⟨by simp, rfl⟩⟩

lemma updateDocumentsBatch_hears (docs : List StoredDocument) (errors : List String) :
    Hears (fun errors' g' => g'.found = g.found ∧ Grows errors errors' g g')
      (updateDocumentsBatch h docs errors) g := by
  refine hears_ask fun a => ?_
  cases a with
  | ok u => exact tells_ret ⟨rfl, .inl ⟨rfl, rfl⟩⟩
  | error e => exact tells_ret ⟨rfl, .inr ⟨by simp, rfl⟩⟩

lemma lookup_hears (p purpose : String) (errors : List String) :
    Hears (fun a g' => g'.found = g.found ++ [a.1.isSome] ∧ Grows errors a.2 g g')
      (lookup h p purpose errors) g := by
  refine hears_ask fun a => ?_
  cases a with
  | ok u => exact tells_ret ⟨rfl, .inl ⟨rfl, rfl⟩⟩
  | error e => exact tells_ret ⟨rfl, .inr ⟨by simp, rfl⟩⟩

lemma indexAllLoop_hears (files : List String) (docs : List Document) (errors : List String) :
    Hears (fun a g' => g'.found = g.found ∧ Grows errors a.2 g g')
      (indexAllLoop h c files docs errors) g := by
  induction files generalizing docs errors g with
  | nil => exact tells_ret ⟨rfl, .inl ⟨rfl, rfl⟩⟩
  | cons p files ih =>
    unfold indexAllLoop
    split
    · exact ih _ _
    · refine (createDocument_hears p _ _).bind ?_
      rintro d _ rfl
      dsimp only
      split
      · refine (indexDocumentsBatch_hears _ _).bind ?_
        rintro e g1 ⟨h1, hgrows⟩
        refine (ih [] e).mono (fun _ _ h => h) ?_
        rintro a g2 ⟨h2, hgrows'⟩
        exact ⟨h2.trans h1, hgrows.trans hgrows'⟩
      · exact ih _ _

lemma indexAllFiles_hears (errors : List String) :
    Hears (fun errors' g' => g'.found = g.found ∧ Grows errors errors' g g')
      (indexAllFiles h r c errors) g := by
  refine (indexAllLoop_hears _ _ _).bind ?_
  rintro ⟨docs, e⟩ g1 ⟨h1, hgrows⟩
  dsimp only
  split
  · refine (indexDocumentsBatch_hears _ _).mono (fun _ _ h => h) ?_
    rintro e' g2 ⟨h2, hgrows'⟩
    exact ⟨h2.trans h1, hgrows.trans hgrows'⟩
  · exact tells_ret ⟨h1, hgrows⟩

/-! ### The incremental run -/

/-- After the lookups `asked`, the queues hold an error or a deletion if and only if there is
trouble. -/
structure Tracks (asked : List Bool) (q : Pending) (g : Log) : Prop where
  length : asked.length = g.found.length
  troubled : (q.errors ≠ [] ∨ q.deleteDocIds ≠ []) ↔ Troubled asked g

variable {asked : List Bool} {q q' : Pending}

/-- Requests other than lookups. -/
lemma Tracks.grows (ht : Tracks asked q g) (hfound : g'.found = g.found)
    (hgrows : Grows q.errors q'.errors g g') (hd : q'.deleteDocIds = q.deleteDocIds) :
    Tracks asked q' g' := by
  refine ⟨hfound ▸ ht.length, ?_⟩
  have hiff := ht.troubled
  unfold Troubled at hiff ⊢
  rw [hd, hfound]
  rcases hgrows with ⟨he, hf⟩ | ⟨he, hf⟩
  · rw [he, hf]
    exact hiff
  · simp [he, hf]

/-- A lookup, made to delete or not. -/
lemma Tracks.lookup {b found : Bool} (ht : Tracks asked q g) (hfound : g'.found = g.found ++ [found])
    (hgrows : Grows q.errors q'.errors g g')
    (hd : q'.deleteDocIds ≠ [] ↔ q.deleteDocIds ≠ [] ∨ b = true ∧ found = true) :
    Tracks (asked ++ [b]) q' g' := by
  refine ⟨by simp [hfound, ht.length], ?_⟩
  have hiff := ht.troubled
  have hzip : (true, true) ∈ (asked ++ [b]).zip g'.found ↔
      (true, true) ∈ asked.zip g.found ∨ b = true ∧ found = true := by
    rw [hfound, List.zip_append ht.length]
    simp [eq_comm]
  unfold Troubled at hiff ⊢
  rw [hd, hzip]
  rcases hgrows with ⟨he, hf⟩ | ⟨he, hf⟩
  · rw [he, hf, ← or_assoc, hiff, or_assoc]
  · simp [he, hf]

lemma queueReplacement_hears (ht : Tracks asked q g) (old p x purpose changeType : String) :
    Hears (fun q' g' => Tracks (asked ++ [false]) q' g')
      (queueReplacement h c q old p x purpose changeType) g := by
  refine (lookup_hears old purpose q.errors).bind ?_
  rintro ⟨found, e⟩ g1 ⟨hfound, hgrows⟩
  cases found with
  | none =>
    refine (createDocument_hears _ _ _).bind ?_
    rintro d _ rfl
    exact tells_ret (ht.lookup hfound hgrows (by simp))
  | some y =>
    refine (createDocument_hears _ _ _).bind ?_
    rintro d _ rfl
    exact tells_ret (ht.lookup hfound hgrows (by simp))

lemma queueItem_hears (ht : Tracks asked q g) (d : DiffItem) :
    Hears (fun a g' => Tracks (asked ++ lookups (action h r c d)) a.1 g') (queueItem h r c q d) g := by
  have hnone : Tracks (asked ++ []) q g := by rwa [List.append_nil]
  unfold queueItem action
  by_cases hs : shouldIndexFile h r d.filePath = true
  · simp only [hs, not_true_eq_false, if_false]
    cases d.changeType with
    | added =>
      cases readText c d.filePath with
      | none => exact tells_ret hnone
      | some x =>
        refine (createDocument_hears _ _ _).bind ?_
        rintro doc _ rfl
        exact tells_ret (hnone.grows rfl (.inl ⟨rfl, rfl⟩) rfl)
    | modified =>
      cases readText c d.filePath with
      | none => exact tells_ret hnone
      | some x => exact (queueReplacement_hears ht _ _ _ _ _).bind fun q' g' h' => tells_ret h'
    | deleted =>
      refine (lookup_hears d.filePath "deletion" q.errors).bind ?_
      rintro ⟨found, e⟩ g1 ⟨hfound, hgrows⟩
      cases found with
      | none => exact tells_ret (ht.lookup hfound hgrows (by simp))
      | some y => exact tells_ret (ht.lookup hfound hgrows (by simp))
    | renamed =>
      cases readText c d.filePath with
      | none => exact tells_ret hnone
      | some x =>
        dsimp only
        cases d.aPath.filter (· ≠ "") with
        | none => exact tells_ret hnone
        | some a => exact (queueReplacement_hears ht _ _ _ _ _).bind fun q' g' h' => tells_ret h'
    | typeChanged => exact tells_ret hnone
    | copied => exact tells_ret hnone
  · simp only [hs, if_true, not_false_eq_true, Bool.false_eq_true]
    exact tells_ret hnone

/-- A flush sends requests that are not lookups, and turns deletions into errors. -/
lemma flush_hears (n : ℕ) (ht : Tracks asked q g) :
    Hears (fun q' g' => Tracks asked q' g' ∧ (n = 1 → q'.deleteDocIds = [])) (flush h n q) g := by
  have hcreates : Hears (fun q' g' => Tracks asked q' g') (flushCreates h n q) g := by
    unfold flushCreates
    split
    · refine (indexDocumentsBatch_hears _ _).bind ?_
      rintro e g1 ⟨hfound, hgrows⟩
      exact tells_ret (ht.grows hfound hgrows rfl)
    · exact tells_ret ht
  refine hcreates.bind fun q1 g1 h1 => ?_
  have hupdates : Hears (fun q' g' => Tracks asked q' g') (flushUpdates h n q1) g1 := by
    unfold flushUpdates
    split
    · refine (updateDocumentsBatch_hears _ _).bind ?_
      rintro e g2 ⟨hfound, hgrows⟩
      exact tells_ret (h1.grows hfound hgrows rfl)
    · exact tells_ret h1
  refine hupdates.bind fun q2 g2 h2 => tells_ret ?_
  unfold flushDeletes
  split
  · refine ⟨⟨h2.length, ?_⟩, fun _ => rfl⟩
    rw [← h2.troubled]
    cases hd : q2.deleteDocIds <;> simp [deleteDocumentsBatch]
  · rename_i hlen
    refine ⟨h2, ?_⟩
    rintro rfl
    exact List.eq_nil_of_length_eq_zero (by omega)

lemma indexDiffLoop_hears (items : List DiffItem) (ht : Tracks asked q g) :
    Hears (fun q' g' => Tracks (asked ++ items.flatMap fun d => lookups (action h r c d)) q' g')
      (indexDiffLoop h r c items q) g := by
  induction items generalizing asked q g with
  | nil => exact tells_ret (by simpa using ht)
  | cons d items ih =>
    refine (queueItem_hears ht d).bind ?_
    rintro ⟨q1, reached⟩ g1 h1
    have hflush : Hears (fun q' g' => Tracks (asked ++ lookups (action h r c d)) q' g')
        (if reached = true then flushFull h q1 else pure q1) g1 := by
      split
      · exact (flush_hears 10 h1).mono (fun _ _ h => h) fun _ _ h => h.1
      · exact tells_ret h1
    refine hflush.bind fun q2 g2 h2 => ?_
    rw [List.flatMap_cons, ← List.append_assoc]
    exact ih h2

lemma indexDiffFiles_hears (hfailed : g.failed = false) (hfound : g.found = []) :
    Hears (fun a g => match a with
      | .ok errors => errors = [] ↔ FineDiff h r c g
      | .error _ => ¬ FineDiff h r c g)
    (indexDiffFiles h r c []) g := by
  unfold indexDiffFiles FineDiff
  cases c.diff h.lastIndexedCommit with
  | error e =>
    cases e with
    | badName =>
      refine (indexAllFiles_hears []).bind ?_
      rintro e g1 ⟨-, hgrows⟩
      exact tells_ret (hgrows.ne_nil_iff hfailed)
    | other m => exact tells_ret not_false
  | ok items =>
    have hstart : Tracks [] ⟨[], [], [], []⟩ g :=
      ⟨by simp [hfound], by simp [Troubled, hfailed]⟩
    refine (indexDiffLoop_hears items hstart).bind fun q1 g1 h1 => (flush_hears 1 h1).bind ?_
    rintro q2 g2 ⟨h2, hd⟩
    have hiff := h2.troubled
    rw [hd rfl, List.nil_append] at hiff
    refine tells_ret ?_
    dsimp only
    rw [← hiff]
    simp

lemma git_updateIndex_hears (h : GitHandler) (r : Remote) (hfailed : g.failed = false)
    (hfound : g.found = []) :
    Hears (fun out g => (out.returned = [] → out.errors = []) ∧
      (out.returned = [] ↔ Fine r g (.git h))) (h.updateIndex r) g := by
  have hindex : Hears (fun a g => a.1 = [] ↔ Fine r g (.git h)) (h.indexRepository r) g := by
    unfold GitHandler.indexRepository
    cases hs : setupRepository h r with
    | error e => exact tells_ret (by simp [Fine, hs])
    | ok c =>
      dsimp only
      cases hp : h.path with
      | full =>
        simp only [Fine, hs, hp]
        refine (indexAllFiles_hears []).bind ?_
        rintro e g1 ⟨-, hgrows⟩
        exact tells_ret (hgrows.ne_nil_iff hfailed)
      | incremental =>
        simp only [Fine, hs, hp]
        refine (indexDiffFiles_hears hfailed hfound).bind ?_
        rintro (e | errors) g1 h1
        · exact tells_ret ⟨by simp, fun hf => absurd hf h1⟩
        · exact tells_ret h1
  refine hears_ask fun start => hindex.bind ?_
  rintro ⟨errors, commit⟩ g1 h1
  exact hears_ask fun stop => tells_ret ⟨fun he => he, h1⟩

end

/-! ### The other sources -/

section

variable {Q : Outcome → Log → Prop} {g g' : Log}

lemma fetchLoop_hears (h : StaticHandler) (urls : List String) (docs : List Document)
    (hg : g.failed = false) :
    Hears (fun a g' => match a with
      | .ok _ => g'.failed = false
      | .error _ => g'.failed = true) (h.fetchLoop urls docs) g := by
  induction urls generalizing docs g with
  | nil => exact tells_ret hg
  | cons url urls ih =>
    refine hears_ask fun a => ?_
    cases a with
    | error e => exact tells_ret rfl
    | ok content =>
      dsimp only
      split
      · exact ih docs hg
      · have hdoc : ∀ content, Hears (fun _ g' => g'.failed = false) (h.createDocument url content) g :=
          fun _ => hears_ask fun t => tells_ret hg
        refine (hdoc _).bind fun doc g1 h1 => ?_
        split
        · refine hears_ask fun a => ?_
          cases a with
          | ok u => exact ih [] h1
          | error e => exact tells_ret rfl
        · exact ih _ h1

lemma static_updateIndex_hears (h : StaticHandler) (r : Remote) (hg : g.failed = false) :
    Hears (fun out g => (out.returned = [] → out.errors = []) ∧
      (out.returned = [] ↔ Fine r g (.static h))) h.updateIndex g := by
  have hindex : Hears (fun errors g => errors = [] ↔ g.failed = false) h.indexUrls g := by
    refine (fetchLoop_hears h h.urls [] hg).bind ?_
    rintro (e | docs) g1 h1
    · exact tells_ret (by simp [h1])
    · dsimp only
      split
      · exact tells_ret (by simp [h1])
      · refine hears_ask fun a => ?_
        cases a with
        | ok u => exact tells_ret (by simpa [hear] using h1)
        | error e => exact tells_ret (by simp [hear])
  refine hears_ask fun start => hindex.bind fun errors g1 h1 => ?_
  exact hears_ask fun stop => tells_ret ⟨fun he => he, h1⟩

lemma indexBatches_hears (h : KustoHandler) (fuel number : ℕ) (docs : List Document)
    (errors : List String) :
    Hears (fun errors' g' => g'.timestamps = g.timestamps ∧ Grows errors errors' g g')
      (h.indexBatches fuel number docs errors) g := by
  induction fuel generalizing number docs errors g with
  | zero => exact tells_ret ⟨rfl, .inl ⟨rfl, rfl⟩⟩
  | succ fuel ih =>
    unfold KustoHandler.indexBatches
    split
    · exact tells_ret ⟨rfl, .inl ⟨rfl, rfl⟩⟩
    · refine hears_ask fun a => ?_
      cases a with
      | ok u => exact ih _ _ _
      | error e =>
        refine (ih _ _ _).mono (fun _ _ h => h) ?_
        rintro errors' g' ⟨ht, hgrows⟩
        exact ⟨ht, Grows.trans (.inr ⟨by simp, rfl⟩) hgrows⟩

lemma formatDocuments_hears (h : KustoHandler) (records : List Record) :
    Hears (fun _ g' => g' = g) (h.formatDocuments records) g := by
  induction records with
  | nil => exact tells_ret rfl
  | cons record records ih =>
    unfold KustoHandler.formatDocuments
    split
    · exact ih
    · refine hears_ask fun t => ih.bind ?_
      rintro docs _ rfl
      exact tells_ret rfl

lemma buildQuery_hears (h : KustoHandler) (hg : g.failed = false) :
    Hears (fun q g' => g'.failed = false ∧ ∃ t, g'.timestamps = g.timestamps ++ [t] ∧ q = h.query t)
      h.buildQuery g := by
  refine hears_ask fun a => ?_
  match a with
  | .ok o => exact tells_ret ⟨hg, _, rfl, rfl⟩
  | .error .notFound => exact tells_ret ⟨hg, _, rfl, rfl⟩
  | .error .conflict => exact tells_ret ⟨hg, _, rfl, rfl⟩
  | .error (.other m) => exact tells_ret ⟨hg, _, rfl, rfl⟩

lemma database_updateIndex_hears (h : KustoHandler) (r : Remote) (hg : g.failed = false)
    (ht : g.timestamps.length = 1) :
    Hears (fun out g1 => (out.returned = [] → out.errors = []) ∧
      ∀ g', g1.Later g' → (out.returned = [] ↔ Fine r g' (.database h))) h.updateIndex g := by
  have hindex : Hears (fun a g1 => (a.1 = [] → a.2 = []) ∧
      ∀ g', g1.Later g' → (a.1 = [] ↔ Fine r g' (.database h))) h.indexRecords g := by
    refine (buildQuery_hears h hg).bind ?_
    rintro q g1 ⟨hfailed, t, ht1, rfl⟩
    have hsecond : ∀ g' : Log, g1.timestamps <+: g'.timestamps →
        (Fine r g' (.database h) ↔ (h.query t).isOk = true ∧ g'.failed = false) := by
      rintro g' ⟨rest, hrest⟩
      have hget : g'.timestamps.getD 1 none = t := by
        rw [← hrest, ht1, List.append_assoc, List.getD_append_right _ _ _ _ (by omega), ht]
        rfl
      simp only [Fine, hget]
    cases hq : h.query t with
    | error e =>
      refine tells_ret ⟨by simp, fun g' hg' => ?_⟩
      rw [hsecond g' hg'.timestamps, hq]
      simp [Except.isOk, Except.toBool]
    | ok query =>
      refine hears_ask fun a => ?_
      cases a with
      | error e =>
        refine tells_ret ⟨by simp, fun g' hg' => ?_⟩
        rw [hsecond g' hg'.timestamps, hg'.failed]
        simp [hear]
      | ok records =>
        refine (formatDocuments_hears h records).bind ?_
        rintro documents _ rfl
        refine (indexBatches_hears h _ _ _ _).bind ?_
        rintro errors g2 ⟨ht2, hgrows⟩
        refine tells_ret ⟨fun he => he, fun g' hg' => ?_⟩
        rw [hsecond g' (ht2 ▸ hg'.timestamps), hq, hg'.failed, hgrows.ne_nil_iff hfailed]
        simp [Except.isOk, Except.toBool]
  refine hears_ask fun start => hindex.bind ?_
  rintro ⟨returned, errors⟩ g1 h1
  exact hears_ask fun stop => tells_ret h1

lemma Fine.of_later {h : Handler} {r : Remote} (hg : g.Later g') (hh : ∀ k, h ≠ .database k) :
    Fine r g h ↔ Fine r g' h := by
  cases h with
  | git h => simp only [Fine, FineDiff, Troubled, hg.failed, hg.found]
  | static h => simp only [Fine, hg.failed]
  | database h => exact absurd rfl (hh h)

/-- The run returns no error exactly when nothing has gone wrong, whatever is read afterwards. -/
lemma updateIndex_hears (h : Handler) (r : Remote) (hfailed : g.failed = false)
    (hfound : g.found = []) (ht : g.timestamps.length = 1) :
    Hears (fun out g1 => (out.returned = [] → out.errors = []) ∧
      ∀ g', g1.Later g' → (out.returned = [] ↔ Fine r g' h)) (h.updateIndex r) g := by
  cases h with
  | git h =>
    refine (git_updateIndex_hears h r hfailed hfound).mono (fun _ _ h => h) ?_
    rintro out g1 ⟨he, hiff⟩
    exact ⟨he, fun g' hg' => hiff.trans (Fine.of_later hg' (by simp))⟩
  | static h =>
    refine (static_updateIndex_hears h r hfailed).mono (fun _ _ h => h) ?_
    rintro out g1 ⟨he, hiff⟩
    exact ⟨he, fun g' hg' => hiff.trans (Fine.of_later hg' (by simp))⟩
  | database h => exact database_updateIndex_hears h r hfailed ht

end

/-! ### The run -/

/-- The calls of a run before and after the indexing. -/
def Reports : JobCall → Prop
  | .now => True
  | .getAutoIndexer => True
  | .patchStatus _ => True
  | .rag _ (.listDocuments f _) => isLookup f = false
  | _ => False

abbrev Reporting {α : Type} (p : Py α) : Prop := Obeys Reports (fun _ => True) p

lemma later_hear {g : Log} {c : JobCall} (hc : Reports c) (a : JobAnswer c) :
    g.Later (hear g c a) := by
  match c, a with
  | .now, _ => exact .refl g
  | .patchStatus _, _ => exact .refl g
  | .getAutoIndexer, .ok o => exact ⟨rfl, rfl, List.prefix_append _ _⟩
  | .getAutoIndexer, .error _ => exact ⟨rfl, rfl, List.prefix_append _ _⟩
  | .rag _ (.listDocuments f _), .ok _ =>
    have hf : isLookup f = false := hc
    simp only [hear, hf]
    exact .refl g
  | .rag _ (.listDocuments f _), .error _ =>
    have hf : isLookup f = false := hc
    simp only [hear, hf]
    exact .refl g

lemma Reporting.hears {α : Type} {p : Py α} (hp : Reporting p) (g : Log) :
    Hears (fun _ g' => g.Later g') p g := by
  refine (Obeys.tells (J := fun g' => g.Later g') hp (fun _ _ _ _ => trivial) ?_ (.refl g)).mono
    (fun _ _ h => h) fun _ _ h => h.2
  exact fun g1 c a hc h1 => h1.trans (later_hear hc a)

section

variable {α β : Type}

lemma reporting_ask {c : JobCall} {k : JobAnswer c → Py α} (hc : Reports c)
    (hk : ∀ a, Reporting (k a)) : Reporting (ask c >>= k) := ⟨hc, hk⟩

lemma Reporting.bind {p : Py α} {k : α → Py β} (hp : Reporting p) (hk : ∀ a, Reporting (k a)) :
    Reporting (p >>= k) := Obeys.bind hp fun a _ => hk a

lemma reporting_pure (a : α) : Reporting (pure a : Py α) := trivial

lemma reporting_getAutoindexer : Reporting getAutoindexer := by
  refine reporting_ask trivial fun a => ?_
  match a with
  | .ok o => exact reporting_pure _
  | .error .notFound => exact reporting_pure _
  | .error .conflict => exact reporting_pure _
  | .error (.other m) => exact reporting_pure _

lemma reporting_updateAutoindexerStatus (u : StatusUpdate) :
    Reporting (JobClient.updateAutoindexerStatus u) := by
  refine reporting_getAutoindexer.bind fun a => ?_
  match a with
  | .error _ => exact reporting_pure _
  | .ok none => exact reporting_pure _
  | .ok (some current) => exact reporting_ask trivial fun a => by cases a <;> exact reporting_pure _

lemma reporting_addStatusCondition (type : String) (status : ConditionStatus)
    (reason message : String) : Reporting (addStatusCondition type status reason message) := by
  refine reporting_getAutoindexer.bind fun a => ?_
  match a with
  | .error _ => exact reporting_pure _
  | .ok none => exact reporting_pure _
  | .ok (some current) =>
    refine reporting_ask trivial fun t => ?_
    exact reporting_ask trivial fun a => by cases a <;> exact reporting_pure _

lemma reporting_incrementCounter (f : Status → ℕ) : Reporting (incrementCounter f) := by
  refine reporting_getAutoindexer.bind fun a => ?_
  match a with
  | .error _ => exact reporting_pure _
  | .ok none => exact reporting_pure _
  | .ok (some current) => exact reporting_pure _

lemma reporting_updateIndexingCompletion (success : Bool) (duration count : ℕ) :
    Reporting (updateIndexingCompletion success duration count) := by
  refine reporting_ask trivial fun t => ?_
  dsimp only
  split
  · exact (reporting_incrementCounter _).bind fun n => reporting_updateAutoindexerStatus _
  · exact (reporting_incrementCounter _).bind fun n => reporting_updateAutoindexerStatus _

lemma reporting_countDocuments (t : Target) (owner : String) : Reporting (countDocuments t owner) := by
  refine reporting_ask rfl fun a => ?_
  cases a <;> exact reporting_pure _

lemma reporting_createCondition (type : String) (status : ConditionStatus)
    (reason message : String) (generation : ℕ) :
    Reporting (createCondition type status reason message generation) :=
  reporting_ask trivial fun _ => reporting_pure _

lemma reporting_createBaseStatusUpdate (t : Target) (name : String) (errors : List String)
    (duration : ℕ) : Reporting (createBaseStatusUpdate t name errors duration) := by
  refine reporting_getAutoindexer.bind fun a => ?_
  match a with
  | .error _ => exact reporting_pure _
  | .ok none => exact reporting_pure _
  | .ok (some current) =>
    refine reporting_ask trivial fun t1 => (reporting_countDocuments _ _).bind fun n => ?_
    refine (reporting_createCondition _ _ _ _ _).bind fun succeeded => ?_
    split
    all_goals
      refine (reporting_createCondition _ _ _ _ _).bind fun error => ?_
      refine (reporting_createCondition _ _ _ _ _).bind fun failed => ?_
      exact (reporting_createCondition _ _ _ _ _).bind fun indexing => reporting_pure _

lemma reporting_handler (h : Handler) (out : Outcome) :
    Reporting (h.updateAutoindexerStatus out) := by
  refine (reporting_createBaseStatusUpdate _ _ _ _).bind fun u => ?_
  cases u with
  | none => exact reporting_pure _
  | some u => exact (reporting_updateAutoindexerStatus _).bind fun _ => reporting_pure _

end

/-- The run begins with one read. -/
lemma started_hears (g : Log) (type : String) (status : ConditionStatus) (reason message : String) :
    Hears (fun _ g' => g'.failed = g.failed ∧ g'.found = g.found ∧
      g'.timestamps.length = g.timestamps.length + 1)
      (addStatusCondition type status reason message) g := by
  refine hears_ask fun a => ?_
  match a with
  | .error .notFound => exact tells_ret (by simp [hear])
  | .error .conflict => exact tells_ret (by simp [hear])
  | .error (.other m) => exact tells_ret (by simp [hear])
  | .ok o =>
    refine hears_ask fun t => hears_ask fun a => ?_
    cases a with
    | ok u => exact tells_ret (by simp [hear])
    | error e => exact tells_ret (by simp [hear])

/-- **A run returns True exactly when nothing has gone wrong** while it was indexing, whatever the
API server answers. -/
lemma run_hears (r : Remote) (h : Handler) :
    Hears (fun success g => success = true ↔ Fine r g h) (Job.run r h) silent := by
  refine hears_ask fun start => (started_hears silent _ _ _ _).bind ?_
  rintro - g1 ⟨hfailed, hfound, ht⟩
  refine (updateIndex_hears h r hfailed hfound ht).bind ?_
  rintro out g2 ⟨-, hiff⟩
  refine ((reporting_handler h out).hears g2).bind fun _ g3 h3 => hears_ask fun stop => ?_
  refine ((reporting_countDocuments _ _).hears g3).bind fun n g4 h4 => ?_
  have h24 := h3.trans h4
  split
  · rename_i hout
    refine ((reporting_addStatusCondition _ _ _ _).hears g4).bind fun _ g5 h5 => ?_
    refine ((reporting_updateIndexingCompletion _ _ _).hears g5).bind fun _ g6 h6 => ?_
    refine tells_ret ⟨nofun, fun hf => ?_⟩
    exact absurd ((hiff g6 (h24.trans (h5.trans h6))).mpr hf) hout
  · rename_i hout
    refine ((reporting_addStatusCondition _ _ _ _).hears g4).bind fun _ g5 h5 => ?_
    refine ((reporting_updateIndexingCompletion _ _ _).hears g5).bind fun _ g6 h6 => ?_
    refine tells_ret ⟨fun _ => ?_, fun _ => rfl⟩
    exact (hiff g6 (h24.trans (h5.trans h6))).mp (not_not.mp hout)

end KaitoAutoIndexer.RunOutcome
