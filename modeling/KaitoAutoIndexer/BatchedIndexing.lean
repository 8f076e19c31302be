import KaitoAutoIndexer.GitSpec
import KaitoAutoIndexer.Kusto
import KaitoAutoIndexer.Lib.Batches

/-!
The batches that the handlers send off, over every run: what is passed to the RAG engine is what was
queued for it, in order, however the engine answers.
-/

namespace KaitoAutoIndexer.BatchedIndexing

open KaitoAutoIndexer.Lib KaitoAutoIndexer.Lib.Batches
open KaitoAutoIndexer.Rag KaitoAutoIndexer.JobClient KaitoAutoIndexer.Git KaitoAutoIndexer.Kusto
open KaitoAutoIndexer.GitSpec (readings demoHandler demoCheckout demoRemote indexServe)

/-! ### Logs of calls -/

/-- The calls of a run with their answers. -/
abbrev Log := List (Σ call, JobAnswer call)

/-- The lists passed to `index_documents`. -/
def indexed (g : Log) : List (List Document) :=
  g.filterMap fun
    | ⟨.rag _ (.indexDocuments docs), _⟩ => some docs
    | _ => none

/-- The lists passed to `update_documents`. -/
def updated (g : Log) : List (List StoredDocument) :=
  g.filterMap fun
    | ⟨.rag _ (.updateDocuments docs), _⟩ => some docs
    | _ => none

/-- How the engine answers the batches of new documents. -/
def answers (g : Log) : List (Except String Unit) :=
  g.filterMap fun
    | ⟨.rag _ (.indexDocuments _), a⟩ => some a
    | _ => none

/-- What the Git handler records of the batches that failed. -/
def failed (g : Log) : List String :=
  g.filterMap fun
    | ⟨.rag _ (.indexDocuments _), .error e⟩ => some ("Failed to index document batch: " ++ e)
    | ⟨.rag _ (.updateDocuments _), .error e⟩ => some ("Failed to update document batch: " ++ e)
    | _ => none

def isBatch : JobCall → Bool
  | .rag _ (.indexDocuments _) => true
  | .rag _ (.updateDocuments _) => true
  | _ => false

/-- The calls that send no batch. -/
def asked (g : Log) : Log := g.filter fun e => ¬ isBatch e.1

variable {g g' : Log}

@[simp] lemma indexed_append (g g' : Log) : indexed (g ++ g') = indexed g ++ indexed g' :=
  List.filterMap_append

@[simp] lemma updated_append (g g' : Log) : updated (g ++ g') = updated g ++ updated g' :=
  List.filterMap_append

@[simp] lemma answers_append (g g' : Log) : answers (g ++ g') = answers g ++ answers g' :=
  List.filterMap_append

@[simp] lemma failed_append (g g' : Log) : failed (g ++ g') = failed g ++ failed g' :=
  List.filterMap_append

@[simp] lemma asked_append (g g' : Log) : asked (g ++ g') = asked g ++ asked g' := List.filter_append g g'

/-- The log of something that sends no batch. -/
structure Quiet (g : Log) : Prop where
  indexed : indexed g = []
  updated : updated g = []
  answers : answers g = []
  failed : failed g = []
  asked : asked g = g

lemma quiet_nil : Quiet [] := ⟨rfl, rfl, rfl, rfl, rfl⟩

lemma quiet_cons {e : Σ call, JobAnswer call} (he : isBatch e.1 = false) (hg : Quiet g) : Quiet (e :: g) := by
  obtain ⟨call, a⟩ := e
  have hone : Quiet [⟨call, a⟩] := by
    cases call with
    | rag target q =>
      cases q with
      | listDocuments filter limit => exact ⟨rfl, rfl, rfl, rfl, rfl⟩
      | indexDocuments docs => cases he
      | updateDocuments docs => cases he
    | _ => exact ⟨rfl, rfl, rfl, rfl, rfl⟩
  have happend : ⟨call, a⟩ :: g = [⟨call, a⟩] ++ g := rfl
  constructor
  · rw [happend, indexed_append, hone.indexed, hg.indexed]
    rfl
  · rw [happend, updated_append, hone.updated, hg.updated]
    rfl
  · rw [happend, answers_append, hone.answers, hg.answers]
    rfl
  · rw [happend, failed_append, hone.failed, hg.failed]
    rfl
  · rw [happend, asked_append, hone.asked, hg.asked]

lemma quiet_of_forall (h : ∀ e ∈ g, isBatch e.1 = false) : Quiet g := by
  induction g with
  | nil => exact quiet_nil
  | cons e g ih =>
    rw [List.forall_mem_cons] at h
    exact quiet_cons h.1 (ih h.2)

/-! ### One batch -/

variable {h : GitHandler} {r : Remote} {c : Checkout} {errors errors' : List String}

/-- The log of something that passes these batches on, and records the failures. -/
structure Sends (g : Log) (creates : List (List Document)) (updates : List (List StoredDocument))
    (errors errors' : List String) : Prop where
  indexed : indexed g = creates
  updated : updated g = updates
  asked : asked g = []
  errors : errors' = errors ++ failed g

lemma sends_indexDocumentsBatch {docs : List Document}
    (hg : Logs (indexDocumentsBatch h docs errors) g errors') : Sends g [docs] [] errors errors' := by
  obtain ⟨a, g', rfl, hg'⟩ := hg
  cases a with
  | ok u =>
    obtain ⟨rfl, rfl⟩ := hg'
    exact ⟨rfl, rfl, rfl, (List.append_nil _).symm⟩
  | error e =>
    obtain ⟨rfl, rfl⟩ := hg'
    exact ⟨rfl, rfl, rfl, rfl⟩

lemma sends_updateDocumentsBatch {docs : List StoredDocument}
    (hg : Logs (updateDocumentsBatch h docs errors) g errors') : Sends g [] [docs] errors errors' := by
  obtain ⟨a, g', rfl, hg'⟩ := hg
  cases a with
  | ok u =>
    obtain ⟨rfl, rfl⟩ := hg'
    exact ⟨rfl, rfl, rfl, (List.append_nil _).symm⟩
  | error e =>
    obtain ⟨rfl, rfl⟩ := hg'
    exact ⟨rfl, rfl, rfl, rfl⟩

/-! ### The full run -/

/-- A document that `_create_document` makes of a file and its text. -/
def Made (h : GitHandler) (c : Checkout) (changeType : String) (file : String × String) (d : Document) : Prop :=
  ∃ g, Logs (createDocument h c file.1 file.2 changeType) g d

lemma quiet_createDocument {path content changeType : String} {d : Document}
    (hg : Logs (createDocument h c path content changeType) g d) : Quiet g := by
  have hobeys : Obeys (isBatch · = false) (fun _ => True) (createDocument h c path content changeType) :=
    ⟨rfl, fun _ => trivial⟩
  exact quiet_of_forall (hobeys.logs hg).1

/-- Each text becomes a document, which joins the queue; a full queue is sent off. -/
lemma logs_indexAllLoop {files : List String} {docs docs' : List Document}
    (hg : Logs (indexAllLoop h c files docs errors) g (docs', errors')) :
    ∃ new, List.Forall₂ (Made h c "full") (readings c files) new ∧
      (∀ xs sent, Filling 10 xs sent docs → Filling 10 (xs ++ new) (sent ++ indexed g) docs') ∧
      errors' = errors ++ failed g := by
  induction files generalizing docs errors g with
  | nil =>
    obtain ⟨rfl, heq⟩ := hg
    obtain ⟨rfl, rfl⟩ := Prod.mk.inj heq
    refine ⟨[], .nil, fun xs sent hfill => ?_, (List.append_nil _).symm⟩
    rw [List.append_nil, indexed, List.filterMap_nil, List.append_nil]
    exact hfill
  | cons path files ih =>
    unfold indexAllLoop at hg
    cases hread : readText c path with
    | none =>
      rw [hread] at hg
      have hreadings : readings c (path :: files) = readings c files := by
        rw [readings, List.filterMap_cons, hread]
        rfl
      rw [hreadings]
      exact ih hg
    | some content =>
      rw [hread] at hg
      have hreadings : readings c (path :: files) = (path, content) :: readings c files := by
        rw [readings, List.filterMap_cons, hread]
        rfl
      obtain ⟨g₁, g₂, doc, rfl, hmade, hg⟩ := logs_bind.mp hg
      have hquiet := quiet_createDocument hmade
      dsimp only at hg
      rw [hreadings]
      by_cases hfull : 10 ≤ (docs ++ [doc]).length
      · rw [if_pos hfull] at hg
        obtain ⟨g₂, g₃, errors₁, rfl, hbatch, hg⟩ := logs_bind.mp hg
        have hsends := sends_indexDocumentsBatch hbatch
        obtain ⟨new, hnew, hfill, herrors⟩ := ih hg
        refine ⟨doc :: new, .cons ⟨g₁, hmade⟩ hnew, fun xs sent hxs => ?_, ?_⟩
        · have hpush := hxs.push (List.length_singleton (a := doc)).le
          rw [flushed, if_pos hfull, kept, if_pos hfull] at hpush
          have hnext := hfill _ _ hpush
          rw [indexed_append, indexed_append, hquiet.indexed, hsends.indexed]
          simpa using hnext
        · rw [herrors, hsends.errors, failed_append, failed_append, hquiet.failed]
          simp
      · rw [if_neg hfull] at hg
        obtain ⟨new, hnew, hfill, herrors⟩ := ih hg
        refine ⟨doc :: new, .cons ⟨g₁, hmade⟩ hnew, fun xs sent hxs => ?_, ?_⟩
        · have hpush := hxs.push (List.length_singleton (a := doc)).le
          rw [flushed, if_neg hfull, kept, if_neg hfull] at hpush
          have hnext := hfill _ _ hpush
          rw [indexed_append, hquiet.indexed]
          simpa using hnext
        · rw [herrors, failed_append, hquiet.failed]
          rfl

lemma logs_indexAllFiles (hg : Logs (indexAllFiles h r c errors) g errors') :
    ∃ docs, List.Forall₂ (Made h c "full") (readings c (getRepositoryFiles h r c)) docs ∧
      Batched 10 docs (indexed g) ∧ errors' = errors ++ failed g := by
  obtain ⟨g₁, g₂, ⟨docs, errors₁⟩, rfl, hloop, hg⟩ := logs_bind.mp hg
  obtain ⟨new, hnew, hfill, herrors⟩ := logs_indexAllLoop hloop
  have hend := (hfill [] [] (filling_nil (by decide))).finish
  rw [List.nil_append, List.nil_append] at hend
  dsimp only at hg
  refine ⟨new, hnew, ?_⟩
  by_cases hdocs : docs = []
  · rw [if_neg (not_not.mpr hdocs)] at hg
    obtain ⟨rfl, rfl⟩ := hg
    rw [hdocs, flushed, if_neg (by decide)] at hend
    simpa using And.intro hend herrors
  · rw [if_pos hdocs] at hg
    have hsends := sends_indexDocumentsBatch hg
    have hpos : 1 ≤ docs.length := List.length_pos_iff.mpr hdocs
    rw [flushed, if_pos hpos] at hend
    rw [indexed_append, failed_append, hsends.indexed, hsends.errors, herrors, List.append_assoc]
    exact ⟨hend, rfl⟩

/-! ### One turn of the incremental run -/

def noPending : Pending := ⟨[], [], [], []⟩

/-- The queues with what a turn adds to them. -/
def add (q p : Pending) : Pending :=
  ⟨q.createDocs ++ p.createDocs, q.updateDocs ++ p.updateDocs, q.deleteDocIds ++ p.deleteDocIds,
    q.errors ++ p.errors⟩

lemma add_noPending (q : Pending) : add q noPending = q := by
  simp [add, noPending]

lemma lookup_eq (path purpose : String) (errors : List String) :
    lookup h path purpose errors = lookup h path purpose [] >>= fun x => pure (x.1, errors ++ x.2) := by
  unfold lookup
  simp only [ask_bind, Prog.ask_bind]
  congr 1
  funext a
  cases a with
  | ok found => simp
  | error e => simp

lemma queueReplacement_eq (q : Pending) (old path content purpose changeType : String) :
    queueReplacement h c q old path content purpose changeType =
      queueReplacement h c noPending old path content purpose changeType >>= fun p => pure (add q p) := by
  unfold queueReplacement
  rw [lookup_eq, Prog.bind_assoc, Prog.bind_assoc]
  congr 1
  funext ⟨found, es⟩
  cases found with
  | none => simp [Prog.bind_assoc, add, noPending]
  | some found => simp [Prog.bind_assoc, add, noPending]

/-- What a turn queues does not depend on what was queued before. -/
lemma queueItem_eq (q : Pending) (d : DiffItem) :
    queueItem h r c q d = queueItem h r c noPending d >>= fun x => pure (add q x.1, x.2) := by
  unfold queueItem
  extract_lets path
  by_cases hindex : shouldIndexFile h r path = true
  · rw [if_neg (not_not.mpr hindex), if_neg (not_not.mpr hindex)]
    cases d.changeType with
    | added =>
      dsimp only
      cases readText c path with
      | none => simp [add_noPending]
      | some content => simp [Prog.bind_assoc, add, noPending]
    | modified =>
      dsimp only
      cases readText c path with
      | none => simp [add_noPending]
      | some content => simp [queueReplacement_eq q, Prog.bind_assoc]
    | deleted =>
      dsimp only
      rw [lookup_eq, Prog.bind_assoc, Prog.bind_assoc]
      congr 1
      funext ⟨found, es⟩
      cases found with
      | none => simp [add, noPending]
      | some found => simp [add, noPending]
    | renamed =>
      dsimp only
      cases readText c path with
      | none => simp [add_noPending]
      | some content =>
        dsimp only
        cases d.aPath.filter (· ≠ "") with
        | none => simp [add_noPending]
        | some old => simp [queueReplacement_eq q, Prog.bind_assoc]
    | typeChanged => simp [add_noPending]
    | copied => simp [add_noPending]
  · rw [if_pos hindex, if_pos hindex]
    simp [add_noPending]

/-- At most one element for each queue, and none where the turn ends early. -/
structure Small (p : Pending) (reached : Bool) : Prop where
  creates : p.createDocs.length ≤ 1
  updates : p.updateDocs.length ≤ 1
  deletes : p.deleteDocIds.length ≤ 1
  early : reached = false → p.createDocs = [] ∧ p.updateDocs = [] ∧ p.deleteDocIds = []

lemma small_of_nil {p : Pending} {reached : Bool} (hc : p.createDocs = []) (hu : p.updateDocs = [])
    (hd : p.deleteDocIds = []) : Small p reached :=
  ⟨by rw [hc]; exact Nat.zero_le 1, by rw [hu]; exact Nat.zero_le 1, by rw [hd]; exact Nat.zero_le 1,
    fun _ => ⟨hc, hu, hd⟩⟩

lemma small_of_reached {p : Pending} (hc : p.createDocs.length ≤ 1) (hu : p.updateDocs.length ≤ 1)
    (hd : p.deleteDocIds.length ≤ 1) : Small p true :=
  ⟨hc, hu, hd, fun h => by cases h⟩

lemma obeys_createDocument (path content changeType : String) :
    Obeys (isBatch · = false) (fun _ => True) (createDocument h c path content changeType) :=
  ⟨rfl, fun _ => trivial⟩

lemma obeys_lookup (path purpose : String) (errors : List String) :
    Obeys (isBatch · = false) (fun _ => True) (lookup h path purpose errors) :=
  ⟨rfl, fun a => by cases a <;> trivial⟩

lemma obeys_queueReplacement (old path content purpose changeType : String) :
    Obeys (isBatch · = false) (fun p => Small p true)
      (queueReplacement h c noPending old path content purpose changeType) := by
  refine (obeys_lookup _ _ _).bind fun ⟨found, es⟩ _ => ?_
  cases found with
  | none =>
    exact (obeys_createDocument _ _ _).bind fun d _ =>
      small_of_reached le_rfl (Nat.zero_le 1) (Nat.zero_le 1)
  | some found =>
    exact (obeys_createDocument _ _ _).bind fun d _ =>
      small_of_reached (Nat.zero_le 1) le_rfl (Nat.zero_le 1)

lemma obeys_queueItem (d : DiffItem) :
    Obeys (isBatch · = false) (fun x => Small x.1 x.2) (queueItem h r c noPending d) := by
  have hnone : ∀ reached, Small noPending reached := fun _ => small_of_nil rfl rfl rfl
  unfold queueItem
  extract_lets path
  by_cases hindex : shouldIndexFile h r path = true
  · rw [if_neg (not_not.mpr hindex)]
    cases d.changeType with
    | added =>
      dsimp only
      cases readText c path with
      | none => exact hnone true
      | some content =>
        exact (obeys_createDocument _ _ _).bind fun d _ =>
          small_of_reached le_rfl (Nat.zero_le 1) (Nat.zero_le 1)
    | modified =>
      dsimp only
      cases readText c path with
      | none => exact hnone false
      | some content => exact (obeys_queueReplacement _ _ _ _ _).bind fun p hp => hp
    | deleted =>
      refine (obeys_lookup _ _ _).bind fun ⟨found, es⟩ _ => ?_
      cases found with
      | none => exact small_of_nil rfl rfl rfl
      | some found => exact small_of_reached (Nat.zero_le 1) (Nat.zero_le 1) le_rfl
    | renamed =>
      dsimp only
      cases readText c path with
      | none => exact hnone false
      | some content =>
        dsimp only
        cases d.aPath.filter (· ≠ "") with
        | none => exact hnone true
        | some old => exact (obeys_queueReplacement _ _ _ _ _).bind fun p hp => hp
    | typeChanged => exact hnone true
    | copied => exact hnone true
  · rw [if_pos hindex]
    exact hnone false

/-! ### The batches to delete -/

/-- `flush`, with the batches passed to `_delete_documents_batch`, which sends no request. -/
def flushRecorded (h : GitHandler) (n : ℕ) (q : Pending) : Py (Pending × List (List ℕ)) := do
  let q ← flushCreates h n q
  let q ← flushUpdates h n q
  pure (flushDeletes n q, flushed n q.deleteDocIds)

/-- A turn of `indexDiffLoop`. -/
def turnRecorded (h : GitHandler) (r : Remote) (c : Checkout) (q : Pending) (d : DiffItem) :
    Py (Pending × List (List ℕ)) := do
  let (q, reached) ← queueItem h r c q d
  if reached then flushRecorded h 10 q else pure (q, [])

def indexDiffLoopRecorded (h : GitHandler) (r : Remote) (c : Checkout) :
    List DiffItem → Pending → Py (Pending × List (List ℕ))
  | [], q => pure (q, [])
  | d :: items, q => do
    let (q, deleted) ← turnRecorded h r c q d
    let (q, rest) ← indexDiffLoopRecorded h r c items q
    pure (q, deleted ++ rest)

/-- `indexDiffFiles` where the diff is known, with the batches passed to `_delete_documents_batch`. -/
def indexItemsRecorded (h : GitHandler) (r : Remote) (c : Checkout) (items : List DiffItem)
    (errors : List String) : Py (List String × List (List ℕ)) := do
  let (q, deleted) ← indexDiffLoopRecorded h r c items ⟨[], [], [], errors⟩
  let (q, rest) ← flushRecorded h 1 q
  pure (q.errors, deleted ++ rest)

lemma flush_eq (n : ℕ) (q : Pending) : flush h n q = flushRecorded h n q >>= fun x => pure x.1 := by
  simp only [flush, flushRecorded, Prog.bind_assoc, Prog.pure_eq, Prog.ret_bind]

lemma indexDiffLoop_eq (items : List DiffItem) (q : Pending) :
    indexDiffLoop h r c items q = indexDiffLoopRecorded h r c items q >>= fun x => pure x.1 := by
  induction items generalizing q with
  | nil => rfl
  | cons d items ih =>
    rw [indexDiffLoop, indexDiffLoopRecorded, turnRecorded, Prog.bind_assoc, Prog.bind_assoc]
    congr 1
    funext ⟨q, reached⟩
    cases reached with
    | true => simp [flushFull, flush_eq, Prog.bind_assoc, ih]
    | false => simp [Prog.bind_assoc, ih]

/-- The record changes nothing: without it, this is the run. -/
lemma indexDiffFiles_eq {items : List DiffItem} (hdiff : c.diff h.lastIndexedCommit = .ok items) :
    indexDiffFiles h r c errors = indexItemsRecorded h r c items errors >>= fun x => pure (.ok x.1) := by
  rw [indexDiffFiles, hdiff, indexItemsRecorded]
  simp only [indexDiffLoop_eq, flushRest, flush_eq, Prog.bind_assoc, Prog.pure_eq, Prog.ret_bind]

/-! ### The incremental run -/

variable {q q' q₁ : Pending} {n : ℕ} {deleted deleted' : List (List ℕ)}

lemma deleteDocumentsBatch_eq (docIds : List ℕ) (errors : List String) :
    deleteDocumentsBatch docIds errors = errors ++ deleteDocumentsBatch docIds [] := by
  cases docIds with
  | nil => exact (List.append_nil _).symm
  | cons id docIds => rfl

/-- The queues that hold at least `n` are sent off, each failure is recorded. -/
structure Flushes (n : ℕ) (q : Pending) (g : Log) (q' : Pending) (deleted : List (List ℕ)) : Prop where
  indexed : indexed g = flushed n q.createDocs
  updated : updated g = flushed n q.updateDocs
  sent : deleted = flushed n q.deleteDocIds
  asked : asked g = []
  creates : q'.createDocs = kept n q.createDocs
  updates : q'.updateDocs = kept n q.updateDocs
  deletes : q'.deleteDocIds = kept n q.deleteDocIds
  errors : q'.errors = q.errors ++ failed g ++ deleted.flatMap (deleteDocumentsBatch · [])

lemma logs_flushCreates (hg : Logs (flushCreates h n q) g q') :
    Sends g (flushed n q.createDocs) [] q.errors q'.errors ∧ q'.createDocs = kept n q.createDocs ∧
      q'.updateDocs = q.updateDocs ∧ q'.deleteDocIds = q.deleteDocIds := by
  unfold flushCreates at hg
  unfold flushed kept
  by_cases hfull : n ≤ q.createDocs.length
  · rw [if_pos hfull] at hg
    rw [if_pos hfull, if_pos hfull]
    obtain ⟨g₁, g₂, errors, rfl, hbatch, rfl, rfl⟩ := logs_bind.mp hg
    rw [List.append_nil]
    exact ⟨sends_indexDocumentsBatch hbatch, rfl, rfl, rfl⟩
  · rw [if_neg hfull] at hg
    rw [if_neg hfull, if_neg hfull]
    obtain ⟨rfl, rfl⟩ := hg
    exact ⟨⟨rfl, rfl, rfl, (List.append_nil _).symm⟩, rfl, rfl, rfl⟩

lemma logs_flushUpdates (hg : Logs (flushUpdates h n q) g q') :
    Sends g [] (flushed n q.updateDocs) q.errors q'.errors ∧ q'.createDocs = q.createDocs ∧
      q'.updateDocs = kept n q.updateDocs ∧ q'.deleteDocIds = q.deleteDocIds := by
  unfold flushUpdates at hg
  unfold flushed kept
  by_cases hfull : n ≤ q.updateDocs.length
  · rw [if_pos hfull] at hg
    rw [if_pos hfull, if_pos hfull]
    obtain ⟨g₁, g₂, errors, rfl, hbatch, rfl, rfl⟩ := logs_bind.mp hg
    rw [List.append_nil]
    exact ⟨sends_updateDocumentsBatch hbatch, rfl, rfl, rfl⟩
  · rw [if_neg hfull] at hg
    rw [if_neg hfull, if_neg hfull]
    obtain ⟨rfl, rfl⟩ := hg
    exact ⟨⟨rfl, rfl, rfl, (List.append_nil _).symm⟩, rfl, rfl, rfl⟩

lemma logs_flushRecorded (hg : Logs (flushRecorded h n q) g (q', deleted)) : Flushes n q g q' deleted := by
  obtain ⟨g₁, g₂, q₁, rfl, hcreates, hg⟩ := logs_bind.mp hg
  obtain ⟨g₂, g₃, q₂, rfl, hupdates, rfl, heq⟩ := logs_bind.mp hg
  obtain ⟨rfl, rfl⟩ := Prod.mk.inj heq
  obtain ⟨hsends₁, hc₁, hu₁, hd₁⟩ := logs_flushCreates hcreates
  obtain ⟨hsends₂, hc₂, hu₂, hd₂⟩ := logs_flushUpdates hupdates
  rw [List.append_nil]
  have hqueues : (flushDeletes n q₂).createDocs = q₂.createDocs ∧ (flushDeletes n q₂).updateDocs = q₂.updateDocs ∧
      (flushDeletes n q₂).deleteDocIds = kept n q₂.deleteDocIds ∧
      (flushDeletes n q₂).errors = q₂.errors ++ (flushed n q₂.deleteDocIds).flatMap (deleteDocumentsBatch · []) := by
    unfold flushDeletes flushed kept
    by_cases hfull : n ≤ q₂.deleteDocIds.length
    · rw [if_pos hfull, if_pos hfull, if_pos hfull, List.flatMap_singleton]
      exact ⟨rfl, rfl, rfl, deleteDocumentsBatch_eq _ _⟩
    · rw [if_neg hfull, if_neg hfull, if_neg hfull]
      exact ⟨rfl, rfl, rfl, (List.append_nil _).symm⟩
  obtain ⟨hc₃, hu₃, hd₃, he₃⟩ := hqueues
  constructor
  · rw [indexed_append, hsends₁.indexed, hsends₂.indexed, List.append_nil]
  · rw [updated_append, hsends₁.updated, hsends₂.updated, List.nil_append, hu₁]
  · rw [hd₂, hd₁]
  · rw [asked_append, hsends₁.asked, hsends₂.asked, List.append_nil]
  · rw [hc₃, hc₂, hc₁]
  · rw [hu₃, hu₂, hu₁]
  · rw [hd₃, hd₂, hd₁]
  · rw [he₃, hsends₂.errors, hsends₁.errors, failed_append, List.append_assoc q.errors]

/-- A turn on empty queues: its calls, what it queues, and whether it gets to the size checks. -/
structure Turn where
  log : Log
  queued : Pending
  reached : Bool

/-- The turn is one for this item of the diff. -/
def Turn.Handles (h : GitHandler) (r : Remote) (c : Checkout) (d : DiffItem) (t : Turn) : Prop :=
  Logs (queueItem h r c noPending d) t.log (t.queued, t.reached)

lemma logs_queueItem {d : DiffItem} {reached : Bool} (hg : Logs (queueItem h r c q d) g (q', reached)) :
    ∃ p, Turn.Handles h r c d ⟨g, p, reached⟩ ∧ q' = add q p ∧ Quiet g ∧ Small p reached := by
  rw [queueItem_eq] at hg
  obtain ⟨g₁, g₂, ⟨p, b⟩, rfl, hitem, rfl, heq⟩ := logs_bind.mp hg
  obtain ⟨rfl, rfl⟩ := Prod.mk.inj heq
  rw [List.append_nil]
  obtain ⟨hcalls, hsmall⟩ := (obeys_queueItem d).logs hitem
  exact ⟨p, hitem, rfl, quiet_of_forall hcalls, hsmall⟩

variable {turns turns' : List Turn}

/-- The three lists stand in `new`, each in its order. -/
structure InOrder (own lost refused new : List String) : Prop where
  own : own.Sublist new
  lost : lost.Sublist new
  refused : refused.Sublist new

lemma InOrder.append {own lost refused new own' lost' refused' new' : List String}
    (h : InOrder own lost refused new) (h' : InOrder own' lost' refused' new') :
    InOrder (own ++ own') (lost ++ lost') (refused ++ refused') (new ++ new') :=
  ⟨h.own.append h'.own, h.lost.append h'.lost, h.refused.append h'.refused⟩

lemma inOrder_append (own lost refused : List String) :
    InOrder own lost refused (own ++ lost ++ refused) where
  own := (List.sublist_append_left own lost).trans (List.sublist_append_left _ _)
  lost := (List.sublist_append_right own lost).trans (List.sublist_append_left _ _)
  refused := List.sublist_append_right _ _

/-- From the queues `q` to the queues `q'`: what the turns queue waits behind what has waited, or is sent
off in full batches, and what fails is recorded. -/
structure Follows (turns : List Turn) (q : Pending) (g : Log) (q' : Pending) (deleted : List (List ℕ)) :
    Prop where
  asked : asked g = turns.flatMap Turn.log
  creates : ∀ xs sent, Filling 10 xs sent q.createDocs →
    Filling 10 (xs ++ turns.flatMap (·.queued.createDocs)) (sent ++ indexed g) q'.createDocs
  updates : ∀ xs sent, Filling 10 xs sent q.updateDocs →
    Filling 10 (xs ++ turns.flatMap (·.queued.updateDocs)) (sent ++ updated g) q'.updateDocs
  deletes : ∀ xs sent, Filling 10 xs sent q.deleteDocIds →
    Filling 10 (xs ++ turns.flatMap (·.queued.deleteDocIds)) (sent ++ deleted) q'.deleteDocIds
  errors : q'.errors.Perm (q.errors ++ turns.flatMap (·.queued.errors) ++ failed g ++
    deleted.flatMap (deleteDocumentsBatch · []))
  order : ∃ new, q'.errors = q.errors ++ new ∧ InOrder (turns.flatMap (·.queued.errors)) (failed g)
    (deleted.flatMap (deleteDocumentsBatch · [])) new

lemma follows_nil (q : Pending) : Follows [] q [] q [] := by
  constructor
  · rfl
  · intro xs sent hfill
    simpa [indexed] using hfill
  · intro xs sent hfill
    simpa [updated] using hfill
  · intro xs sent hfill
    simpa using hfill
  · simp [failed]
  · exact ⟨[], (List.append_nil _).symm, inOrder_append [] [] []⟩

lemma Follows.append (h₁ : Follows turns q g q₁ deleted) (h₂ : Follows turns' q₁ g' q' deleted') :
    Follows (turns ++ turns') q (g ++ g') q' (deleted ++ deleted') := by
  constructor
  · rw [asked_append, h₁.asked, h₂.asked, List.flatMap_append]
  · intro xs sent hfill
    rw [List.flatMap_append, indexed_append, ← List.append_assoc, ← List.append_assoc]
    exact h₂.creates _ _ (h₁.creates _ _ hfill)
  · intro xs sent hfill
    rw [List.flatMap_append, updated_append, ← List.append_assoc, ← List.append_assoc]
    exact h₂.updates _ _ (h₁.updates _ _ hfill)
  · intro xs sent hfill
    rw [List.flatMap_append, ← List.append_assoc, ← List.append_assoc]
    exact h₂.deletes _ _ (h₁.deletes _ _ hfill)
  · have herrors₁ := Multiset.coe_eq_coe.mpr h₁.errors
    have herrors₂ := Multiset.coe_eq_coe.mpr h₂.errors
    rw [← Multiset.coe_eq_coe]
    simp only [List.flatMap_append, failed_append, ← Multiset.coe_add] at herrors₁ herrors₂ ⊢
    rw [herrors₂, herrors₁]
    abel
  · obtain ⟨new₁, hnew₁, horder₁⟩ := h₁.order
    obtain ⟨new₂, hnew₂, horder₂⟩ := h₂.order
    refine ⟨new₁ ++ new₂, by rw [hnew₂, hnew₁, List.append_assoc], ?_⟩
    rw [List.flatMap_append, failed_append, List.flatMap_append]
    exact horder₁.append horder₂

lemma logs_turnRecorded {d : DiffItem} (hg : Logs (turnRecorded h r c q d) g (q', deleted)) :
    ∃ t, Turn.Handles h r c d t ∧ Follows [t] q g q' deleted := by
  obtain ⟨g₁, g₂, ⟨q₁, reached⟩, rfl, hitem, hg⟩ := logs_bind.mp hg
  obtain ⟨p, hturn, rfl, hquiet, hsmall⟩ := logs_queueItem hitem
  refine ⟨⟨g₁, p, reached⟩, hturn, ?_⟩
  cases reached with
  | true =>
    have hflush := logs_flushRecorded hg
    constructor
    · rw [asked_append, hquiet.asked, hflush.asked, List.append_nil, List.flatMap_singleton]
    · intro xs sent hfill
      rw [indexed_append, hquiet.indexed, hflush.indexed, hflush.creates, List.flatMap_singleton]
      exact hfill.push hsmall.creates
    · intro xs sent hfill
      rw [updated_append, hquiet.updated, hflush.updated, hflush.updates, List.flatMap_singleton]
      exact hfill.push hsmall.updates
    · intro xs sent hfill
      rw [hflush.sent, hflush.deletes, List.flatMap_singleton]
      exact hfill.push hsmall.deletes
    · rw [hflush.errors, failed_append, hquiet.failed, List.flatMap_singleton]
      exact List.Perm.refl _
    · refine ⟨_, ?_, inOrder_append _ _ _⟩
      rw [hflush.errors, failed_append, hquiet.failed, List.flatMap_singleton]
      simp only [add, List.nil_append, List.append_assoc]
  | false =>
    obtain ⟨rfl, heq⟩ := hg
    obtain ⟨rfl, rfl⟩ := Prod.mk.inj heq
    obtain ⟨hc, hu, hd⟩ := hsmall.early rfl
    rw [List.append_nil]
    constructor
    · rw [hquiet.asked, List.flatMap_singleton]
    · intro xs sent hfill
      rw [hquiet.indexed, List.flatMap_singleton, add, hc, List.append_nil, List.append_nil, List.append_nil]
      exact hfill
    · intro xs sent hfill
      rw [hquiet.updated, List.flatMap_singleton, add, hu, List.append_nil, List.append_nil, List.append_nil]
      exact hfill
    · intro xs sent hfill
      rw [List.flatMap_singleton, add, hd, List.append_nil, List.append_nil, List.append_nil]
      exact hfill
    · rw [hquiet.failed, List.flatMap_singleton, List.flatMap_nil, List.append_nil, List.append_nil]
      exact List.Perm.refl _
    · refine ⟨_, ?_, inOrder_append _ _ _⟩
      rw [hquiet.failed, List.flatMap_singleton, List.flatMap_nil, List.append_nil, List.append_nil, add]

lemma logs_indexDiffLoopRecorded {items : List DiffItem}
    (hg : Logs (indexDiffLoopRecorded h r c items q) g (q', deleted)) :
    ∃ turns, List.Forall₂ (Turn.Handles h r c) items turns ∧ Follows turns q g q' deleted := by
  induction items generalizing q g deleted with
  | nil =>
    obtain ⟨rfl, heq⟩ := hg
    obtain ⟨rfl, rfl⟩ := Prod.mk.inj heq
    exact ⟨[], .nil, follows_nil q'⟩
  | cons d items ih =>
    obtain ⟨g₁, g₂, ⟨q₁, deleted₁⟩, rfl, hturn, hg⟩ := logs_bind.mp hg
    obtain ⟨g₂, g₃, ⟨q₂, deleted₂⟩, rfl, hloop, rfl, heq⟩ := logs_bind.mp hg
    obtain ⟨rfl, rfl⟩ := Prod.mk.inj heq
    obtain ⟨t, ht, hfollows⟩ := logs_turnRecorded hturn
    obtain ⟨turns, hturns, hrest⟩ := ih hloop
    rw [List.append_nil]
    exact ⟨t :: turns, .cons ht hturns, hfollows.append hrest⟩

/-- The three queues of the run are sent off in batches, each failure is recorded. -/
structure SentOff (errors : List String) (turns : List Turn) (g : Log) (errors' : List String)
    (deleted : List (List ℕ)) : Prop where
  asked : asked g = turns.flatMap Turn.log
  creates : Batched 10 (turns.flatMap (·.queued.createDocs)) (indexed g)
  updates : Batched 10 (turns.flatMap (·.queued.updateDocs)) (updated g)
  deletes : Batched 10 (turns.flatMap (·.queued.deleteDocIds)) deleted
  order : ∃ new, errors' = errors ++ new ∧ InOrder (turns.flatMap (·.queued.errors)) (failed g)
    (deleted.flatMap (deleteDocumentsBatch · [])) new
  errors : errors'.Perm (errors ++ turns.flatMap (·.queued.errors) ++ failed g ++
    deleted.flatMap (deleteDocumentsBatch · []))

lemma logs_indexItemsRecorded {items : List DiffItem}
    (hg : Logs (indexItemsRecorded h r c items errors) g (errors', deleted)) :
    ∃ turns, List.Forall₂ (Turn.Handles h r c) items turns ∧ SentOff errors turns g errors' deleted := by
  obtain ⟨g₁, g₂, ⟨q₁, deleted₁⟩, rfl, hloop, hg⟩ := logs_bind.mp hg
  obtain ⟨g₂, g₃, ⟨q₂, deleted₂⟩, rfl, hrest, rfl, heq⟩ := logs_bind.mp hg
  obtain ⟨rfl, rfl⟩ := Prod.mk.inj heq
  obtain ⟨turns, hturns, hfollows⟩ := logs_indexDiffLoopRecorded hloop
  have hflush := logs_flushRecorded hrest
  have hfilling : ∀ {α : Type}, Filling 10 ([] : List α) [] [] := filling_nil (by decide)
  rw [List.append_nil]
  refine ⟨turns, hturns, ?_⟩
  constructor
  · rw [asked_append, hfollows.asked, hflush.asked, List.append_nil]
  · rw [indexed_append, hflush.indexed]
    exact (hfollows.creates [] [] hfilling).finish
  · rw [updated_append, hflush.updated]
    exact (hfollows.updates [] [] hfilling).finish
  · rw [hflush.sent]
    exact (hfollows.deletes [] [] hfilling).finish
  · obtain ⟨new, hnew, horder⟩ := hfollows.order
    have hrest : InOrder [] (failed g₂) (deleted₂.flatMap (deleteDocumentsBatch · []))
        (failed g₂ ++ deleted₂.flatMap (deleteDocumentsBatch · [])) := inOrder_append [] _ _
    refine ⟨new ++ (failed g₂ ++ deleted₂.flatMap (deleteDocumentsBatch · [])), ?_, ?_⟩
    · rw [hflush.errors, hnew]
      simp only [List.append_assoc]
    · rw [failed_append, List.flatMap_append, ← List.append_nil (turns.flatMap (·.queued.errors))]
      exact horder.append hrest
  · have herrors := Multiset.coe_eq_coe.mpr hfollows.errors
    rw [hflush.errors, ← Multiset.coe_eq_coe]
    simp only [List.flatMap_append, failed_append, ← Multiset.coe_add] at herrors ⊢
    rw [herrors]
    abel

/-! ### The rows of a database -/

variable {k : KustoHandler}

/-- What the Kusto handler records of them, counted from `number`. -/
def numbered (number : ℕ) (results : List (Except String Unit)) : List String :=
  (results.zipIdx number).filterMap fun
    | (.ok _, _) => none
    | (.error e, i) => some ("Failed to index batch " ++ toString i ++ ": " ++ e)

lemma logs_indexBatches {fuel number : ℕ} {docs : List Document} (hfuel : docs.length ≤ fuel)
    (hg : Logs (k.indexBatches fuel number docs errors) g errors') :
    Batched batchSize docs (indexed g) ∧ errors' = errors ++ numbered number (answers g) := by
  induction fuel generalizing number docs errors g with
  | zero =>
    obtain rfl := List.length_eq_zero_iff.mp (Nat.le_zero.mp hfuel)
    obtain ⟨rfl, rfl⟩ := hg
    exact ⟨batched_nil, (List.append_nil _).symm⟩
  | succ fuel ih =>
    unfold KustoHandler.indexBatches at hg
    by_cases hdocs : docs = []
    · rw [if_pos hdocs] at hg
      obtain ⟨rfl, rfl⟩ := hg
      rw [hdocs]
      exact ⟨batched_nil, (List.append_nil _).symm⟩
    · rw [if_neg hdocs] at hg
      obtain ⟨a, g', rfl, hg⟩ := hg
      have hrest : (docs.drop batchSize).length ≤ fuel := by
        have hpos := List.length_pos_iff.mpr hdocs
        have hsize : 0 < batchSize := by decide
        rw [List.length_drop]
        omega
      cases a with
      | ok u =>
        obtain ⟨hbatched, herrors⟩ := ih hrest hg
        exact ⟨hbatched.cut (by decide) hdocs, herrors⟩
      | error e =>
        obtain ⟨hbatched, herrors⟩ := ih hrest hg
        refine ⟨hbatched.cut (by decide) hdocs, ?_⟩
        rw [herrors, List.append_assoc]
        rfl

/-- Neither a batch nor a query. -/
def IsOther (call : JobCall) : Prop := isBatch call = false ∧ ∀ query, call ≠ .kusto query

lemma obeys_buildQuery : Obeys IsOther (fun _ => True) k.buildQuery := by
  have hcall : IsOther .getAutoIndexer := ⟨rfl, fun query h => by cases h⟩
  refine Obeys.bind (P := fun _ => True) ⟨hcall, fun a => ?_⟩ fun _ _ => trivial
  cases a with
  | ok o => trivial
  | error e => cases e <;> trivial

/-- A document for each record with a text. -/
lemma obeys_formatDocuments (records : List Record) :
    Obeys IsOther (fun docs => docs.map Document.text = records.filterMap recordText)
      (k.formatDocuments records) := by
  have hcall : IsOther .now := ⟨rfl, fun query h => by cases h⟩
  induction records with
  | nil => rfl
  | cons record records ih =>
    unfold KustoHandler.formatDocuments
    cases htext : recordText record with
    | none =>
      rw [List.filterMap_cons, htext]
      exact ih
    | some text =>
      refine ⟨hcall, fun t => ih.bind fun docs hdocs => ?_⟩
      rw [Prog.pure_eq, obeys_ret, List.map_cons, List.filterMap_cons, htext, hdocs]

lemma obeys_indexBatches (fuel number : ℕ) (docs : List Document) (errors : List String) :
    Obeys (isBatch · = true) (fun _ => True) (k.indexBatches fuel number docs errors) := by
  induction fuel generalizing number docs errors with
  | zero => trivial
  | succ fuel ih =>
    unfold KustoHandler.indexBatches
    by_cases hdocs : docs = []
    · rw [if_pos hdocs]
      trivial
    · rw [if_neg hdocs]
      refine ⟨rfl, fun a => ?_⟩
      cases a with
      | ok u => exact ih _ _ _
      | error e => exact ih _ _ _

lemma not_mem_of_isOther {query : Query} {a : JobAnswer (.kusto query)} (hg : ∀ e ∈ g, IsOther e.1) :
    ⟨.kusto query, a⟩ ∉ g := fun hin => (hg _ hin).2 query rfl

lemma logs_indexRecords {query : Query} {records : List Record} {returned own : List String}
    (hg : Logs k.indexRecords g (returned, own)) (hanswer : ⟨.kusto query, .ok records⟩ ∈ g) :
    ∃ g' docs, Logs (k.formatDocuments records) g' docs ∧
      docs.map Document.text = records.filterMap recordText ∧ Batched batchSize docs (indexed g) ∧
      returned = numbered 1 (answers g) ∧ own = numbered 1 (answers g) := by
  obtain ⟨g₁, g₂, built, rfl, hbuild, hquery⟩ := logs_bind.mp hg
  have hother₁ := (obeys_buildQuery.logs hbuild).1
  replace hanswer := (List.mem_append.mp hanswer).resolve_left (not_mem_of_isOther hother₁)
  cases built with
  | error e =>
    obtain ⟨rfl, _⟩ := hquery
    cases hanswer
  | ok query' =>
    obtain ⟨a, g₃, rfl, hrecords⟩ := hquery
    cases a with
    | error e =>
      obtain ⟨rfl, _⟩ := hrecords
      cases hanswer with
      | tail _ hin => cases hin
    | ok records' =>
      replace hrecords : Logs (k.formatDocuments records' >>= fun docs =>
          k.indexBatches docs.length 1 docs [] >>= fun errors => pure (errors, errors)) g₃ (returned, own) :=
        hrecords
      obtain ⟨g₃, g₄, docs, rfl, hformat, hindex⟩ := logs_bind.mp hrecords
      obtain ⟨g₄, g₅, failures, rfl, hbatches, rfl, heq⟩ := logs_bind.mp hindex
      obtain ⟨rfl, rfl⟩ := Prod.mk.inj heq
      obtain ⟨hother₃, htexts⟩ := (obeys_formatDocuments records').logs hformat
      have hbatch := ((obeys_indexBatches _ _ _ _).logs hbatches).1
      obtain ⟨hbatched, hnumbered⟩ := logs_indexBatches le_rfl hbatches
      -- the answer is that of the only query
      have hsame : records = records' := by
        rcases List.mem_cons.mp hanswer with hhead | htail
        · cases hhead
          rfl
        · rw [List.append_nil] at htail
          rcases List.mem_append.mp htail with hin | hin
          · exact absurd hin (not_mem_of_isOther hother₃)
          · cases hbatch _ hin
      have hquiet : Quiet (g₁ ++ ⟨.kusto query', .ok records'⟩ :: g₃) := quiet_of_forall fun e he => by
        rcases List.mem_append.mp he with hin | hin
        · exact (hother₁ e hin).1
        · rcases List.mem_cons.mp hin with rfl | hin
          · rfl
          · exact (hother₃ e hin).1
      have hlog : g₁ ++ ⟨.kusto query', .ok records'⟩ :: (g₃ ++ (g₄ ++ [])) =
          (g₁ ++ ⟨.kusto query', .ok records'⟩ :: g₃) ++ g₄ := by simp
      rw [hlog, indexed_append, answers_append, hquiet.indexed, hquiet.answers, hsame]
      exact ⟨g₃, docs, hformat, htexts, hbatched, hnumbered, hnumbered⟩

/-! ### Every run -/

/-- **Batching neither loses nor doubles nor reorders documents**, however the engine answers: in a full
run over a repository, for the three queues of an incremental run, and for the rows of a database. A
batch that fails leaves one error, and the run goes on. -/
theorem batches_exact :
    (∀ (h : GitHandler) (r : Remote) (c : Checkout) (errors errors' : List String) (g : Log),
      Logs (indexAllFiles h r c errors) g errors' →
        ∃ docs, List.Forall₂ (Made h c "full") (readings c (getRepositoryFiles h r c)) docs ∧
          Batched 10 docs (indexed g) ∧ errors' = errors ++ failed g) ∧
    (∀ (h : GitHandler) (r : Remote) (c : Checkout) (items : List DiffItem) (errors errors' : List String)
      (g : Log), c.diff h.lastIndexedCommit = .ok items → Logs (indexDiffFiles h r c errors) g (.ok errors') →
        ∃ turns deleted, Logs (indexItemsRecorded h r c items errors) g (errors', deleted) ∧
          List.Forall₂ (Turn.Handles h r c) items turns ∧ SentOff errors turns g errors' deleted) ∧
    (∀ (k : KustoHandler) (query : Query) (records : List Record) (returned own : List String) (g : Log),
      Logs k.indexRecords g (returned, own) → ⟨.kusto query, .ok records⟩ ∈ g →
        ∃ g' docs, Logs (k.formatDocuments records) g' docs ∧
          docs.map Document.text = records.filterMap recordText ∧ Batched 50 docs (indexed g) ∧
          returned = numbered 1 (answers g) ∧ own = numbered 1 (answers g)) := by
  refine ⟨fun h r c errors errors' g => logs_indexAllFiles, ?_, fun k query records returned own g =>
    logs_indexRecords⟩
  intro h r c items errors errors' g hdiff hg
  rw [indexDiffFiles_eq hdiff] at hg
  obtain ⟨g₁, g₂, ⟨failures, deleted⟩, rfl, hrun, rfl, heq⟩ := logs_bind.mp hg
  obtain rfl := Except.ok.inj heq
  obtain ⟨turns, hturns, hsent⟩ := logs_indexItemsRecorded hrun
  rw [List.append_nil]
  exact ⟨turns, deleted, hrun, hturns, hsent⟩

/-- The engine takes no new documents. -/
def refusing : (call : JobCall) → JobAnswer call
  | .rag _ (.indexDocuments _) => .error "unavailable"
  | call => (indexServe [] call).1

/-- `a.md` is new. -/
def addedItem : DiffItem := ⟨.added, none, some "a.md"⟩

lemma logs_refused_full (r : Remote) (c : Checkout) :
    ∃ errors g, Logs (indexAllFiles demoHandler r c []) g errors :=
  ⟨_, _, logs_logOf refusing _⟩

/-- A full run and an incremental run of the demo repository, the one batch of which fails. -/
theorem batches_exact_demo :
    (∃ (errors : List String) (g : Log), Logs (indexAllFiles demoHandler (demoRemote []) (demoCheckout []) []) g errors ∧
      ∃ docs, List.Forall₂ (Made demoHandler (demoCheckout []) "full")
          (readings (demoCheckout []) (getRepositoryFiles demoHandler (demoRemote []) (demoCheckout []))) docs ∧
        Batched 10 docs (indexed g) ∧ errors = [] ++ failed g) ∧
    ∃ g : Log, Logs (indexDiffFiles demoHandler (demoRemote [addedItem]) (demoCheckout [addedItem]) []) g
        (.ok ["Failed to index document batch: unavailable"]) ∧
      failed g = ["Failed to index document batch: unavailable"] ∧
      ∃ turns deleted, List.Forall₂ (Turn.Handles demoHandler (demoRemote [addedItem]) (demoCheckout [addedItem]))
          [addedItem] turns ∧
        SentOff [] turns g ["Failed to index document batch: unavailable"] deleted := by
  constructor
  · obtain ⟨errors, g, hg⟩ := logs_refused_full (demoRemote []) (demoCheckout [])
    exact ⟨errors, g, hg, batches_exact.1 demoHandler (demoRemote []) (demoCheckout []) [] errors g hg⟩
  · have hg := logs_logOf refusing
      (indexDiffFiles demoHandler (demoRemote [addedItem]) (demoCheckout [addedItem]) [])
    obtain ⟨turns, deleted, -, hturns, hsent⟩ := batches_exact.2.1 demoHandler (demoRemote [addedItem])
      (demoCheckout [addedItem]) [addedItem] [] ["Failed to index document batch: unavailable"] _ rfl hg
    exact ⟨_, hg, by decide, turns, deleted, hturns, hsent⟩

end KaitoAutoIndexer.BatchedIndexing
