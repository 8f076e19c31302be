import KaitoAutoIndexer.Git

/-!
The calls of the Git handler: it reads the clock, looks paths up, and sends documents that it has
made of the checkout.
-/

namespace KaitoAutoIndexer.GitCalls

open KaitoAutoIndexer.Lib KaitoAutoIndexer.Types
open KaitoAutoIndexer.Rag KaitoAutoIndexer.JobClient KaitoAutoIndexer.Git

/-- The calls in `φ` are enough for a handler whose documents, made of the checkout `c`, are all
in `D`. -/
structure Permits (φ : JobCall → Prop) (D : Document → Prop) (h : GitHandler) (c : Checkout) : Prop where
  now : φ .now
  looks : ∀ p, φ (.rag h.target (.listDocuments [("file_path", p)] 1))
  indexes : ∀ docs, (∀ d ∈ docs, D d) → φ (.rag h.target (.indexDocuments docs))
  updates : ∀ us : List StoredDocument, (∀ u ∈ us, D u.doc) → φ (.rag h.target (.updateDocuments us))
  made : ∀ p x changeType, readText c p = some x → Obeys φ D (createDocument h c p x changeType)

variable {φ : JobCall → Prop} {D : Document → Prop} {h : GitHandler} {r : Remote} {c : Checkout}

lemma obeys_indexDocumentsBatch (hφ : Permits φ D h c) {docs : List Document}
    (hd : ∀ d ∈ docs, D d) (errors : List String) :
    Obeys φ (fun _ => True) (indexDocumentsBatch h docs errors) :=
  ⟨hφ.indexes docs hd, fun r => by cases r <;> trivial⟩

lemma obeys_updateDocumentsBatch (hφ : Permits φ D h c) {us : List StoredDocument}
    (hu : ∀ u ∈ us, D u.doc) (errors : List String) :
    Obeys φ (fun _ => True) (updateDocumentsBatch h us errors) :=
  ⟨hφ.updates us hu, fun r => by cases r <;> trivial⟩

lemma obeys_lookup (hφ : Permits φ D h c) (p purpose : String) (errors : List String) :
    Obeys φ (fun _ => True) (lookup h p purpose errors) :=
  ⟨hφ.looks p, fun r => by cases r <;> trivial⟩

lemma forall_snoc {α : Type} {P : α → Prop} {l : List α} {a : α} (hl : ∀ x ∈ l, P x) (ha : P a) :
    ∀ x ∈ l ++ [a], P x := by
  intro x hx
  rcases List.mem_append.mp hx with hx | hx
  · exact hl x hx
  · rw [List.mem_singleton.mp hx]
    exact ha

/-! ### The full run -/

lemma obeys_indexAllLoop (hφ : Permits φ D h c) (files : List String) {docs : List Document}
    (hd : ∀ d ∈ docs, D d) (errors : List String) :
    Obeys φ (fun q => ∀ d ∈ q.1, D d) (indexAllLoop h c files docs errors) := by
  induction files generalizing docs errors with
  | nil => exact hd
  | cons p files ih =>
    unfold indexAllLoop
    split
    · exact ih hd _
    · rename_i x hx
      refine (hφ.made p x _ hx).bind fun d hmade => ?_
      dsimp only
      split
      · exact (obeys_indexDocumentsBatch hφ (forall_snoc hd hmade) _).bind fun e _ => ih (List.forall_mem_nil _) _
      · exact ih (forall_snoc hd hmade) _

lemma obeys_indexAllFiles (hφ : Permits φ D h c) (errors : List String) :
    Obeys φ (fun _ => True) (indexAllFiles h r c errors) := by
  refine (obeys_indexAllLoop hφ _ (List.forall_mem_nil _) _).bind fun ⟨docs, e⟩ hd => ?_
  dsimp only
  split
  · exact obeys_indexDocumentsBatch hφ hd _
  · trivial

/-! ### The incremental run -/

/-- The queues hold documents in `D`. -/
structure Queues (D : Document → Prop) (q : Pending) : Prop where
  creates : ∀ d ∈ q.createDocs, D d
  updates : ∀ u ∈ q.updateDocs, D u.doc

lemma Queues.congr {q q' : Pending} (hq : Queues D q) (hc : q'.createDocs = q.createDocs)
    (hu : q'.updateDocs = q.updateDocs) : Queues D q' where
  creates := by rw [hc]; exact hq.creates
  updates := by rw [hu]; exact hq.updates

lemma obeys_queueReplacement (hφ : Permits φ D h c) {q : Pending} (hq : Queues D q)
    {p x : String} (hx : readText c p = some x) (old purpose changeType : String) :
    Obeys φ (Queues D) (queueReplacement h c q old p x purpose changeType) := by
  refine (obeys_lookup hφ _ _ _).bind fun ⟨found, e⟩ _ => ?_
  cases found with
  | none => exact (hφ.made _ _ _ hx).bind fun d hd => ⟨forall_snoc hq.creates hd, hq.updates⟩
  | some found => exact (hφ.made _ _ _ hx).bind fun d hd => ⟨hq.creates, forall_snoc hq.updates hd⟩

lemma obeys_queueItem (hφ : Permits φ D h c) {q : Pending} (hq : Queues D q) (d : DiffItem) :
    Obeys φ (fun x => Queues D x.1) (queueItem h r c q d) := by
  unfold queueItem
  extract_lets p
  split
  · exact hq
  · split
    · split
      · rename_i x hx
        exact (hφ.made _ _ _ hx).bind fun d hd => ⟨forall_snoc hq.creates hd, hq.updates⟩
      · exact hq
    · split
      · exact hq
      · rename_i x hx
        exact (obeys_queueReplacement hφ hq hx _ _ _).bind fun q hq => hq
    · refine (obeys_lookup hφ _ _ _).bind fun ⟨found, e⟩ _ => ?_
      cases found <;> exact hq.congr rfl rfl
    · split
      · exact hq
      · rename_i x hx
        split
        · exact (obeys_queueReplacement hφ hq hx _ _ _).bind fun q hq => hq
        · exact hq
    · exact hq
    · exact hq

lemma obeys_flush (hφ : Permits φ D h c) (n : ℕ) {q : Pending} (hq : Queues D q) :
    Obeys φ (Queues D) (flush h n q) := by
  have hcreates : Obeys φ (Queues D) (flushCreates h n q) := by
    unfold flushCreates
    split
    · exact (obeys_indexDocumentsBatch hφ hq.creates _).bind fun e _ => ⟨nofun, hq.updates⟩
    · exact hq
  refine hcreates.bind fun q hq => ?_
  have hupdates : Obeys φ (Queues D) (flushUpdates h n q) := by
    unfold flushUpdates
    split
    · exact (obeys_updateDocumentsBatch hφ hq.updates _).bind fun e _ => ⟨hq.creates, nofun⟩
    · exact hq
  refine hupdates.bind fun q hq => ?_
  unfold flushDeletes
  split <;> exact hq.congr rfl rfl

lemma obeys_indexDiffLoop (hφ : Permits φ D h c) (items : List DiffItem) {q : Pending}
    (hq : Queues D q) : Obeys φ (Queues D) (indexDiffLoop h r c items q) := by
  induction items generalizing q with
  | nil => exact hq
  | cons d items ih =>
    refine (obeys_queueItem hφ hq d).bind fun ⟨q, reached⟩ hq => ?_
    cases reached with
    | true => exact (obeys_flush hφ 10 hq).bind fun q hq => ih hq
    | false => exact ih hq

lemma obeys_indexDiffFiles (hφ : Permits φ D h c) (errors : List String) :
    Obeys φ (fun _ => True) (indexDiffFiles h r c errors) := by
  unfold indexDiffFiles
  split
  · exact (obeys_indexAllFiles hφ errors).bind fun e _ => trivial
  · trivial
  · exact (obeys_indexDiffLoop hφ _ ⟨List.forall_mem_nil _, List.forall_mem_nil _⟩).bind fun q hq =>
      (obeys_flush hφ 1 hq).bind fun q _ => trivial

/-! ### A run -/

/-- The handler makes calls in `φ` only, and reports the commit that was checked out, or errors if
none could be. -/
lemma obeys_updateIndex (hnow : φ .now)
    (hφ : ∀ c, setupRepository h r = .ok c → Permits φ D h c) :
    Obeys φ (fun out => (∃ c, setupRepository h r = .ok c ∧ out.commitHash = some c.head) ∨
      (∃ e, setupRepository h r = .error e) ∧ out.returned ≠ []) (h.updateIndex r) := by
  have hindex : Obeys φ (fun q => (∃ c, setupRepository h r = .ok c ∧ q.2 = some c.head) ∨
      (∃ e, setupRepository h r = .error e) ∧ q.1 ≠ []) (h.indexRepository r) := by
    unfold GitHandler.indexRepository
    cases hsetup : setupRepository h r with
    | error e => exact .inr ⟨⟨e, rfl⟩, by simp⟩
    | ok c =>
      dsimp only
      split
      · exact (obeys_indexAllFiles (hφ c hsetup) _).bind fun e _ => .inl ⟨c, rfl, rfl⟩
      · refine (obeys_indexDiffFiles (hφ c hsetup) _).bind fun e _ => ?_
        cases e with
        | ok errors => exact .inl ⟨c, rfl, rfl⟩
        | error m => exact .inl ⟨c, rfl, rfl⟩
  exact ⟨hnow, fun start => hindex.bind fun ⟨e, commit⟩ hc => ⟨hnow, fun stop => hc⟩⟩

end KaitoAutoIndexer.GitCalls
