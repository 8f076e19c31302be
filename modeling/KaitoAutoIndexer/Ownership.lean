import KaitoAutoIndexer.ControllerCalls
import KaitoAutoIndexer.ControllerSpec

/-!
What a reconcile does to the documents in the RAG engines: it leaves every index alone but
the one its AutoIndexer names, and that one it keeps or deletes as a whole.
-/

namespace KaitoAutoIndexer.Ownership

open KaitoAutoIndexer.Lib KaitoAutoIndexer.Types
open KaitoAutoIndexer.Rag (StoredDocument)
open KaitoAutoIndexer.Cluster KaitoAutoIndexer.Controller
open KaitoAutoIndexer.ControllerCalls KaitoAutoIndexer.ControllerSpec

/-- The documents tagged with `B`, over all indexes. -/
def documentsOf (B : String) (indexes : List Index) : Multiset StoredDocument :=
  (indexes.flatMap Index.docs).filter (·.doc.owner == some B)

variable {mayFail : Prop}

/-! ### Documents under a deletion -/

lemma documentsOf_cons (B : String) (i : Index) (l : List Index) :
    documentsOf B (i :: l) =
      (i.docs.filter (·.doc.owner == some B) : List StoredDocument) + documentsOf B l := by
  simp [documentsOf]

lemma documentsOf_filter_add (B : String) (keep : Index → Bool) (l : List Index) :
    documentsOf B (l.filter keep) + documentsOf B (l.filter fun i => !keep i) =
      documentsOf B l := by
  induction l with
  | nil => rfl
  | cons i l ih =>
    cases hk : keep i
    · simp only [List.filter_cons, hk, documentsOf_cons, ← ih, Bool.not_false, if_true,
        Bool.false_eq_true, if_false]
      abel
    · simp only [List.filter_cons, hk, documentsOf_cons, ← ih, Bool.not_true, if_true,
        Bool.false_eq_true, if_false]
      abel

lemma documentsOf_eq_zero_iff (B : String) (l : List Index) :
    documentsOf B l = 0 ↔ ∀ d ∈ l.flatMap Index.docs, d.doc.owner ≠ some B := by
  simp [documentsOf, List.filter_eq_nil_iff]

/-- Deleting an index changes the documents of `B` just when it holds some. -/
lemma documentsOf_deleteIndex_iff (B : String) (w : World) (e i : String) :
    documentsOf B (w.deleteIndex e i).indexes = documentsOf B w.indexes ↔
      ∀ d ∈ w.store e i, d.doc.owner ≠ some B := by
  have hsum := documentsOf_filter_add B (fun x => !x.at e i) w.indexes
  simp only [Bool.not_not] at hsum
  have hzero := documentsOf_eq_zero_iff B (w.indexes.filter (Index.at e i))
  unfold World.store
  rw [← hzero, ← hsum]
  simp [World.deleteIndex]

lemma store_deleteIndex_of_ne (w : World) {e i e' i' : String} (h : ¬ (e' = e ∧ i' = i)) :
    (w.deleteIndex e i).store e' i' = w.store e' i' := by
  unfold World.store World.deleteIndex
  rw [List.filter_filter]
  congr 2
  funext x
  have hx : x.at e' i' = true → x.at e i = false := by
    simp only [Index.at, Bool.and_eq_true, beq_iff_eq]
    rintro ⟨rfl, rfl⟩
    by_contra hc
    simp only [Bool.not_eq_false, Bool.and_eq_true, beq_iff_eq] at hc
    exact h hc
  cases hx' : x.at e' i'
  · simp
  · simp [hx hx']

/-! ### What a reconcile deletes -/

/-- The call deletes no index but `i` at `e`. -/
def DeletesOnly (e i : String) (c : Call) : Prop :=
  ∀ e' i', c = .httpDeleteIndex e' i' → e' = e ∧ i' = i

/-- The indexes are as in `w`, but for the index `i` at `e`, which may be gone. -/
def KeptBut (w : World) (e i : String) (w' : World) : Prop :=
  w'.indexes = w.indexes ∨ w'.indexes = (w.deleteIndex e i).indexes

lemma serve_indexes (w : World) {c : Call} (hc : ∀ e i, c ≠ .httpDeleteIndex e i) :
    (serve w c).2.indexes = w.indexes := by
  cases c with
  | httpDeleteIndex e i => exact absurd rfl (hc e i)
  | _ => simp only [serve] <;> (repeat' split) <;> rfl

lemma keptBut_of_serves {w w' w'' : World} {e i : String} {c : Call} {r : Answer c}
    (hc : DeletesOnly e i c) (hw : KeptBut w e i w') (h : Serves mayFail w' c r w'') :
    KeptBut w e i w'' := by
  have hserve : KeptBut w e i (serve w' c).2 := by
    by_cases hd : ∀ e i, c ≠ .httpDeleteIndex e i
    · rw [KeptBut, serve_indexes w' hd]
      exact hw
    · push Not at hd
      obtain ⟨e', i', rfl⟩ := hd
      obtain ⟨rfl, rfl⟩ := hc e' i' rfl
      rw [serve_httpDeleteIndex_snd]
      right
      rcases hw with hw | hw <;> simp [World.deleteIndex, hw, List.filter_filter]
  rcases h with h | ⟨-, -, h | ⟨-, h⟩⟩
  · have hw'' : w'' = (serve w' c).2 := congrArg Prod.snd h
    rwa [hw'']
  · rwa [h]
  · rwa [h]

lemma deletesOnly_of_allowed {e i : String} {c : Call}
    (h : Allowed (fun e' i' => e' = e ∧ i' = i) c) : DeletesOnly e i c := by
  rintro e' i' rfl
  exact h

lemma keptBut_of_obeys {α : Type} {P : α → Prop} {p : Go α} {e i : String} {w w' : World}
    (h : Obeys (DeletesOnly e i) P p) (hw : KeptBut w e i w') :
    Runs (Serves mayFail) (fun _ v => KeptBut w e i v) p w' :=
  (Obeys.runs (J := KeptBut w e i) h (fun _ _ _ _ => keptBut_of_serves) hw).mono fun _ _ h => h.2

lemma makes_deletesOnly {α : Type} {p : Go α} {e i : String}
    (h : Makes (fun e' i' => e' = e ∧ i' = i) p) : Obeys (DeletesOnly e i) (fun _ => True) p :=
  Obeys.mono (fun _ => deletesOnly_of_allowed) (fun _ h => h) h

lemma garbageCollect_deletesOnly (o : AutoIndexer) :
    Obeys (DeletesOnly (generateRAGEngineEndpoint o.spec.ragEngine o.namespace_) o.spec.indexName)
      (fun _ => True) (garbageCollectAutoIndexer o) := by
  have hne : ∀ {c : Call}, (∀ e i, c ≠ .httpDeleteIndex e i) →
      ∀ e i, DeletesOnly e i c := fun h e i e' i' hc => absurd hc (h e' i')
  simp only [garbageCollectAutoIndexer, ask_bind]
  refine ⟨hne (by simp) _ _, fun r => ?_⟩
  cases r with
  | error e => trivial
  | ok jobs =>
    dsimp only
    split
    · trivial
    · refine Obeys.bind (makes_deletesOnly (makes_deleteIndex ⟨rfl, rfl⟩)) fun e _ => ?_
      cases e with
      | some e => trivial
      | none =>
        dsimp only
        split
        · exact ⟨hne (by simp) _ _, fun _ => trivial⟩
        · trivial

/-- A reconcile keeps all indexes, or deletes the one its AutoIndexer names. -/
lemma reconcile_keptBut {w : World} {o : AutoIndexer} (hw : w.stored = some o) :
    Runs (Serves mayFail) (fun _ w' => KeptBut w
      (generateRAGEngineEndpoint o.spec.ragEngine o.namespace_) o.spec.indexName w')
      reconcile w := by
  simp only [reconcile, ask_bind, runs_ask]
  intro r w' hr
  obtain rfl : w' = w := eq_of_serves_read (by simp [serve, hw]) (by simp) hr
  have hself : ∀ e i, KeptBut w' e i w' := fun e i => .inl rfl
  rcases hr with hr | ⟨-, ⟨m, rfl⟩, -⟩
  · simp only [serve, hw] at hr
    cases hr
    dsimp only [reconcileObject]
    split
    · exact keptBut_of_obeys (garbageCollect_deletesOnly o) (hself _ _)
    · refine ((ensureFinalizer_runs hw).and (keptBut_of_obeys
        (makes_deletesOnly (makes_ensureFinalizer o))
        (hself (generateRAGEngineEndpoint o.spec.ragEngine o.namespace_) o.spec.indexName))).bind ?_
      rintro ⟨o1, e⟩ w1 ⟨⟨h1, -⟩, hkept⟩
      cases e with
      | some e => exact hkept
      | none =>
        obtain ⟨hsame, -⟩ := h1 rfl
        rw [← hsame.spec, ← hsame.namespace_] at hkept ⊢
        exact keptBut_of_obeys (makes_deletesOnly (makes_syncAutoIndexer ⟨rfl, rfl⟩)) hkept
  · exact hself _ _

/-- **A reconcile leaves every index but its own alone, keeps that one or deletes it as a whole, and
the documents tagged with `B` stay the same just when it keeps its own index or that index holds none
of them.** -/
theorem reconcile_documentsOf {w : World} {o : AutoIndexer} (hw : w.stored = some o) (B : String) :
    Runs (Serves True) (fun _ w' =>
      (∀ e i, ¬ ownIndex o e i → w'.store e i = w.store e i) ∧
      KeptBut w (generateRAGEngineEndpoint o.spec.ragEngine o.namespace_) o.spec.indexName w' ∧
      (documentsOf B w'.indexes = documentsOf B w.indexes ↔ w'.indexes = w.indexes ∨
        ∀ d ∈ w.store (generateRAGEngineEndpoint o.spec.ragEngine o.namespace_) o.spec.indexName,
          d.doc.owner ≠ some B)) reconcile w := by
  refine (reconcile_keptBut hw).mono fun _ w' hkept => ⟨fun e i hown => ?_, hkept, ?_⟩
  · rcases hkept with h | h
    · simp [World.store, h]
    · rw [← store_deleteIndex_of_ne w hown]
      simp [World.store, h]
  · rw [← documentsOf_deleteIndex_iff]
    rcases hkept with h | h
    · simp [h]
    · constructor
      · rw [h]
        exact .inr
      · rintro (h' | h')
        · rw [h']
        · rw [h, h']

/-- `demo` is being deleted, and shares its index with another AutoIndexer. -/
def sharedWorld : World :=
  { demoWorld with
    stored := some { demo with deletionTimestamp := some 5 }
    indexes := [⟨generateRAGEngineEndpoint "rag" "default", "index",
      [⟨1, "ours", [("autoindexer", "default_docs")]⟩,
       ⟨2, "theirs", [("autoindexer", "default_other")]⟩]⟩] }

theorem reconcile_documentsOf_shared :
    Runs (Serves True) (fun _ w' =>
      (∀ e i, ¬ ownIndex { demo with deletionTimestamp := some 5 } e i →
        w'.store e i = sharedWorld.store e i) ∧
      KeptBut sharedWorld (generateRAGEngineEndpoint "rag" "default") "index" w' ∧
      (documentsOf "default_other" w'.indexes = documentsOf "default_other" sharedWorld.indexes ↔
        w'.indexes = sharedWorld.indexes ∨
        ∀ d ∈ sharedWorld.store (generateRAGEngineEndpoint "rag" "default") "index",
          d.doc.owner ≠ some "default_other")) reconcile sharedWorld :=
  reconcile_documentsOf rfl _

/-- The deletion of one AutoIndexer takes the documents of another with it. -/
theorem not_reconcile_keeps_documents :
    ¬ ∀ (w : World) (o : AutoIndexer) (B : String), w.stored = some o → B ≠ o.tag →
      documentsOf B (reconcile.exec serve w).2.indexes = documentsOf B w.indexes := by
  intro h
  have h := congrArg Multiset.card (h sharedWorld _ "default_other" rfl (by decide))
  exact absurd h (by decide)

end KaitoAutoIndexer.Ownership
