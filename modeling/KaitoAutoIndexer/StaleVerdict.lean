import KaitoAutoIndexer.DriftMark
import KaitoAutoIndexer.GitSpec
import KaitoAutoIndexer.Ownership

/-!
Whether a drift still exists when its index is deleted: the detector leaves its verdict in an
annotation, and nobody compares the counts again.
-/

namespace KaitoAutoIndexer.StaleVerdict

open KaitoAutoIndexer.Lib KaitoAutoIndexer.Types KaitoAutoIndexer.Cluster
open KaitoAutoIndexer.Controller KaitoAutoIndexer.Rag KaitoAutoIndexer.JobClient
open KaitoAutoIndexer.System KaitoAutoIndexer.SystemSteps
open KaitoAutoIndexer.ControllerSteps (Knows)
open KaitoAutoIndexer.DriftMark (Detects effect_of_detects driftDetected_of_effect)
open KaitoAutoIndexer.DetectorSteps (Seen)
open KaitoAutoIndexer.ControllerSpec (demo demoWorld)
open KaitoAutoIndexer.GitSpec (demoRemote)

/-! ### Counts -/

/-- The documents of an AutoIndexer in its index. -/
def count (w : World) (o : AutoIndexer) : ℕ :=
  ((w.store (generateRAGEngineEndpoint o.spec.ragEngine o.namespace_) o.spec.indexName).filter
    (·.doc.owner == some o.tag)).length

/-- The status says that there are documents, and not how many. -/
def Drifts (w : World) (o : AutoIndexer) : Prop :=
  o.status.numOfDocumentInIndex ≠ 0 ∧ o.status.numOfDocumentInIndex ≠ count w o

/-- The index of the stored object satisfies `p`. -/
def atStored (w : World) (p : AutoIndexer → Bool) : Bool := w.stored.any p

/-- The record: something has changed since the detector last counted the documents and found a
drift. Its own count that finds none is such a change. -/
def changed (x : World × account.Notes × Bool) : system.Event → Bool
  | .call .detector (.httpGetDocumentCount e i a) (.ok n) =>
    match x.1.stored with
    | some o =>
      if e = generateRAGEngineEndpoint o.spec.ragEngine o.namespace_ ∧ i = o.spec.indexName ∧
          a = o.tag then
        o.status.numOfDocumentInIndex == 0 || o.status.numOfDocumentInIndex == n
      else x.2.2
    | none => x.2.2
  | .call .controller (.patchStatus a b) (.ok _) => x.2.2 || atStored x.1 fun o =>
      pick a.status.numOfDocumentInIndex b.status.numOfDocumentInIndex
        o.status.numOfDocumentInIndex != o.status.numOfDocumentInIndex
  | .call .job (.patchStatus body) (.ok _) => x.2.2 || atStored x.1 fun o =>
      body.status.numOfDocumentInIndex != o.status.numOfDocumentInIndex
  | .call .job (.rag t q) _ => x.2.2 || atStored x.1 fun o => t == Job.target o &&
      match q with
      | .listDocuments _ _ => false
      | _ => true
  | .act (.edits spec) => x.2.2 || atStored x.1 fun o =>
      spec.ragEngine != o.spec.ragEngine || spec.indexName != o.spec.indexName
  | .act (.others _ indexes _ _) => x.2.2 || atStored x.1 fun o =>
      count { x.1 with indexes := indexes } o != count x.1 o
  | _ => x.2.2

/-- A remediation deletes an index: the object is not being deleted itself. -/
def Remediates (k : account.Notes) : system.Event → Prop
  | .call .controller (.httpDeleteIndex _ _) _ => (k .controller : Knows).Live
  | _ => False

/-- An index is deleted only while nothing has changed since the drift was found. -/
def Unchanged (x : World × account.Notes × Bool) (e : system.Event) : Prop :=
  Remediates x.2.1 e → x.2.2 = false

variable {w w' : World} {k : account.Notes} {c : Bool} {o o' x : AutoIndexer} {e : system.Event}

/-! ### What leaves a drift as it is -/

lemma count_congr (hstore : ∀ e i, w'.store e i = w.store e i)
    (hengine : o'.spec.ragEngine = o.spec.ragEngine) (hindex : o'.spec.indexName = o.spec.indexName)
    (hname : o'.name = o.name) (hns : o'.namespace_ = o.namespace_) : count w' o' = count w o := by
  unfold count AutoIndexer.tag
  rw [hstore, hengine, hindex, hname, hns]

lemma store_congr (h : w'.indexes = w.indexes) (e i : String) : w'.store e i = w.store e i := by
  unfold World.store
  rw [h]

lemma store_putStore (w : World) (e i : String) (s : Store) :
    (putStore w e i s).store e i = s := by
  unfold putStore
  split
  · rename_i hs
    exact hs.symm
  · have hold : ∀ x ∈ w.indexes.filter fun x => !x.at e i, x.at e i = false := by
      intro x hx
      simpa using (List.mem_filter.mp hx).2
    have hself : Index.at e i ⟨e, i, s⟩ = true := by simp [Index.at]
    unfold World.store
    rw [List.filter_append, List.filter_eq_nil_iff.mpr fun x hx => by simp [hold x hx],
      List.filter_cons_of_pos hself]
    simp

lemma store_putStore_of_ne (w : World) {e i e' i' : String} (s : Store) (h : ¬ (e' = e ∧ i' = i)) :
    (putStore w e i s).store e' i' = w.store e' i' := by
  unfold putStore
  split
  · rfl
  · have hother : Index.at e' i' ⟨e, i, s⟩ = false := by
      unfold Index.at
      rw [Bool.and_eq_false_iff, beq_eq_false_iff_ne, beq_eq_false_iff_ne]
      by_cases he : e = e'
      · exact .inr fun hi => h ⟨he.symm, hi.symm⟩
      · exact .inl he
    have hdelete := Ownership.store_deleteIndex_of_ne w h
    unfold World.store World.deleteIndex at hdelete
    unfold World.store
    rw [List.filter_append, List.filter_cons_of_neg (by simp [hother])]
    simpa using hdelete

/-- What a call of the controller or the detector makes of the documents of an AutoIndexer. -/
lemma count_of_serves {c : Call} {r : Answer c} (h : Serves True w c r w') :
    count w' o = count w o ∨ count w' o = 0 := by
  have hdeleted : ∀ e i, w'.indexes = (w.deleteIndex e i).indexes → count w' o = count w o ∨
      count w' o = 0 := by
    intro e i hindexes
    by_cases hown : generateRAGEngineEndpoint o.spec.ragEngine o.namespace_ = e ∧ o.spec.indexName = i
    · obtain ⟨rfl, rfl⟩ := hown
      right
      unfold count
      rw [store_congr hindexes]
      simp [World.store, World.deleteIndex, List.filter_filter]
    · left
      unfold count
      rw [store_congr hindexes, Ownership.store_deleteIndex_of_ne w hown]
  by_cases hc : ∃ e i, c = .httpDeleteIndex e i
  · obtain ⟨e, i, rfl⟩ := hc
    have hkept : Ownership.KeptBut w e i w' :=
      Ownership.keptBut_of_serves (fun e' i' hc => by cases hc; exact ⟨rfl, rfl⟩) (.inl rfl) h
    rcases hkept with hindexes | hindexes
    · exact .inl (count_congr (store_congr hindexes) rfl rfl rfl rfl)
    · exact hdeleted e i hindexes
  · have hkept : Ownership.KeptBut w "" "" w' :=
      Ownership.keptBut_of_serves (fun e' i' hc' => absurd ⟨e', i', hc'⟩ hc) (.inl rfl) h
    rcases hkept with hindexes | hindexes
    · exact .inl (count_congr (store_congr hindexes) rfl rfl rfl rfl)
    · exact hdeleted "" "" hindexes

/-- What is counted is what there is. -/
lemma counted_eq {i a : String} {n : ℕ} {ep : String}
    (h : Serves True w (.httpGetDocumentCount ep i a) (.ok n) w') :
    n = ((w.store ep i).filter (·.doc.owner == some a)).length ∧ w' = w := by
  rcases h with h | ⟨-, ⟨m, hm⟩, -⟩
  · simp only [Cluster.serve] at h
    split at h
    · cases h
      exact ⟨rfl, rfl⟩
    · cases h
  · cases hm

/-- A write of which the record takes no note keeps the number and names the same index. -/
lemma kept_of_effect (ho : w.stored = some o) (h : Effect k o e (some o'))
    (hc : changed (w, k, false) e = false) :
    o'.status.numOfDocumentInIndex = o.status.numOfDocumentInIndex ∧
      o'.spec.ragEngine = o.spec.ragEngine ∧ o'.spec.indexName = o.spec.indexName := by
  generalize hs : some o' = s at h
  cases h with
  | addFinalizer _ _ ho' =>
    cases hs
    rw [ho']
    simp [finalizing]
  | suspend _ _ _ _ _ _ _ ho' =>
    cases hs
    rw [ho']
    simp [suspending, AutoIndexer.withSpec]
  | resume _ _ _ _ _ _ _ ho' =>
    cases hs
    rw [ho']
    simp [suspending, AutoIndexer.withSpec]
  | remediated _ _ _ _ _ ho' =>
    cases hs
    rw [ho']
    simp [remediatedAt]
  | status =>
    cases hs
    refine ⟨?_, by simp [AutoIndexer.withStatus], by simp [AutoIndexer.withStatus]⟩
    simp only [changed, atStored, ho, Option.any_some, Bool.false_or, bne_eq_false_iff_eq] at hc
    simpa [AutoIndexer.withStatus, mergeStatus] using hc
  | release _ _ ho' =>
    rcases ho' with rfl | rfl
    · cases hs
    · cases hs
      simp [finalizing]
  | mark =>
    cases hs
    simp [DetectorSteps.marked]
  | clear =>
    cases hs
    simp [DetectorSteps.cleared]
  | drop => cases hs
  | job =>
    cases hs
    refine ⟨?_, by simp [AutoIndexer.withStatus], by simp [AutoIndexer.withStatus]⟩
    simp only [changed, atStored, ho, Option.any_some, Bool.false_or, bne_eq_false_iff_eq] at hc
    simpa [AutoIndexer.withStatus] using hc
  | edits =>
    cases hs
    refine ⟨by simp [AutoIndexer.withSpec], ?_⟩
    simp only [changed, atStored, ho, Option.any_some, Bool.false_or, Bool.or_eq_false_iff,
      bne_eq_false_iff_eq] at hc
    simpa [AutoIndexer.withSpec] using hc
  | deletes =>
    unfold deleted at hs
    split at hs
    · cases hs
    · cases hs
      simp

/-- An event of which the record takes no note keeps the documents, or deletes all of them. -/
lemma count_of_happens (ho : w.stored = some o) (h : system.Happens w e w')
    (hc : changed (w, k, false) e = false) : count w' o = count w o ∨ count w' o = 0 := by
  have hsame : w'.indexes = w.indexes → count w' o = count w o ∨ count w' o = 0 :=
    fun hi => .inl (count_congr (store_congr hi) rfl rfl rfl rfl)
  match e with
  | .begin i => exact hsame (congrArg World.indexes h)
  | .finish i a => exact hsame (congrArg World.indexes h)
  | .crash i => exact hsame (congrArg World.indexes h)
  | .call .controller call r => exact count_of_serves h
  | .call .detector call r => exact count_of_serves h
  | .call .job .now r => exact hsame (congrArg World.indexes h.2)
  | .call .job .getAutoIndexer r => exact hsame (congrArg World.indexes h.1)
  | .call .job (.kusto q) r => exact hsame (congrArg World.indexes h)
  | .call .job (.fetch u) r => exact hsame (congrArg World.indexes h)
  | .call .job (.patchStatus body) r =>
    rcases h with h | ⟨-, rfl, -⟩
    · unfold patchJobStatus at h
      split at h
      · split at h <;> cases h <;> exact hsame rfl
      · cases h
        exact hsame rfl
    · exact hsame rfl
  | .call .job (.rag t q) r =>
    obtain ⟨s, hs, rfl⟩ := h
    by_cases ht : t = Job.target o
    · -- the job only lists
      have hlist : s = w.store t.endpoint t.index := by
        cases q with
        | listDocuments f n =>
          cases r with
          | ok l => exact hs.1
          | error m => exact hs.2
        | indexDocuments docs => simp [changed, atStored, ho, ht] at hc
        | updateDocuments us => simp [changed, atStored, ho, ht] at hc
      subst hlist
      exact hsame (by simp [putStore])
    · left
      have hne : ¬ (generateRAGEngineEndpoint o.spec.ragEngine o.namespace_ = t.endpoint ∧
          o.spec.indexName = t.index) := by
        rintro ⟨h1, h2⟩
        apply ht
        cases t
        cases h1
        cases h2
        rfl
      unfold count
      rw [store_putStore_of_ne w s hne]
  | .act a =>
    cases h with
    | others =>
      left
      simp only [changed, atStored, ho, Option.any_some, Bool.false_or, bne_eq_false_iff_eq] at hc
      rw [← hc]
      exact count_congr (store_congr rfl) rfl rfl rfl rfl
    | fires => exact hsame rfl
    | moves => exact hsame rfl
    | gone => exact hsame rfl
    | edits => exact hsame rfl
    | deletes => exact hsame rfl
    | passes => exact hsame rfl

/-- A drift stays one until something changes. -/
lemma drifts_step (hk : Sound w k) (hl : account.Allows k e) (h : system.Happens w e w')
    (hc : changed (w, k, false) e = false) (ho : w.stored = some o) (ho' : w'.stored = some o')
    (hd : Drifts w o) : Drifts w' o' := by
  have hkept : o'.status.numOfDocumentInIndex = o.status.numOfDocumentInIndex ∧
      o'.spec.ragEngine = o.spec.ragEngine ∧ o'.spec.indexName = o.spec.indexName := by
    rcases effect_of_happens hk.snapshots hl h with ⟨hs, -⟩ | ⟨o1, ho1, heffect⟩
    · rw [hs, ho] at ho'
      cases ho'
      exact ⟨rfl, rfl, rfl⟩
    · obtain rfl := Option.some.inj (ho.symm.trans ho1)
      rw [ho'] at heffect
      exact kept_of_effect ho heffect hc
  obtain ⟨o1, ho1, hlater⟩ := later_of_happens h ho'
  obtain rfl := Option.some.inj (ho.symm.trans ho1)
  have hcount : count w' o' = count w' o :=
    count_congr (fun _ _ => rfl) hkept.2.1 hkept.2.2 hlater.name hlater.namespace_
  unfold Drifts
  rw [hkept.1, hcount]
  refine ⟨hd.1, ?_⟩
  rcases count_of_happens ho h hc with hsame | hnone
  · rw [hsame]
    exact hd.2
  · rw [hnone]
    exact hd.1

/-! ### The invariant -/

/-- Nobody has seen a drift of the object. -/
def Unmarked (g : Knows) (o : AutoIndexer) : Prop :=
  o.driftDetected = false ∧ ∀ f x, Recalls f → f g = some x → x.driftDetected = false

structure Inv (w : World) (k : account.Notes) (c : Bool) : Prop where
  verdict : c = false → ∀ o, w.stored = some o → Drifts w o ∨ Unmarked (k .controller) o
  pending : c = false → ∀ o, w.stored = some o → o ∈ (k .detector : Seen).listed → ∀ n,
    (k .detector : Seen).Counted o (.ok n) → o.status.numOfDocumentInIndex ≠ n → Drifts w o

/-- The event is a count of the documents of the stored object. -/
def Counts (w : World) (e : system.Event) : Prop :=
  ∃ o n, w.stored = some o ∧ e = .call .detector (.httpGetDocumentCount
    (generateRAGEngineEndpoint o.spec.ragEngine o.namespace_) o.spec.indexName o.tag) (.ok n)

/-- Other events do not take a change back. -/
lemma changed_of_not_counts (he : ¬ Counts w e) (hc : changed (w, k, c) e = false) :
    c = false ∧ changed (w, k, false) e = false := by
  cases c with
  | false => exact ⟨rfl, hc⟩
  | true =>
    unfold changed at hc
    split at hc
    · rename_i ep i a n
      split at hc
      · rename_i o ho
        split at hc
        · rename_i hsame
          obtain ⟨rfl, rfl, rfl⟩ := hsame
          exact absurd ⟨o, n, ho, rfl⟩ he
        · cases hc
      · cases hc
    all_goals simp at hc

/-- A count that is no change has found a drift. -/
lemma drifts_of_counts (he : Counts w e) (h : system.Happens w e w')
    (hc : changed (w, k, c) e = false) (ho' : w'.stored = some o') : Drifts w' o' := by
  obtain ⟨o, n, ho, rfl⟩ := he
  obtain ⟨hn, rfl⟩ := counted_eq h
  obtain rfl := Option.some.inj (ho.symm.trans ho')
  simp only [changed, ho, and_self, if_true, Bool.or_eq_false_iff, beq_eq_false_iff_ne] at hc
  refine ⟨hc.1, ?_⟩
  rw [hn] at hc
  exact hc.2

lemma pending_step (hk : Sound w k) (hinv : Inv w k c) (hl : account.Allows k e)
    (h : system.Happens w e w') (hc : changed (w, k, c) e = false) (ho' : w'.stored = some o')
    (hlist : o' ∈ (account.watch k e .detector : Seen).listed) {n : ℕ}
    (hcount : (account.watch k e .detector : Seen).Counted o' (.ok n))
    (hn : o'.status.numOfDocumentInIndex ≠ n) : Drifts w' o' := by
  by_cases he : Counts w e
  · exact drifts_of_counts he h hc ho'
  obtain ⟨rfl, hc'⟩ := changed_of_not_counts he hc
  obtain ⟨o, ho, -⟩ := later_of_happens h ho'
  have hlist' : o' ∈ (k .detector : Seen).listed := by
    rcases listed_watch hlist with hlist | ⟨os, rfl, -⟩
    · exact hlist
    · -- a check lists before it counts
      cases hl with
      | list hfresh =>
        rcases counted_watch hcount with hcount | heq
        · rw [hfresh] at hcount
          cases hcount
        · cases heq
  obtain rfl := eq_of_mentioned hk.snapshots h (.inr (.inl hlist')) ho ho'
  rcases counted_watch hcount with hcount | rfl
  · exact drifts_step hk hl h hc' ho ho' (hinv.pending rfl o' ho hlist' n hcount hn)
  · exact absurd ⟨o', n, ho, rfl⟩ he

lemma unmarked_step (hk : Sound w k) (hl : account.Allows k e) (h : system.Happens w e w')
    (hpending : ∀ n, o ∈ (k .detector : Seen).listed → (k .detector : Seen).Counted o (.ok n) →
      o.status.numOfDocumentInIndex = n)
    (ho : w.stored = some o) (ho' : w'.stored = some o') (hu : Unmarked (k .controller) o) :
    Unmarked (account.watch k e .controller) o' := by
  have hmark : o'.driftDetected = false := by
    rcases effect_of_happens hk.snapshots hl h with ⟨hs, -⟩ | ⟨o1, ho1, heffect⟩
    · rw [hs, ho] at ho'
      cases ho'
      exact hu.1
    · obtain rfl := Option.some.inj (ho.symm.trans ho1)
      rw [ho'] at heffect
      cases hdet : Detects e with
      | true =>
        obtain ⟨hlist, -, -, n, hcount, hn⟩ := effect_of_detects heffect hdet
        exact absurd (congrArg int32 (hpending n hlist hcount)) hn
      | false => exact driftDetected_of_effect hk ho heffect hdet hu.1
  refine ⟨hmark, fun f x hf hx => ?_⟩
  rcases recalls_watch hf h hx with hx | hx
  · exact hu.2 f x hf hx
  · obtain rfl := Option.some.inj (ho'.symm.trans hx)
    exact hmark

lemma verdict_step (hk : Sound w k) (hinv : Inv w k c) (hl : account.Allows k e)
    (h : system.Happens w e w') (hc : changed (w, k, c) e = false) (ho' : w'.stored = some o') :
    Drifts w' o' ∨ Unmarked (account.watch k e .controller) o' := by
  by_cases he : Counts w e
  · exact .inl (drifts_of_counts he h hc ho')
  obtain ⟨rfl, hc'⟩ := changed_of_not_counts he hc
  obtain ⟨o, ho, -⟩ := later_of_happens h ho'
  by_cases hd : Drifts w o
  · exact .inl (drifts_step hk hl h hc' ho ho' hd)
  · refine .inr (unmarked_step hk hl h (fun n hlist hcount => ?_) ho ho'
      ((hinv.verdict rfl o ho).resolve_left hd))
    by_contra hn
    exact hd (hinv.pending rfl o ho hlist n hcount hn)

/-! ### Runs -/

/-- Nothing is in flight, and no drift is marked. -/
def Opening (s : System.Config system (account.Notes × Bool)) : Prop :=
  StartWith false s ∧ ∀ o, s.world.stored = some o → o.driftDetected = false

lemma inv_of_reach {cond : World × account.Notes × Bool → system.Event → Prop}
    {s : System.Config system (account.Notes × Bool)}
    (h : System.Reach (account.observer changed) cond Opening s) :
    Sound s.world s.record.1 ∧ Inv s.world s.record.1 s.record.2 := by
  refine invariant_of_reach (I := fun x => Inv x.1 x.2.1 x.2.2) ?_ ?_ h
  · rintro s ⟨⟨hstart, hr⟩, hopen⟩
    refine ⟨hstart, ?_⟩
    change Inv s.world s.record.1 s.record.2
    rw [hstart.2, hr]
    refine ⟨fun _ o ho => .inr ⟨hopen o ho, fun f x hf hx => ?_⟩, fun _ o _ hlist => ?_⟩
    · rcases hf with rfl | rfl | rfl <;> cases hx
    · cases hlist
  · intro w k c e w' hk hinv _ hl hw
    exact ⟨fun hc o ho => verdict_step hk hinv hl hw hc ho,
      fun hc o ho hlist n hcount hn => pending_step hk hinv hl hw hc ho hlist hcount hn⟩

/-- **A remediation deletes an index only for a drift that still exists**, in every run in which
nothing has changed since the drift was found whenever a remediation deletes an index. -/
theorem deletes_drifted {s s' : System.Config system (account.Notes × Bool)} {e : system.Event}
    (h : System.Reach (account.observer changed) Unchanged Opening s)
    (hs : System.Step (account.observer changed) s e s') (hc : Unchanged s.view e)
    (hr : Remediates s.record.1 e) {o : AutoIndexer} (ho : s.world.stored = some o) :
    o.status.numOfDocumentInIndex ≠ count s.world o := by
  obtain ⟨hk, hinv⟩ := inv_of_reach h
  obtain ⟨hl, hw, -⟩ := allows_of_reach (fun s hs => hs.1.1) h hs
  rcases hinv.verdict (hc hr) o ho with hd | hu
  · exact hd.2
  · -- the reconcile has read the mark
    unfold Remediates at hr
    split at hr
    · obtain ⟨y, hy, hlive⟩ := hr
      cases hl with
      | plain hplain => exact hplain.elim
      | @remediate x _ _ hread _ _ _ hrem =>
        have hdrift := hu.2 Knows.read x (.inr (.inl rfl)) hread
        rw [hrem.detected] at hdrift
        cases hdrift
      | collect hgot hdeleting =>
        rw [hgot] at hy
        cases hy
        rw [hdeleting] at hlive
        cases hlive
    · exact hr.elim

/-! ### A job that was half way -/

/-- The test of `Unchanged`. -/
def unchangedTest (x : World × account.Notes × Bool) : system.Event → Bool
  | .call .controller (.httpDeleteIndex _ _) _ => !x.2.2
  | _ => true

lemma unchanged_of_test {x : World × account.Notes × Bool} {e : system.Event}
    (h : unchangedTest x e = true) : Unchanged x e := by
  intro hr
  unfold Remediates at hr
  split at hr
  · simpa [unchangedTest] using h
  · exact hr.elim

/-- An AutoIndexer in the phase Scheduled that has indexed a document, and is to remediate drifts. -/
def automatic : AutoIndexer :=
  { demo with
    spec := { demo.spec with schedule := some "@daily", driftRemediationPolicy := some .auto }
    status := { demo.status with indexingPhase := .scheduled, numOfDocumentInIndex := 1 } }

/-- The document has gone from the index. -/
def lostWorld : World :=
  { demoWorld with
    stored := some automatic
    indexes := [⟨"http://rag.default.svc.cluster.local:80", "index", []⟩] }

abbrev Configuration := System.Config system (account.Notes × Bool)

/-- The run so far meets the condition. -/
abbrev Reaches (s : Configuration) : Prop :=
  System.Reach (account.observer changed) Unchanged Opening s

/-- The first `n` calls of a check. -/
def ticked (n : ℕ) (s : Configuration) : Configuration :=
  let y := ticking changed unchangedTest n s
  ⟨y.2.1.1, y.2.1.2, Function.update s.threads .detector (some y.1)⟩

/-- The first `n` calls of a reconcile. -/
def called (n : ℕ) (s : Configuration) : Configuration :=
  let y := calling changed unchangedTest n s
  ⟨y.2.1.1, y.2.1.2, Function.update s.threads .controller (some y.1)⟩

def ended (i : Actor) (s : Configuration) : Configuration :=
  ⟨s.world, s.record, Function.update s.threads i none⟩

variable {s : Configuration}

lemma reaches_ticked (h : Reaches s) (hs : s.threads .detector = none) (n : ℕ)
    (hy : (ticking changed unchangedTest n s).2.2 = true) : Reaches (ticked n s) :=
  reach_ticking (fun _ _ => unchanged_of_test) h hs (unchanged_of_test rfl) n hy

lemma reaches_called (h : Reaches s) (hs : s.threads .controller = none) (n : ℕ)
    (hy : (calling changed unchangedTest n s).2.2 = true) : Reaches (called n s) :=
  reach_calling (fun _ _ => unchanged_of_test) h hs (unchanged_of_test rfl) n hy

/-- The program of a thread has come to its end. -/
def atEnd (s : Configuration) (i : Actor) : Bool :=
  match s.threads i with
  | some (.ret _) => true
  | _ => false

lemma reaches_ended (h : Reaches s) {i : Actor} (hs : atEnd s i = true) : Reaches (ended i s) := by
  unfold atEnd at hs
  split at hs
  · rename_i a ha
    have hstep : System.Step (account.observer changed) s (.finish i a) (ended i s) := .finish ha
    exact .step h hstep (unchanged_of_test rfl)
  · cases hs

def marked : Configuration := ended .detector (ticked 10 (before lostWorld false))

def entered : Configuration := ended .controller (called 60 marked)

def suspended : Configuration := ended .controller (called 60 entered)

/-- The drift was found, and the index is about to be deleted. -/
def deleting : Configuration := called 12 suspended

/-- An index is about to be deleted in a remediation, and the object satisfies `p`. -/
def condemns (p : AutoIndexer → Bool) (s : Configuration) : Bool :=
  match s.threads .controller, (s.record.1 .controller : Knows).got, s.world.stored with
  | some (.ask (.httpDeleteIndex _ _) _), some x, some o => !x.deleting && p o
  | _, _, _ => false

lemma condemned {p : AutoIndexer → Bool} (h : condemns p s = true) :
    ∃ s' e o, System.Step (account.observer changed) s e s' ∧ Remediates s.record.1 e ∧
      s.world.stored = some o ∧ p o = true := by
  unfold condemns at h
  split at h
  · rename_i ep i k x o hthread hgot hstored
    simp only [Bool.and_eq_true, Bool.not_eq_true'] at h
    exact ⟨_, _, o, step_reconcile (account.observer changed) hthread, ⟨x, hgot, h.1⟩, hstored, h.2⟩
  · cases h

/-- The run over the lost document, evaluated. -/
lemma lost_run :
    ((ticking changed unchangedTest 10 (before lostWorld false)).2.2 = true ∧
      atEnd (ticked 10 (before lostWorld false)) .detector = true) ∧
    ((calling changed unchangedTest 60 marked).2.2 = true ∧ atEnd (called 60 marked) .controller = true) ∧
    ((calling changed unchangedTest 60 entered).2.2 = true ∧ atEnd (called 60 entered) .controller = true) ∧
    (calling changed unchangedTest 12 suspended).2.2 = true ∧ condemns (fun _ => true) deleting = true ∧
    deleting.view.2.2 = false := by
  decide +kernel

lemma reaches_deleting : Reaches deleting := by
  have h0 : Reaches (before lostWorld false) := by
    refine .init ⟨⟨start_before lostWorld _, rfl⟩, ?_⟩
    rintro o ⟨⟩
    decide
  obtain ⟨⟨hticks, hdetected⟩, ⟨hcalls₁, hend₁⟩, ⟨hcalls₂, hend₂⟩, hcalls₃, -⟩ := lost_run
  have hmarked : Reaches marked := reaches_ended (reaches_ticked h0 rfl 10 hticks) hdetected
  have hentered : Reaches entered := reaches_ended (reaches_called hmarked rfl 60 hcalls₁) hend₁
  have hsuspended : Reaches suspended := reaches_ended (reaches_called hentered rfl 60 hcalls₂) hend₂
  exact reaches_called hsuspended rfl 12 hcalls₃

/-- A document that is not there any more. -/
theorem deletes_drifted_lost :
    ∃ s s' e o, System.Reach (account.observer changed) Unchanged Opening s ∧
      System.Step (account.observer changed) s e s' ∧ Remediates s.record.1 e ∧
      s.world.stored = some o ∧ o.status.numOfDocumentInIndex ≠ count s.world o := by
  obtain ⟨-, -, -, -, hcondemns, hunchanged⟩ := lost_run
  obtain ⟨s', e, o, hstep, hr, ho, -⟩ := condemned hcondemns
  have hc : Unchanged deleting.view e := fun _ => hunchanged
  exact ⟨deleting, s', e, o, reaches_deleting, hstep, hr, ho,
    deletes_drifted reaches_deleting hstep hc hr ho⟩

/-- A document is in the index. -/
def keptWorld : World :=
  { lostWorld with
    indexes := [⟨"http://rag.default.svc.cluster.local:80", "index",
      [⟨1, ⟨"text", [("autoindexer", "default_docs")]⟩⟩]⟩] }

/-- A job begins. -/
def begun (s : Configuration) : Configuration :=
  ⟨s.world, account.observer changed s.view (.begin .job),
    Function.update s.threads .job (some (Job.main (demoRemote [])))⟩

/-- The next `n` calls of a job that goes on with `p`. -/
def worked (n : ℕ) (p : Py (Option Bool)) (s : Configuration) : Configuration :=
  let y := working changed unchangedTest n p s
  ⟨y.2.1.1, y.2.1.2, Function.update s.threads .job (some y.1)⟩

/-- What a job still has to do after `n` calls. -/
def rest (n : ℕ) (p : Py (Option Bool)) (s : Configuration) : Py (Option Bool) :=
  (working changed unchangedTest n p s).1

lemma reaches_begun (h : Reaches s) (hs : s.threads .job = none) : Reaches (begun s) :=
  reach_job h (demoRemote []) hs (unchanged_of_test rfl)

lemma reaches_worked (h : Reaches s) {p : Py (Option Bool)} (hs : s.threads .job = some p) (n : ℕ)
    (hy : (working changed unchangedTest n p s).2.2 = true) : Reaches (worked n p s) :=
  reach_working (fun _ _ => unchanged_of_test) h hs n hy

/-- The job has sent its document, and has not recorded the new count. -/
def halfway : Configuration := worked 8 (Job.main (demoRemote [])) (begun (before keptWorld false))

/-- The detector compares the old count with the new documents. -/
def misjudged : Configuration := ended .detector (ticked 10 halfway)

/-- The job has recorded the new count. -/
def recorded : Configuration :=
  ended .job (worked 40 (rest 8 (Job.main (demoRemote [])) (begun (before keptWorld false))) misjudged)

def turned : Configuration := ended .controller (called 60 recorded)

def stopped : Configuration := ended .controller (called 60 turned)

/-- The run over the kept document, evaluated. -/
lemma kept_run :
    (working changed unchangedTest 8 (Job.main (demoRemote [])) (begun (before keptWorld false))).2.2 = true ∧
    ((ticking changed unchangedTest 10 halfway).2.2 = true ∧ atEnd (ticked 10 halfway) .detector = true) ∧
    ((working changed unchangedTest 40 (rest 8 (Job.main (demoRemote [])) (begun (before keptWorld false)))
        misjudged).2.2 = true ∧
      atEnd (worked 40 (rest 8 (Job.main (demoRemote [])) (begun (before keptWorld false))) misjudged) .job =
        true) ∧
    ((calling changed unchangedTest 60 recorded).2.2 = true ∧ atEnd (called 60 recorded) .controller = true) ∧
    ((calling changed unchangedTest 60 turned).2.2 = true ∧ atEnd (called 60 turned) .controller = true) ∧
    (calling changed unchangedTest 12 stopped).2.2 = true ∧
    condemns (fun o => o.status.numOfDocumentInIndex == count (called 12 stopped).world o) (called 12 stopped) =
      true := by
  decide +kernel

lemma reaches_condemned : Reaches (called 12 stopped) := by
  have h0 : Reaches (before keptWorld false) := by
    refine .init ⟨⟨start_before keptWorld _, rfl⟩, ?_⟩
    rintro o ⟨⟩
    decide
  obtain ⟨hworks, ⟨hticks, hdetected⟩, ⟨hrest, hworked⟩, ⟨hcalls₁, hend₁⟩, ⟨hcalls₂, hend₂⟩, hcalls₃, -⟩ :=
    kept_run
  have hhalfway : Reaches halfway := reaches_worked (reaches_begun h0 rfl) rfl 8 hworks
  have hmisjudged : Reaches misjudged := reaches_ended (reaches_ticked hhalfway rfl 10 hticks) hdetected
  have hrecorded : Reaches recorded := reaches_ended (reaches_worked hmisjudged rfl 40 hrest) hworked
  have hturned : Reaches turned := reaches_ended (reaches_called hrecorded rfl 60 hcalls₁) hend₁
  have hstopped : Reaches stopped := reaches_ended (reaches_called hturned rfl 60 hcalls₂) hend₂
  exact reaches_called hstopped rfl 12 hcalls₃

/-- The index is deleted although the job has recorded all of its documents. -/
theorem not_deletes_drifted :
    ¬ ∀ (s s' : System.Config system (account.Notes × Bool)) (e : system.Event) (o : AutoIndexer),
      System.Reach (account.observer changed) (fun _ _ => True) Opening s →
      System.Step (account.observer changed) s e s' → Remediates s.record.1 e →
      s.world.stored = some o → o.status.numOfDocumentInIndex ≠ count s.world o := by
  intro h
  obtain ⟨-, -, -, -, -, -, hcondemns⟩ := kept_run
  obtain ⟨s', e, o, hstep, hr, ho, heq⟩ := condemned hcondemns
  exact h _ s' e o (reaches_condemned.mono fun _ _ _ => trivial) hstep hr ho (beq_iff_eq.mp heq)

end KaitoAutoIndexer.StaleVerdict
