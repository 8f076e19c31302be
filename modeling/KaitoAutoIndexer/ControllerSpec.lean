import KaitoAutoIndexer.Controller

/-!
What the routines of the controller do when nobody else writes meanwhile: one lemma for each
routine, for calls that may fail and for calls that do not.
-/

namespace KaitoAutoIndexer.ControllerSpec

open KaitoAutoIndexer.Lib KaitoAutoIndexer.Types KaitoAutoIndexer.Conditions
open KaitoAutoIndexer.Cluster KaitoAutoIndexer.Controller

variable {mayFail : Prop} {w : World}

/-- A call that only reads leaves the world alone, whether or not it fails. -/
lemma eq_of_serves_read {c : Call} (hr : (serve w c).2 = w) (hc : ∀ e i, c ≠ .httpDeleteIndex e i)
    {r : Answer c} {w' : World} (h : Serves mayFail w c r w') : w' = w := by
  rcases h with h | ⟨-, -, h | ⟨⟨e, i, rfl⟩, -⟩⟩
  · exact (congrArg Prod.snd h).trans hr
  · exact h
  · exact absurd rfl (hc e i)

@[simp] lemma serves_now {t : Time} {w' : World} :
    Serves mayFail w .now t w' ↔ t = w.clock ∧ w' = w := by
  simp [Serves, serve, Fault]

/-! ### Resources -/

/-- `w'` differs from `w` in the generated objects only. -/
def SameButChildren (w w' : World) : Prop := ∃ cs, w' = { w with children := cs }

@[refl] lemma SameButChildren.refl (w : World) : SameButChildren w w := ⟨w.children, rfl⟩

lemma SameButChildren.trans {u v w : World} (h : SameButChildren u v)
    (h' : SameButChildren v w) : SameButChildren u w := by
  obtain ⟨cs, rfl⟩ := h
  obtain ⟨cs', rfl⟩ := h'
  exact ⟨cs', rfl⟩

lemma sameButChildren_of_create {child : Child} {r : Except ApiError Unit} {w' : World}
    (h : Serves mayFail w (.createChild child) r w') :
    SameButChildren w w' ∧ (¬ mayFail → errOf r = none) := by
  rcases h with h | ⟨hf, -, h⟩
  · cases h
    exact ⟨⟨_, rfl⟩, fun _ => rfl⟩
  · obtain rfl : w' = w := by simpa using h
    exact ⟨.refl _, fun h => absurd hf h⟩

lemma sameButChildren_of_update {child : Child} {r : Except ApiError Unit} {w' : World}
    (h : Serves mayFail w (.updateChild child) r w') :
    SameButChildren w w' ∧ (¬ mayFail → errOf r = none) := by
  rcases h with h | ⟨hf, -, h⟩
  · cases h
    exact ⟨⟨_, rfl⟩, fun _ => rfl⟩
  · obtain rfl : w' = w := by simpa using h
    exact ⟨.refl _, fun h => absurd hf h⟩

lemma serves_getChild {kind : ChildKind} {name : String} {r : Except ApiError Child} {w' : World}
    (h : Serves mayFail w (.getChild kind name) r w') :
    w' = w ∧ (∀ m, r = .error (.other m) → mayFail) ∧ r ≠ .error .conflict := by
  rcases h with h | ⟨hf, ⟨m, rfl⟩, h⟩
  · simp only [serve] at h
    split at h <;> cases h <;> simp
  · obtain rfl : w' = w := by simpa using h
    exact ⟨rfl, fun _ _ => hf, by simp⟩

/-- An object is created or updated if need be, and nothing else changes. -/
lemma ensureChild_runs (desired : Child) (updated : Child → Option Child) (w : World) :
    Runs (Serves mayFail) (fun e w' => SameButChildren w w' ∧ (¬ mayFail → e = none))
      (ensureChild desired updated) w := by
  simp only [ensureChild, ask_bind, runs_ask]
  intro r w' h
  obtain ⟨rfl, hr, hc⟩ := serves_getChild h
  cases r with
  | ok existing =>
    cases hu : updated existing with
    | none => simp [hu, SameButChildren.refl]
    | some child =>
      simp only [hu, runs_ask]
      exact fun r w'' h => sameButChildren_of_update h
  | error e =>
    cases e with
    | notFound => exact fun r w'' h => sameButChildren_of_create h
    | conflict => exact absurd rfl hc
    | other m => exact ⟨.refl _, fun h => absurd (hr m rfl) h⟩

lemma ensureRBACResources_runs (o : AutoIndexer) (w : World) :
    Runs (Serves mayFail) (fun e w' => SameButChildren w w' ∧ (¬ mayFail → e = none))
      (ensureRBACResources o) w := by
  refine (ensureChild_runs _ _ w).bind fun e w1 ⟨h1, he1⟩ => ?_
  cases e with
  | some e => exact ⟨h1, fun h => by simpa using he1 h⟩
  | none =>
    refine (ensureChild_runs _ _ w1).bind fun e w2 ⟨h2, he2⟩ => ?_
    cases e with
    | some e => exact ⟨h1.trans h2, fun h => by simpa using he2 h⟩
    | none =>
      refine (ensureChild_runs _ _ w2).bind fun e w3 ⟨h3, he3⟩ => ?_
      cases e with
      | some e => exact ⟨(h1.trans h2).trans h3, fun h => by simpa using he3 h⟩
      | none => exact ⟨(h1.trans h2).trans h3, fun _ => rfl⟩

lemma ensureCronJob_runs (o : AutoIndexer) (schedule : String) (w : World) :
    Runs (Serves mayFail) (fun e w' => SameButChildren w w' ∧ (¬ mayFail → e = none))
      (ensureCronJob o schedule) w := by
  simp only [ensureCronJob, ask_bind, runs_ask]
  intro image w' h
  obtain rfl := eq_of_serves_read rfl (by simp) h
  exact ensureChild_runs _ _ _

lemma validateRAGEngineRef_runs (o : AutoIndexer) (w : World) :
    Runs (Serves mayFail) (fun e w' => w' = w ∧ (e = none → o.spec.ragEngine ∈ w.ragEngines) ∧
      (¬ mayFail → o.spec.ragEngine ∈ w.ragEngines → e = none)) (validateRAGEngineRef o) w := by
  simp only [validateRAGEngineRef, ask_bind, runs_ask]
  intro r w' h
  obtain rfl := eq_of_serves_read rfl (by simp) h
  rcases h with h | ⟨hf, ⟨m, rfl⟩, -⟩
  · by_cases hw : o.spec.ragEngine ∈ w'.ragEngines
    · simp only [serve, hw, if_true] at h
      cases h
      simp [hw]
    · simp only [serve, hw, if_false] at h
      cases h
      simp [hw]
  · exact ⟨rfl, by simp, fun h => absurd hf h⟩

/-- The object after `setAutoIndexerCondition` at the time `t`. -/
def withCondition (o : AutoIndexer) (type : String) (status : ConditionStatus)
    (reason message : String) (t : Time) : AutoIndexer :=
  o.withStatus { o.status with
    conditions := setCondition ⟨type, status, reason, message, t, o.generation⟩
      o.status.conditions }

@[simp] lemma runs_setAutoIndexerCondition_bind {α : Type} {o : AutoIndexer} {type : String}
    {status : ConditionStatus} {reason message : String} {f : AutoIndexer → Go α}
    {post : α → World → Prop} :
    Runs (Serves mayFail) post (setAutoIndexerCondition o type status reason message >>= f) w ↔
      Runs (Serves mayFail) post (f (withCondition o type status reason message w.clock)) w := by
  simp [setAutoIndexerCondition, withCondition]

/-- The object after `ensureRequiredResources` has found or made everything. -/
def withResources (o : AutoIndexer) (t : Time) : AutoIndexer :=
  withCondition (withCondition o errorType .false "ResourcesEnsured" "" t) resourceType .true
    "ResourcesEnsured" "All required resources are ensured" t

lemma ensureRequiredResources_runs (o : AutoIndexer) (w : World) :
    Runs (Serves mayFail) (fun r w' => SameButChildren w w' ∧
        (r.2 = none → r.1 = withResources o w.clock) ∧
        (¬ mayFail → o.spec.ragEngine ∈ w.ragEngines → r.2 = none))
      (ensureRequiredResources o) w := by
  refine (validateRAGEngineRef_runs o w).bind fun e w1 ⟨h1, _, he1⟩ => ?_
  subst h1
  cases e with
  | some e =>
    simp only [resourceFailure, runs_setAutoIndexerCondition_bind]
    exact ⟨.refl _, by simp, fun h h' => by simpa using he1 h h'⟩
  | none =>
    refine (ensureRBACResources_runs o w1).bind fun e w2 ⟨h2, he2⟩ => ?_
    cases e with
    | some e =>
      simp only [resourceFailure, runs_setAutoIndexerCondition_bind]
      exact ⟨h2, by simp, fun h _ => by simpa using he2 h⟩
    | none =>
      refine Runs.bind (Q := fun e w' => SameButChildren w2 w' ∧ (¬ mayFail → e = none)) ?_
        fun e w3 ⟨h3, he3⟩ => ?_
      · cases o.spec.schedule with
        | some schedule => exact ensureCronJob_runs o schedule w2
        | none => exact ⟨.refl _, fun _ => rfl⟩
      cases e with
      | some e =>
        simp only [resourceFailure, runs_setAutoIndexerCondition_bind]
        exact ⟨h2.trans h3, by simp, fun h _ => by simpa using he3 h⟩
      | none =>
        simp only [runs_setAutoIndexerCondition_bind]
        have hclock : w3.clock = w1.clock := by
          obtain ⟨_, rfl⟩ := h2.trans h3
          rfl
        exact ⟨h2.trans h3, fun _ => by rw [hclock]; rfl, fun _ _ => rfl⟩

/-! ### Jobs and indexes -/

lemma getJobStatus_runs (w : World) :
    Runs (Serves mayFail) (fun r w' => w' = w ∧ (∀ s, r = .ok s → s = scanJobs w.jobs) ∧
      (¬ mayFail → r = .ok (scanJobs w.jobs))) getJobStatus w := by
  simp only [getJobStatus, ask_bind, runs_ask]
  intro r w' h
  obtain rfl := eq_of_serves_read rfl (by simp) h
  rcases h with h | ⟨hf, ⟨m, rfl⟩, -⟩
  · cases h
    simp
  · exact ⟨rfl, by simp, fun h => absurd hf h⟩

/-- What holds of every attempt, from states with `J`, holds of the attempts together. -/
lemma retry_runs {α : Type} {attempt : Go (Except String α)} {J : World → Prop}
    {Q : Except String α → World → Prop}
    (h : ∀ w, J w → Runs (Serves mayFail) (fun r w' => J w' ∧ Q r w') attempt w) (n : ℕ) :
    ∀ w, J w → Runs (Serves mayFail) (fun r w' => J w' ∧ Q r w') (retry attempt n) w := by
  induction n with
  | zero => exact h
  | succ n ih =>
    intro w hw
    refine (h w hw).bind fun r w' hr => ?_
    cases r with
    | ok a => exact hr
    | error e => exact ih w' hr.1

/-- The names of the indexes at an endpoint. -/
def indexNames (w : World) (endpoint : String) : List String :=
  (w.indexes.filter (·.endpoint == endpoint)).map Index.name

lemma listIndexes_runs (ragEngine ns : String) (w : World) :
    Runs (Serves mayFail) (fun r w' => w' = w ∧
      (∀ names, r = .ok names → names = indexNames w (generateRAGEngineEndpoint ragEngine ns)) ∧
      (¬ mayFail → ∃ names, r = .ok names)) (listIndexes ragEngine ns) w := by
  refine (retry_runs (J := (· = w)) (Q := fun r _ =>
    (∀ names, r = .ok names → names = indexNames w (generateRAGEngineEndpoint ragEngine ns)) ∧
      (¬ mayFail → ∃ names, r = .ok names)) ?_ maxRetries w rfl).bind ?_
  · rintro _ rfl
    refine fun r w' h => ?_
    obtain rfl := eq_of_serves_read rfl (by simp) h
    rcases h with h | ⟨hf, ⟨m, rfl⟩, -⟩
    · cases h
      exact ⟨rfl, fun names h => by cases h; rfl, fun _ => ⟨_, rfl⟩⟩
    · exact ⟨rfl, by simp, fun h => absurd hf h⟩
  · rintro r w' ⟨rfl, h1, h2⟩
    cases r with
    | ok names => exact ⟨rfl, h1, fun _ => ⟨_, rfl⟩⟩
    | error e => exact ⟨rfl, by simp, fun h => by simpa using h2 h⟩

@[simp] lemma deleteIndex_deleteIndex (w : World) (e i : String) :
    (w.deleteIndex e i).deleteIndex e i = w.deleteIndex e i := by
  simp [World.deleteIndex, List.filter_filter]

lemma serve_httpDeleteIndex_snd (w : World) (e i : String) :
    (serve w (.httpDeleteIndex e i)).2 = w.deleteIndex e i := by
  by_cases h : w.indexes.any (Index.at e i) = true
  · simp [serve, h]
  · have hall : ∀ x ∈ w.indexes, (!x.at e i) = true := by
      intro x hx
      by_contra hc
      exact h (List.any_eq_true.mpr ⟨x, hx, by simpa using hc⟩)
    simp only [serve, h, World.deleteIndex, List.filter_eq_self.mpr hall]
    rfl

/-- The index is gone when the deletion reports success, and may be gone when it does not. -/
lemma deleteIndex_runs (ragEngine index ns : String) (w : World) :
    let e := generateRAGEngineEndpoint ragEngine ns
    Runs (Serves mayFail) (fun r w' => (w' = w ∨ w' = w.deleteIndex e index) ∧
      (r = none → w' = w.deleteIndex e index) ∧ (¬ mayFail → r = none))
      (deleteIndex ragEngine index ns) w := by
  intro e
  refine (retry_runs (J := fun w' => w' = w ∨ w' = w.deleteIndex e index)
    (Q := fun r w' => (∀ u, r = .ok u → w' = w.deleteIndex e index) ∧
      (¬ mayFail → ∃ u, r = .ok u)) ?_ maxRetries w (.inl rfl)).bind ?_
  · intro v hv
    have hdel : v.deleteIndex e index = w.deleteIndex e index := by
      rcases hv with rfl | rfl <;> simp
    simp only [deleteIndexAttempt, ask_bind, runs_ask]
    intro r v' h
    rcases h with h | ⟨hf, hfault, h⟩
    · have hv' : v' = w.deleteIndex e index := by
        rw [← hdel, ← serve_httpDeleteIndex_snd]
        exact congrArg Prod.snd h
      have hr : r = .ok 200 ∨ r = .ok 404 := by
        have hr := congrArg Prod.fst h
        simp only [serve] at hr
        split at hr
        · exact .inl hr
        · exact .inr hr
      rcases hr with rfl | rfl <;> exact ⟨.inr hv', fun _ _ => hv', fun _ => ⟨(), rfl⟩⟩
    · have hv' : v' = w ∨ v' = w.deleteIndex e index := by
        rcases h with rfl | ⟨⟨_, _, hc⟩, rfl⟩
        · exact hv
        · rw [serve_httpDeleteIndex_snd, hdel]
          exact .inr rfl
      rcases hfault with ⟨m, rfl⟩ | ⟨n, hn, hn', rfl⟩
      · exact ⟨hv', by simp, fun h => absurd hf h⟩
      · simp only [hn, hn', ne_eq, not_false_eq_true, and_self, if_true]
        exact ⟨hv', by simp, fun h => absurd hf h⟩
  · rintro r w' ⟨h1, h2, h3⟩
    cases r with
    | ok u => exact ⟨h1, fun _ => h2 u rfl, fun _ => rfl⟩
    | error m => exact ⟨h1, by simp, fun h => by simpa using h3 h⟩

/-! ### The object and its patches -/

lemma serves_patch {o original modified : AutoIndexer} (hw : w.stored = some o)
    {r : Except ApiError AutoIndexer} {w' : World}
    (h : Serves mayFail w (.patch original modified) r w') :
    (∀ e, r = .error e → mayFail ∧ w' = w) ∧ ∀ o', r = .ok o' →
      o' = accept o (mergeMain original modified o) ∧ w' = { w with stored := some o' } := by
  rcases h with h | ⟨hf, ⟨m, rfl⟩, h⟩
  · simp only [serve, hw] at h
    cases h
    simp
  · obtain rfl : w' = w := by simpa using h
    simp [hf]

lemma serves_patchStatus {s original modified : AutoIndexer} (hw : w.stored = some s)
    (hrv : original.resourceVersion = modified.resourceVersion ∨
      s.resourceVersion = modified.resourceVersion)
    {r : Except ApiError Unit} {w' : World}
    (h : Serves mayFail w (.patchStatus original modified) r w') :
    (∀ e, r = .error e → mayFail ∧ w' = w) ∧ ∀ u, r = .ok u →
      w' = { w with stored := some (accept s
        (s.withStatus (mergeStatus original.status modified.status s.status))) } := by
  rcases h with h | ⟨hf, ⟨m, rfl⟩, h⟩
  · have hc : ¬ (original.resourceVersion ≠ modified.resourceVersion ∧
        s.resourceVersion ≠ modified.resourceVersion) := by tauto
    simp only [serve, hw, hc, if_false] at h
    cases h
    simp
  · obtain rfl : w' = w := by simpa using h
    simp [hf]

/-- `o'` is `o` with other finalizers, and another resource version. -/
structure SameObject (o o' : AutoIndexer) : Prop where
  name : o'.name = o.name
  namespace_ : o'.namespace_ = o.namespace_
  deletionTimestamp : o'.deletionTimestamp = o.deletionTimestamp
  annotations : o'.annotations = o.annotations
  spec : o'.spec = o.spec
  status : o'.status = o.status

lemma SameObject.refl (o : AutoIndexer) : SameObject o o := ⟨rfl, rfl, rfl, rfl, rfl, rfl⟩

lemma ensureFinalizer_runs {o : AutoIndexer} (hw : w.stored = some o) :
    Runs (Serves mayFail) (fun r w' => (r.2 = none → SameObject o r.1 ∧
      w' = { w with stored := some r.1 }) ∧ (¬ mayFail → r.2 = none)) (ensureFinalizer o) w := by
  unfold ensureFinalizer
  split
  · exact ⟨fun _ => ⟨.refl o, by rw [← hw]⟩, fun _ => rfl⟩
  · simp only [ask_bind, runs_ask]
    intro r w' h
    obtain ⟨h1, h2⟩ := serves_patch hw h
    cases r with
    | error e => exact ⟨by simp, fun h => absurd (h1 e rfl).1 h⟩
    | ok o' =>
      obtain ⟨rfl, rfl⟩ := h2 o' rfl
      refine ⟨fun _ => ⟨?_, rfl⟩, fun _ => rfl⟩
      constructor <;> simp [mergeMain_original]

/-- The status in memory gets stored; the rest of the stored object stays. -/
lemma patchAndReturn_runs {o original s : AutoIndexer} {e : Err} (hw : w.stored = some s)
    (hs : s.status = original.status)
    (hrv : original.resourceVersion = o.resourceVersion ∨
      s.resourceVersion = o.resourceVersion) :
    Runs (Serves mayFail) (fun r w' => (r = none → e = none ∧ ∃ s', s'.status = o.status ∧
      s'.spec = s.spec ∧ s'.annotations = s.annotations ∧ s'.name = s.name ∧
      s'.namespace_ = s.namespace_ ∧ w' = { w with stored := some s' }) ∧
      (¬ mayFail → r = e)) (patchAndReturn o original e) w := by
  unfold patchAndReturn
  split
  · simp only [ask_bind, runs_ask]
    intro r w' h
    obtain ⟨h1, h2⟩ := serves_patchStatus hw hrv h
    cases r with
    | error m => exact ⟨by simp, fun h => absurd (h1 m rfl).1 h⟩
    | ok u =>
      refine ⟨fun he => ⟨he, _, ?_, ?_, ?_, ?_, ?_, h2 u rfl⟩, fun _ => rfl⟩ <;>
        simp [AutoIndexer.withStatus, hs]
  · rename_i ho
    refine ⟨fun he => ⟨he, s, ?_, rfl, rfl, rfl, rfl, by rw [← hw]⟩, fun _ => rfl⟩
    rw [hs]
    exact not_not.mp ho

/-! ### A reconcile, given its phase handler -/

/-- The object after a handler that did not fail. -/
def settled (o : AutoIndexer) (t : Time) : AutoIndexer :=
  withCondition (withCondition o errorType .false "ReconcileSucceeded" "" t) resourceType .true
    "ReconcileSucceeded" "" t

/-- What a phase handler leaves when it does not fail: the stored object `s`, whose status is
still the one the reconcile began with, so that the closing patch stores what is in memory. -/
def Handled (o : AutoIndexer) (R : AutoIndexer → AutoIndexer → World → Prop) (m : AutoIndexer)
    (w : World) : Prop :=
  ∃ s, w.stored = some s ∧ s.status = o.status ∧
    (o.resourceVersion = m.resourceVersion ∨ s.resourceVersion = m.resourceVersion) ∧ R m s w

/-- What a reconcile leaves then: the stored object `s` gets the status in memory. -/
def Reconciled (R : AutoIndexer → AutoIndexer → World → Prop) (w : World) : Prop :=
  ∃ m s s' w1, R m s w1 ∧ s'.status = (settled m w1.clock).status ∧ s'.spec = s.spec ∧
    s'.annotations = s.annotations ∧ s'.name = s.name ∧ s'.namespace_ = s.namespace_ ∧
    w = { w1 with stored := some s' }

lemma syncAutoIndexer_runs {o : AutoIndexer} (hw : w.stored = some o)
    {R : AutoIndexer → AutoIndexer → World → Prop}
    (h : ∀ w1, SameButChildren w w1 → Runs (Serves mayFail) (fun r w' =>
      (r.2 = none → Handled o R r.1 w') ∧ (¬ mayFail → r.2 = none))
      (handlePhase (withResources o w.clock)) w1) :
    Runs (Serves mayFail) (fun e w' => (e = none → Reconciled R w') ∧
      (¬ mayFail → o.spec.ragEngine ∈ w.ragEngines → e = none)) (syncAutoIndexer o) w := by
  refine (ensureRequiredResources_runs o w).bind ?_
  rintro ⟨m, e⟩ w1 ⟨hw1, hm, he⟩
  have hs1 : w1.stored = some o := by
    obtain ⟨_, rfl⟩ := hw1
    exact hw
  cases e with
  | some e =>
    refine (Runs.mono (Q := fun r _ => r ≠ none) ?_ fun r w' hr => ⟨fun h => absurd h hr, ?_⟩)
    · simp only [patchAndReturn]
      split
      · simp only [ask_bind, runs_ask]
        rintro (_ | _) w' - <;> simp
      · simp
    · exact fun h h' => by simpa using he h h'
  | none =>
    obtain rfl : m = withResources o w.clock := hm rfl
    refine (h w1 hw1).bind ?_
    rintro ⟨m, e⟩ w2 ⟨hm2, he2⟩
    cases e with
    | some e =>
      simp only [runs_setAutoIndexerCondition_bind]
      refine (Runs.mono (Q := fun r _ => r ≠ none) ?_ fun r w' hr => ⟨fun h => absurd h hr, ?_⟩)
      · simp only [patchAndReturn]
        split
        · simp only [ask_bind, runs_ask]
          rintro (_ | _) w' - <;> simp
        · simp
      · exact fun h _ => by simpa using he2 h
    | none =>
      simp only [runs_setAutoIndexerCondition_bind]
      obtain ⟨s, hs, hst, hrv, hR⟩ := hm2 rfl
      refine (patchAndReturn_runs (o := settled m w2.clock) hs hst hrv).mono ?_
      rintro r w' ⟨h1, h2⟩
      refine ⟨fun hr => ?_, fun h _ => h2 h⟩
      obtain ⟨-, s', hs', hsp, han, hn, hns, rfl⟩ := h1 hr
      exact ⟨m, s, s', w2, hR, hs', hsp, han, hn, hns, rfl⟩

lemma reconcile_runs {o : AutoIndexer} (hw : w.stored = some o) (hd : o.deletionTimestamp = none)
    {R : AutoIndexer → AutoIndexer → World → Prop}
    (h : ∀ o1 w1, SameObject o o1 → SameButChildren { w with stored := some o1 } w1 →
      Runs (Serves mayFail) (fun r w' => (r.2 = none → Handled o1 R r.1 w') ∧
        (¬ mayFail → r.2 = none)) (handlePhase (withResources o1 w.clock)) w1) :
    Runs (Serves mayFail) (fun e w' => (e = none → Reconciled R w') ∧
      (¬ mayFail → o.spec.ragEngine ∈ w.ragEngines → e = none)) reconcile w := by
  simp only [reconcile, ask_bind, runs_ask]
  intro r w' hr
  have hw' : w' = w := by
    refine eq_of_serves_read ?_ (by simp) hr
    simp [serve, hw]
  subst hw'
  rcases hr with hr | ⟨hf, ⟨m, rfl⟩, -⟩
  · simp only [serve, hw] at hr
    cases hr
    simp only [reconcileObject, AutoIndexer.deleting, hd, Option.isSome_none, Bool.false_eq_true,
      if_false]
    refine (ensureFinalizer_runs hw).bind ?_
    rintro ⟨o1, e⟩ w1 ⟨h1, he1⟩
    cases e with
    | some e => exact ⟨by simp, fun h _ => by simpa using he1 h⟩
    | none =>
      obtain ⟨ho1, rfl⟩ := h1 rfl
      rw [← ho1.spec]
      exact syncAutoIndexer_runs rfl fun w1 => h o1 w1 ho1
  · exact ⟨by simp, fun h => absurd hf h⟩

/-! ### A cluster to evaluate the controller in -/

/-- An AutoIndexer of a Git repository, without a schedule. -/
def demo : AutoIndexer where
  name := "docs"
  namespace_ := "default"
  uid := "u1"
  generation := 1
  resourceVersion := 1
  deletionTimestamp := none
  finalizers := [autoIndexerFinalizer]
  annotations := ⟨none, none, none⟩
  spec :=
    { ragEngine := "rag"
      indexName := "index"
      dataSource := ⟨.git, some ⟨"https://host/repo", "main", none, [], []⟩, none, none⟩
      credentials := none
      schedule := none
      suspend := none
      driftRemediationPolicy := none }
  status := ⟨none, none, 0, .running, 0, 0, 0, []⟩

def demoTemplate : JobTemplate := generateJobTemplate demo "image"

def demoWorld : World where
  stored := some demo
  ragEngines := ["rag"]
  children := []
  jobs := []
  indexes := []
  image := "image"
  clock := 1000000

end KaitoAutoIndexer.ControllerSpec
