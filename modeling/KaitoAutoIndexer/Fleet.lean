import KaitoAutoIndexer.SystemSteps

/-!
Any number of AutoIndexers. Reconciles of different ones run side by side, each has the pods of its
own Jobs, and one detector lists all of them and then checks them one after the other. Around each
of them this looks like the system of one AutoIndexer.
-/

namespace KaitoAutoIndexer.Fleet

open KaitoAutoIndexer.Lib KaitoAutoIndexer.Types KaitoAutoIndexer.Cluster
open KaitoAutoIndexer.Controller KaitoAutoIndexer.Detector KaitoAutoIndexer.JobClient
open KaitoAutoIndexer.System KaitoAutoIndexer.ControllerCalls

/-! ### The cluster -/

/-- What the API server knows an AutoIndexer by. -/
structure Key where
  namespace_ : String
  name : String
  deriving DecidableEq

def key (o : AutoIndexer) : Key := ⟨o.namespace_, o.name⟩

/-- The RAG engines and the generated objects of each namespace, and the AutoIndexers with the Jobs
that carry their labels. -/
structure Cluster where
  objects : Key → Option AutoIndexer
  jobs : Key → List Job
  ragEngines : String → List String
  children : String → List Child
  indexes : List Index
  image : String
  clock : Time

/-- What there is around one AutoIndexer. -/
def Cluster.view (F : Cluster) (k : Key) : World where
  stored := F.objects k
  ragEngines := F.ragEngines k.namespace_
  children := F.children k.namespace_
  jobs := F.jobs k
  indexes := F.indexes
  image := F.image
  clock := F.clock

/-- The cluster with the surroundings of one AutoIndexer changed. -/
def Cluster.put (F : Cluster) (k : Key) (w : World) : Cluster where
  objects := Function.update F.objects k w.stored
  jobs := Function.update F.jobs k w.jobs
  ragEngines := Function.update F.ragEngines k.namespace_ w.ragEngines
  children := Function.update F.children k.namespace_ w.children
  indexes := w.indexes
  image := w.image
  clock := w.clock

variable {F F' : Cluster} {k k' : Key} {w : World}

@[simp] lemma view_put (F : Cluster) (k : Key) (w : World) : (F.put k w).view k = w := by
  simp [Cluster.put, Cluster.view]

/-- What all AutoIndexers share. -/
def Cluster.shared (F : Cluster) : World := ⟨none, [], [], [], F.indexes, F.image, F.clock⟩

/-- The services of the cluster for the detector: a listing has every AutoIndexer once, in some
order, an update goes to the AutoIndexer it names, and the other calls only read what is shared. -/
def DetectorServes : Service Cluster Call Answer
  | F, .list, r, F' => F' = F ∧ ((∃ m, r = .error (.other m)) ∨
      ∃ items, r = .ok items ∧ ∀ k, items.filter (key · = k) = (F.objects k).toList)
  | F, .update obj, r, F' =>
    ∃ w, Serves True (F.view (key obj)) (.update obj) r w ∧ F' = F.put (key obj) w
  | F, c, r, F' => F' = F ∧ Serves True F.shared c r F.shared

/-- A reconciler and a pod for each AutoIndexer, and one detector. -/
inductive Party
  | controller (k : Key)
  | detector
  | job (k : Key)
  deriving DecidableEq

abbrev Party.Calls : Party → Type
  | .controller _ => Call
  | .detector => Call
  | .job _ => JobCall

abbrev Party.Answers : (i : Party) → i.Calls → Type
  | .controller _, c => Answer c
  | .detector, c => Answer c
  | .job _, c => JobAnswer c

abbrev Party.Result : Party → Type
  | .controller _ => Err
  | .detector => Unit
  | .job _ => Option Bool

abbrev fleet : System Party Cluster where
  Calls := Party.Calls
  Answers := Party.Answers
  Result := Party.Result
  Act := Key × Act
  starts
    | .controller _, p => p = reconcile
    | .detector, p => p = performDriftCheck
    | .job _, p => ∃ r, p = Job.main r
  serve
    | .controller k => fun F c r F' => ∃ w, Serves True (F.view k) c r w ∧ F' = F.put k w
    | .detector => DetectorServes
    | .job k => fun F c r F' => ∃ w, JobServes True (F.view k) c r w ∧ F' = F.put k w
  env := fun a F F' => ∃ w, Env a.2 (F.view a.1) w ∧ F' = F.put a.1 w

/-! ### The part of a check -/

/-- The call is about the AutoIndexer, or about none. -/
def Near (k : Key) : Call → Prop
  | .list | .now => True
  | .httpGetDocumentCount _ _ _ => True
  | .update obj => key obj = k
  | _ => False

/-- The call says nothing of the AutoIndexer. -/
def Elsewhere (k : Key) : Call → Prop
  | .now => True
  | .httpGetDocumentCount _ _ _ => True
  | .update obj => key obj ≠ k
  | _ => False

/-- What an answer says of the AutoIndexer. -/
def restrict (k : Key) : (c : Call) → Answer c → Answer c
  | .list, .ok items => .ok (items.filter (key · = k))
  | _, r => r

/-- The second program is what the first one does about the AutoIndexer. -/
def Part (k : Key) : Go Unit → Go Unit → Prop
  | .ret _, q => q = .ret ()
  | .ask c f, q => (Elsewhere k c ∧ ∀ r, Part k (f r) q) ∨
      ∃ g, Near k c ∧ q = .ask c g ∧ ∀ r, Part k (f r) (g (restrict k c r))

/-- A call of the check of an AutoIndexer. -/
def Checks (k : Key) : Call → Prop
  | .now => True
  | .httpGetDocumentCount _ _ _ => True
  | .update obj => key obj = k
  | _ => False

lemma checks_checkAutoIndexerDrift (o : AutoIndexer) :
    Obeys (Checks (key o)) (fun _ => True) (checkAutoIndexerDrift o) := by
  have hattempt : Obeys (Checks (key o)) (fun _ => True)
      (ask (.httpGetDocumentCount (generateRAGEngineEndpoint o.spec.ragEngine o.namespace_)
        o.spec.indexName o.tag)) := ⟨trivial, fun _ => trivial⟩
  have hcount : Obeys (Checks (key o)) (fun _ => True)
      (getDocumentCount o.spec.ragEngine o.spec.indexName o.name o.namespace_) :=
    (obeys_retry hattempt _).bind fun r _ => by cases r <;> trivial
  unfold checkAutoIndexerDrift
  extract_lets result
  repeat' split
  · trivial
  · trivial
  · trivial
  · trivial
  · exact hcount.bind fun r _ => by cases r <;> trivial

lemma checks_checkAndMark (o : AutoIndexer) :
    Obeys (Checks (key o)) (fun _ => True) (checkAndMark o) := by
  refine (checks_checkAutoIndexerDrift o).bind fun result _ => ?_
  have hdetected : Obeys (Checks (key o)) (fun _ => True) (setDriftDetected o) :=
    ⟨trivial, fun _ => ⟨rfl, fun _ => trivial⟩⟩
  have hremediated : Obeys (Checks (key o)) (fun _ => True) (setDriftRemediated o) := by
    unfold setDriftRemediated
    extract_lets mark
    split
    · trivial
    · exact ⟨rfl, fun _ => trivial⟩
  split
  · exact hdetected.bind fun _ _ => trivial
  · exact hremediated.bind fun _ _ => trivial

section

variable {α : Type} {P : α → Prop} {p : Go α}

lemma part_bind {f g : α → Go Unit} (h : Obeys (Checks k) P p) (hf : ∀ a, Part k (f a) (g a)) :
    Part k (p >>= f) (p >>= g) := by
  induction p with
  | ret a => exact hf a
  | ask c p ih =>
    obtain ⟨hc, hp⟩ := h
    refine .inr ⟨fun r => p r >>= g, ?_, rfl, fun r => ?_⟩
    · cases c <;> first | exact hc.elim | exact hc
    · have hr : restrict k c r = r := by
        cases c <;> first | exact hc.elim | rfl
      rw [hr]
      exact ih r (hp r)

/-- The check of another AutoIndexer is no part. -/
lemma part_bind_of_ne {f : α → Go Unit} {q : Go Unit} (hk : k' ≠ k) (h : Obeys (Checks k') P p)
    (hf : ∀ a, Part k (f a) q) : Part k (p >>= f) q := by
  induction p with
  | ret a => exact hf a
  | ask c p ih =>
    obtain ⟨hc, hp⟩ := h
    refine .inl ⟨?_, fun r => ih r (hp r)⟩
    cases c with
    | now => trivial
    | httpGetDocumentCount e i a => trivial
    | update obj =>
      have hc : key obj = k' := hc
      exact fun h => hk (hc.symm.trans h)
    | _ => exact hc.elim

end

/-- Of a check of all AutoIndexers the check of this one is a part. -/
lemma part_checkAll (k : Key) (items : List AutoIndexer) :
    Part k (checkAll items) (checkAll (items.filter (key · = k))) := by
  induction items with
  | nil => rfl
  | cons o items ih =>
    by_cases hk : key o = k
    · subst hk
      rw [List.filter_cons_of_pos (by simp)]
      exact part_bind (checks_checkAndMark o) fun _ => ih
    · rw [List.filter_cons_of_neg (by simpa using hk)]
      exact part_bind_of_ne hk (checks_checkAndMark o) fun _ => ih

lemma part_performDriftCheck (k : Key) : Part k performDriftCheck performDriftCheck := by
  refine .inr ⟨_, trivial, rfl, fun r => ?_⟩
  cases r with
  | error e => rfl
  | ok items => exact part_checkAll k items

/-! ### The cluster around one AutoIndexer -/

/-- A thread of the detector of one AutoIndexer does its part of what the detector of all does. -/
def Follows (k : Key) : Option (Go Unit) → Option (Go Unit) → Prop
  | none, none => True
  | some p, some q => Part k p q
  | _, _ => False

variable {G H : Type} {obs : fleet.Observer H} {obs' : system.Observer G}

/-- The second configuration is what is seen of the first from one AutoIndexer. -/
structure Sees (k : Key) (s : fleet.Config H) (s' : system.Config G) : Prop where
  world : s'.world = s.world.view k
  controller : s'.threads .controller = s.threads (.controller k)
  job : s'.threads .job = s.threads (.job k)
  detector : Follows k (s.threads .detector) (s'.threads .detector)

lemma clock_of_serves {w w' : World} {c : Call} {r : Answer c} (h : Serves True w c r w') :
    w'.clock = w.clock := by
  rcases h with h | ⟨-, -, rfl | ⟨⟨e, i, rfl⟩, rfl⟩⟩
  · obtain rfl : w' = (serve w c).2 := congrArg Prod.snd h
    cases c <;> simp only [serve] <;> (repeat' split) <;> rfl
  · rfl
  · simp only [serve]
    split <;> rfl

lemma clock_of_jobServes {w w' : World} {c : JobCall} {r : JobAnswer c} (h : JobServes True w c r w') :
    w'.clock = w.clock := by
  cases c with
  | now => exact congrArg World.clock h.2
  | getAutoIndexer => exact congrArg World.clock h.1
  | patchStatus body =>
    rcases h with h | ⟨-, rfl, -⟩
    · have hw' : w' = (patchJobStatus w body).2 := congrArg Prod.snd h
      rw [hw']
      unfold patchJobStatus
      (repeat' split) <;> rfl
    · rfl
  | rag t q =>
    obtain ⟨s, -, rfl⟩ := h
    unfold putStore
    split <;> rfl
  | kusto q => exact congrArg World.clock h
  | fetch url => exact congrArg World.clock h

/-- What happens around another AutoIndexer is an act of others. -/
lemma steps_of_put {s' : system.Config G} (hw : s'.world = F.view k) (h : k' ≠ k)
    (hclock : F.clock ≤ w.clock) : ∃ s₁', System.Steps obs' s' s₁' ∧ s₁'.world = (F.put k' w).view k ∧
      s₁'.threads = s'.threads := by
  have hpasses : Env (.passes w.clock) s'.world { s'.world with clock := w.clock } :=
    .passes (hw ▸ hclock)
  have hothers : Env (.others ((F.put k' w).view k).ragEngines w.indexes
      ((F.put k' w).view k).children w.image) { s'.world with clock := w.clock }
      ((F.put k' w).view k) := by
    have hview : (F.put k' w).view k = { s'.world with
        ragEngines := ((F.put k' w).view k).ragEngines, indexes := w.indexes
        children := ((F.put k' w).view k).children, image := w.image, clock := w.clock } := by
      rw [hw]
      simp [Cluster.put, Cluster.view, Function.update_of_ne h.symm]
    nth_rewrite 3 [hview]
    exact .others
  exact ⟨_, .tail (.tail .refl ⟨_, .act hpasses⟩) ⟨_, .act hothers⟩, rfl, rfl⟩

/-- What the detector reads of what is shared, it reads around every AutoIndexer. -/
lemma serves_of_shared {c : Call} {r : Answer c} (hc : Checks k c) (hu : ∀ obj, c ≠ .update obj)
    (h : Serves True F.shared c r F.shared) : Serves True (F.view k) c r (F.view k) := by
  cases c with
  | now =>
    obtain ⟨rfl, -⟩ := ControllerSpec.serves_now.mp h
    exact ControllerSpec.serves_now.mpr ⟨rfl, rfl⟩
  | httpGetDocumentCount e i a =>
    rcases h with h | ⟨-, hf, -⟩
    · left
      have hr : r = _ := congrArg Prod.fst h
      rw [hr]
      simp only [serve]
      by_cases hi : F.shared.indexes.any (Index.at e i) = true
      · have hi' : (F.view k).indexes.any (Index.at e i) = true := hi
        rw [if_pos hi, if_pos hi']
        rfl
      · have hi' : ¬ (F.view k).indexes.any (Index.at e i) = true := hi
        rw [if_neg hi, if_neg hi']
    · exact .inr ⟨trivial, hf, .inl rfl⟩
  | update obj => exact absurd rfl (hu obj)
  | _ => exact hc.elim

/-- A step of the detector of all AutoIndexers, around one of them. -/
lemma steps_of_detector {s' : system.Config G} {c : Call} {f : Answer c → Go Unit} {r : Answer c}
    {q : Go Unit} (hw : s'.world = F.view k) (hq : s'.threads .detector = some q)
    (hp : Part k (.ask c f) q) (hs : DetectorServes F c r F') :
    ∃ s₁' q', System.Steps obs' s' s₁' ∧ s₁'.world = F'.view k ∧ Part k (f r) q' ∧
      s₁'.threads = Function.update s'.threads .detector (some q') := by
  have hself : Function.update s'.threads .detector (some q) = s'.threads := by
    rw [← hq, Function.update_eq_self]
  rcases hp with ⟨hc, hpart⟩ | ⟨g, hc, rfl, hpart⟩
  · cases c with
    | now =>
      obtain ⟨rfl, -⟩ := hs
      exact ⟨s', q, .refl, hw, hpart r, hself.symm⟩
    | httpGetDocumentCount e i a =>
      obtain ⟨rfl, -⟩ := hs
      exact ⟨s', q, .refl, hw, hpart r, hself.symm⟩
    | update obj =>
      obtain ⟨w, hs, rfl⟩ := hs
      obtain ⟨s₁', hsteps, hw', hthreads⟩ : ∃ s₁', System.Steps obs' s' s₁' ∧
          s₁'.world = (F.put (key obj) w).view k ∧ s₁'.threads = s'.threads :=
        steps_of_put hw hc (clock_of_serves hs).ge
      exact ⟨s₁', q, hsteps, hw', hpart r, hthreads.trans hself.symm⟩
    | _ => exact hc.elim
  · have hcall : ∀ {r' : Answer c} {w : World}, Serves True (F.view k) c r' w → w = F'.view k →
        Part k (f r) (g r') → ∃ s₁' q', System.Steps obs' s' s₁' ∧ s₁'.world = F'.view k ∧
          Part k (f r) q' ∧ s₁'.threads = Function.update s'.threads .detector (some q') := by
      intro r' w hserve hw' hpart
      rw [← hw] at hserve
      exact ⟨_, g r', .single ⟨_, .call (i := .detector) hq hserve⟩, hw', hpart, rfl⟩
    cases c with
    | list =>
      obtain ⟨rfl, ⟨m, rfl⟩ | ⟨items, rfl, hitems⟩⟩ := hs
      · exact hcall (.inr ⟨trivial, ⟨m, rfl⟩, .inl rfl⟩) rfl (hpart _)
      · refine hcall (.inl ?_) rfl (hpart _)
        simp only [restrict, hitems k]
        rfl
    | now =>
      obtain ⟨rfl, hs⟩ := hs
      exact hcall (serves_of_shared trivial (by simp) hs) rfl (hpart _)
    | httpGetDocumentCount e i a =>
      obtain ⟨rfl, hs⟩ := hs
      exact hcall (serves_of_shared trivial (by simp) hs) rfl (hpart _)
    | update obj =>
      obtain ⟨w, hs, rfl⟩ := hs
      obtain rfl : key obj = k := hc
      exact hcall hs (view_put _ _ _).symm (hpart _)
    | _ => exact hc.elim

variable {s s₁ : fleet.Config H} {s' : system.Config G}

lemma Sees.of_controller {t : Option (Go Err)} {s₁' : system.Config G} (h : Sees k s s')
    (hw : s₁'.world = s₁.world.view k)
    (ht : s₁.threads = Function.update s.threads (.controller k) t)
    (ht' : s₁'.threads = Function.update s'.threads .controller t) : Sees k s₁ s₁' := by
  obtain ⟨-, -, hjob, hdetector⟩ := h
  refine ⟨hw, ?_, ?_, ?_⟩
  · simp [ht, ht']
  · simpa [ht, ht'] using hjob
  · simpa [ht, ht'] using hdetector

lemma Sees.of_job {t : Option (Py (Option Bool))} {s₁' : system.Config G} (h : Sees k s s')
    (hw : s₁'.world = s₁.world.view k)
    (ht : s₁.threads = Function.update s.threads (.job k) t)
    (ht' : s₁'.threads = Function.update s'.threads .job t) : Sees k s₁ s₁' := by
  obtain ⟨-, hcontroller, -, hdetector⟩ := h
  refine ⟨hw, ?_, ?_, ?_⟩
  · simpa [ht, ht'] using hcontroller
  · simp [ht, ht']
  · simpa [ht, ht'] using hdetector

lemma Sees.of_detector {t t' : Option (Go Unit)} {s₁' : system.Config G} (h : Sees k s s')
    (hw : s₁'.world = s₁.world.view k) (ht : s₁.threads = Function.update s.threads .detector t)
    (ht' : s₁'.threads = Function.update s'.threads .detector t') (hf : Follows k t t') :
    Sees k s₁ s₁' := by
  obtain ⟨-, hcontroller, hjob, -⟩ := h
  refine ⟨hw, ?_, ?_, ?_⟩
  · simpa [ht, ht'] using hcontroller
  · simpa [ht, ht'] using hjob
  · simpa [ht, ht'] using hf

/-- The threads of other AutoIndexers are not seen. -/
lemma Sees.of_other {i : Party} {t : Option (fleet.Thread i)} {s₁' : system.Config G}
    (h : Sees k s s') (hi : i = .controller k' ∨ i = .job k') (hk : k' ≠ k)
    (hw : s₁'.world = s₁.world.view k) (ht : s₁.threads = Function.update s.threads i t)
    (ht' : s₁'.threads = s'.threads) : Sees k s₁ s₁' := by
  have hne : .controller k ≠ i ∧ .job k ≠ i ∧ .detector ≠ i := by
    rcases hi with rfl | rfl <;> simp [Ne.symm hk]
  obtain ⟨-, hcontroller, hjob, hdetector⟩ := h
  refine ⟨hw, ?_, ?_, ?_⟩
  · rw [ht, ht', Function.update_of_ne hne.1]
    exact hcontroller
  · rw [ht, ht', Function.update_of_ne hne.2.1]
    exact hjob
  · rw [ht, ht', Function.update_of_ne hne.2.2]
    exact hdetector

/-- The detector around one AutoIndexer is as far as the detector of all. -/
lemma Sees.follows {p : Go Unit} (h : Sees k s s') (hi : s.threads .detector = some p) :
    ∃ q, s'.threads .detector = some q ∧ Part k p q := by
  have hdetector := h.detector
  rw [hi] at hdetector
  cases hq : s'.threads .detector with
  | none =>
    rw [hq] at hdetector
    exact hdetector.elim
  | some q =>
    rw [hq] at hdetector
    exact ⟨q, rfl, hdetector⟩

lemma env_clock {a : Act} {w w' : World} (h : Env a w w') : w.clock ≤ w'.clock := by
  cases h with
  | passes h => exact h
  | _ => exact le_refl _

/-- A step in the cluster is matched by steps around one AutoIndexer. -/
lemma Sees.step {e : fleet.Event} (h : Sees k s s') (hs : System.Step obs s e s₁) :
    ∃ s₁', System.Steps obs' s' s₁' ∧ Sees k s₁ s₁' := by
  cases hs with
  | @begin i p hi hp =>
    cases i with
    | controller k' =>
      by_cases hk : k' = k
      · subst hk
        exact ⟨_, .single ⟨_, .begin (i := .controller) (h.controller.trans hi) hp⟩,
          h.of_controller h.world rfl rfl⟩
      · exact ⟨s', .refl, h.of_other (.inl rfl) hk h.world rfl rfl⟩
    | job k' =>
      by_cases hk : k' = k
      · subst hk
        exact ⟨_, .single ⟨_, .begin (i := .job) (h.job.trans hi) hp⟩, h.of_job h.world rfl rfl⟩
      · exact ⟨s', .refl, h.of_other (.inr rfl) hk h.world rfl rfl⟩
    | detector =>
      obtain rfl : p = performDriftCheck := hp
      have hidle : s'.threads .detector = none := by
        have hdetector := h.detector
        rw [hi] at hdetector
        cases hq : s'.threads .detector with
        | none => rfl
        | some q =>
          rw [hq] at hdetector
          exact hdetector.elim
      refine ⟨_, .single ⟨_, .begin (i := .detector) hidle rfl⟩, h.of_detector h.world rfl rfl ?_⟩
      exact part_performDriftCheck k
  | @call i c f r F hi hs =>
    cases i with
    | controller k' =>
      obtain ⟨w, hs, rfl⟩ := hs
      by_cases hk : k' = k
      · subst hk
        rw [← h.world] at hs
        exact ⟨_, .single ⟨_, .call (i := .controller) (h.controller.trans hi) hs⟩,
          h.of_controller (view_put _ _ _).symm rfl rfl⟩
      · obtain ⟨s₁', hsteps, hw, ht⟩ := steps_of_put h.world hk (clock_of_serves hs).ge
        exact ⟨s₁', hsteps, h.of_other (.inl rfl) hk hw rfl ht⟩
    | job k' =>
      obtain ⟨w, hs, rfl⟩ := hs
      by_cases hk : k' = k
      · subst hk
        rw [← h.world] at hs
        exact ⟨_, .single ⟨_, .call (i := .job) (h.job.trans hi) hs⟩,
          h.of_job (view_put _ _ _).symm rfl rfl⟩
      · obtain ⟨s₁', hsteps, hw, ht⟩ := steps_of_put h.world hk (clock_of_jobServes hs).ge
        exact ⟨s₁', hsteps, h.of_other (.inr rfl) hk hw rfl ht⟩
    | detector =>
      obtain ⟨q, hq, hpart⟩ := h.follows hi
      obtain ⟨s₁', q', hsteps, hw, hpart', ht⟩ := steps_of_detector h.world hq hpart hs
      exact ⟨s₁', hsteps, h.of_detector hw rfl ht hpart'⟩
  | @finish i a hi =>
    cases i with
    | controller k' =>
      by_cases hk : k' = k
      · subst hk
        exact ⟨_, .single ⟨_, .finish (i := .controller) (h.controller.trans hi)⟩,
          h.of_controller h.world rfl rfl⟩
      · exact ⟨s', .refl, h.of_other (.inl rfl) hk h.world rfl rfl⟩
    | job k' =>
      by_cases hk : k' = k
      · subst hk
        exact ⟨_, .single ⟨_, .finish (i := .job) (h.job.trans hi)⟩, h.of_job h.world rfl rfl⟩
      · exact ⟨s', .refl, h.of_other (.inr rfl) hk h.world rfl rfl⟩
    | detector =>
      obtain ⟨q, hq, hpart⟩ := h.follows hi
      obtain rfl : q = .ret () := hpart
      refine ⟨_, .single ⟨_, .finish (i := .detector) hq⟩, h.of_detector h.world rfl rfl ?_⟩
      trivial
  | @crash i p hi =>
    cases i with
    | controller k' =>
      by_cases hk : k' = k
      · subst hk
        exact ⟨_, .single ⟨_, .crash (i := .controller) (h.controller.trans hi)⟩,
          h.of_controller h.world rfl rfl⟩
      · exact ⟨s', .refl, h.of_other (.inl rfl) hk h.world rfl rfl⟩
    | job k' =>
      by_cases hk : k' = k
      · subst hk
        exact ⟨_, .single ⟨_, .crash (i := .job) (h.job.trans hi)⟩, h.of_job h.world rfl rfl⟩
      · exact ⟨s', .refl, h.of_other (.inr rfl) hk h.world rfl rfl⟩
    | detector =>
      obtain ⟨q, hq, -⟩ := h.follows hi
      refine ⟨_, .single ⟨_, .crash (i := .detector) hq⟩, h.of_detector h.world rfl rfl ?_⟩
      trivial
  | @act a F he =>
    obtain ⟨k', a⟩ := a
    obtain ⟨w, he, rfl⟩ := he
    by_cases hk : k' = k
    · subst hk
      rw [← h.world] at he
      exact ⟨_, .single ⟨_, .act he⟩, (view_put _ _ _).symm, h.controller, h.job, h.detector⟩
    · obtain ⟨s₁', hsteps, hw, ht⟩ := steps_of_put h.world hk (env_clock he)
      refine ⟨s₁', hsteps, hw, ?_, ?_, ?_⟩
      · rw [ht]
        exact h.controller
      · rw [ht]
        exact h.job
      · rw [ht]
        exact h.detector

/-- Every run of a cluster of AutoIndexers is, around each of them, a run of the system of one
AutoIndexer: what holds in all runs of the one holds of each in all runs of the other. -/
theorem seen_of_reach (k : Key) {cond : Cluster × H → fleet.Event → Prop}
    {init : fleet.Config H → Prop} {init' : system.Config G → Prop}
    (hstill : ∀ s, init s → ∀ i, s.threads i = none)
    (hinit : ∀ s, init s → ∃ g, init' ⟨s.world.view k, g, fun _ => none⟩)
    (h : System.Reach obs cond init s) :
    ∃ s', System.Reach obs' (fun _ _ => True) init' s' ∧ Sees k s s' := by
  refine h.simulates (fun s hs => ?_) (fun hsees hstep => Sees.step hsees hstep)
  obtain ⟨g, hg⟩ := hinit s hs
  refine ⟨_, hg, rfl, ?_, ?_, ?_⟩
  · exact (hstill s hs (.controller k)).symm
  · exact (hstill s hs (.job k)).symm
  · rw [hstill s hs]
    trivial

/-! ### Two AutoIndexers -/

/-- A scheduled AutoIndexer with three documents. -/
def indexed (name uid : String) : AutoIndexer :=
  { ControllerSpec.demo with
    name := name
    uid := uid
    spec := { ControllerSpec.demo.spec with schedule := some "@daily" }
    status := { ControllerSpec.demo.status with
      indexingPhase := .scheduled, numOfDocumentInIndex := 3 } }

def pair : Cluster where
  objects k :=
    if k = ⟨"default", "docs"⟩ then some (indexed "docs" "u1")
    else if k = ⟨"default", "code"⟩ then some (indexed "code" "u2")
    else none
  jobs _ := []
  ragEngines _ := ["rag"]
  children _ := []
  indexes := []
  image := "image"
  clock := 1000000

/-- The detector has listed both. -/
def listed : fleet.Config Unit :=
  ⟨pair, (), Function.update (fun _ => none) .detector
    (some (checkAll [indexed "docs" "u1", indexed "code" "u2"]))⟩

lemma reach_listed : System.Reach (fun _ _ => ()) (fun _ _ => True)
    (fun s : fleet.Config Unit => s = ⟨pair, (), fun _ => none⟩) listed := by
  have hlist : DetectorServes pair .list (.ok [indexed "docs" "u1", indexed "code" "u2"]) pair := by
    refine ⟨rfl, .inr ⟨_, rfl, fun k => ?_⟩⟩
    by_cases hdocs : k = ⟨"default", "docs"⟩
    · subst hdocs
      rfl
    · by_cases hcode : k = ⟨"default", "code"⟩
      · subst hcode
        rfl
      · simp [pair, key, indexed, ControllerSpec.demo, hdocs, hcode, Ne.symm hdocs, Ne.symm hcode]
  have hcall {s : fleet.Config Unit} (hi : s.threads .detector = some performDriftCheck)
      (hw : s.world = pair) : System.Step (fun _ _ => ()) s (.call Party.detector Call.list
        (.ok [indexed "docs" "u1", indexed "code" "u2"])) ⟨pair, (), Function.update s.threads
          Party.detector (some (checkAll [indexed "docs" "u1", indexed "code" "u2"]))⟩ :=
    .call (i := Party.detector) hi (hw ▸ hlist)
  have hbegin : System.Step (fun _ _ => ()) (⟨pair, (), fun _ => none⟩ : fleet.Config Unit)
      (.begin Party.detector) ⟨pair, (), Function.update (fun _ => none) Party.detector
        (some performDriftCheck)⟩ :=
    .begin (i := Party.detector) rfl rfl
  have hlast := hcall (s := ⟨pair, (), Function.update (fun _ => none) Party.detector
    (some performDriftCheck)⟩) rfl rfl
  rw [Function.update_idem] at hlast
  exact .step (.step (.init rfl) hbegin trivial) hlast trivial

theorem seen_of_reach_listed : ∃ s' : system.Config Unit, System.Reach (fun _ _ => ())
    (fun _ _ => True) (fun s => s = ⟨pair.view ⟨"default", "code"⟩, (), fun _ => none⟩) s' ∧
      Sees ⟨"default", "code"⟩ listed s' := by
  refine seen_of_reach _ ?_ ?_ reach_listed
  · rintro _ rfl i
    rfl
  · rintro _ rfl
    exact ⟨(), rfl⟩

end KaitoAutoIndexer.Fleet
