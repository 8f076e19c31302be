import KaitoAutoIndexer.LiveJobs
import KaitoAutoIndexer.Repairs
import KaitoAutoIndexer.RunOutcome
import KaitoAutoIndexer.StaleVerdict
import KaitoAutoIndexer.StaticMirror

/-!
The life of a one-time AutoIndexer that nobody edits: the reconciles that make its Job, the work of
the Job's pods, and what the end of the Job makes of the phase.
-/

namespace KaitoAutoIndexer.OneTimeLife

open KaitoAutoIndexer.Lib KaitoAutoIndexer.Types
open KaitoAutoIndexer.Rag (Target)
open KaitoAutoIndexer.Cluster KaitoAutoIndexer.Controller KaitoAutoIndexer.ControllerSpec
open KaitoAutoIndexer.Detector KaitoAutoIndexer.JobClient KaitoAutoIndexer.System
open KaitoAutoIndexer.SystemSteps (stored_of_jobServes)
open KaitoAutoIndexer.LiveJobs (jobs_of_serves jobs_of_jobServes)
open KaitoAutoIndexer.Retries (handles_handlePhase)
open KaitoAutoIndexer.Repairs (leaves_handlePhase checkAutoIndexerDrift_unstable)
open KaitoAutoIndexer.Static (StaticHandler)
open KaitoAutoIndexer.StaticMirror (Fetched fetch IsDocument)
open KaitoAutoIndexer.GitSpec (documents)
open KaitoAutoIndexer.RunOutcome (Reports Reporting reporting_addStatusCondition reporting_handler
  reporting_countDocuments reporting_updateIndexingCompletion)
open KaitoAutoIndexer.ComingToRest

variable {x o m : AutoIndexer} {p : Phase} {jobs : List Job} {w w' : World}

/-! ### What a reconcile makes of the Jobs and the indexes -/

/-- The Job that is made for an AutoIndexer without a schedule. -/
def indexingJob (o : AutoIndexer) (image : String) : Job :=
  ⟨o.name ++ "-job", 0, 0, 0, none, generateJobTemplate o image⟩

lemma indexingJob_congr {image : String} (hname : o.name = x.name)
    (hns : o.namespace_ = x.namespace_) (hspec : o.spec = x.spec) :
    indexingJob o image = indexingJob x image := by
  simp [indexingJob, generateJobTemplate, generateServiceAccountName, azureIdentity, hname, hns, hspec]

lemma ensureJob_first (hw : w.jobs = []) : Runs (Serves False)
    (fun e w' => e = none ∧ w' = { w with jobs := [indexingJob o w.image] }) (ensureJob o) w := by
  intro image w1 h1
  obtain ⟨rfl, rfl⟩ := Prod.mk.inj ((serves_false ..).mp h1)
  intro r w2 h2
  have h2 := (serves_false ..).mp h2
  simp only [serve, hw, List.find?_nil] at h2
  obtain ⟨rfl, rfl⟩ := Prod.mk.inj h2
  intro r w3 h3
  have h3 := (serves_false ..).mp h3
  simp only [serve, hw, List.nil_append] at h3
  obtain ⟨rfl, rfl⟩ := Prod.mk.inj h3
  exact ⟨rfl, rfl⟩

/-- A handler makes the one Job in the phase Pending, and deletes no index but in the phase
DriftRemediation. -/
lemma handlePhase_made (hd : m.status.indexingPhase ≠ .driftRemediation)
    (hc : m.spec.schedule = none) (hw : m.status.indexingPhase = .pending → w.jobs = []) :
    Runs (Serves False) (fun _ w' => w'.indexes = w.indexes ∧
      w'.jobs = if m.status.indexingPhase = .pending then [indexingJob m w.image] else w.jobs)
      (handlePhase m) w := by
  by_cases hp : m.status.indexingPhase = .pending
  · have hpending : handlePhase m = handlePendingPhase m := by
      unfold handlePhase
      rw [hp]
    have hnone : ¬ m.spec.schedule.isSome = true := by simp [hc]
    rw [hpending, handlePendingPhase, if_neg hnone]
    refine (ensureJob_first (hw hp)).bind ?_
    rintro e w1 ⟨rfl, rfl⟩
    exact ⟨rfl, (if_pos hp).symm⟩
  · have hjobs : Runs (Serves False) (fun _ w' => w'.jobs = w.jobs) (handlePhase m) w := by
      refine ((handles_handlePhase fun h => hp h.1).runs (J := fun w' => w'.jobs = w.jobs) ?_ rfl).mono
        fun _ _ h => h.2
      intro w1 c r w2 hcall h1 hs
      rw [jobs_of_serves (.inl ((serves_false ..).mp hs)) fun n t hcreate => ?_, h1]
      rw [hcreate] at hcall
      exact hcall
    have hindexes : Runs (Serves False) (fun _ w' => w'.indexes = w.indexes) (handlePhase m) w := by
      refine ((leaves_handlePhase fun h => hd h.phase).runs (J := fun w' => w'.indexes = w.indexes)
        ?_ rfl).mono fun _ _ h => h.2
      intro w1 c r w2 hcall h1 hs
      have hs : w2 = (serve w1 c).2 := congrArg Prod.snd ((serves_false ..).mp hs)
      rw [hs, Ownership.serve_indexes w1 fun e i hdelete => ?_, h1]
      rw [hdelete] at hcall
      exact hcall
    refine (hindexes.and hjobs).mono fun _ w' h => ⟨h.1, ?_⟩
    rw [if_neg hp, h.2]

lemma reconcile_made (hw : w.stored = some o) (hlive : o.deletionTimestamp = none)
    (hrag : o.spec.ragEngine ∈ w.ragEngines) (hd : o.status.indexingPhase ≠ .driftRemediation)
    (hc : o.spec.schedule = none) (hjobs : o.status.indexingPhase = .pending → w.jobs = []) :
    Runs (Serves False) (fun _ w' => w'.indexes = w.indexes ∧
      w'.jobs = if o.status.indexingPhase = .pending then [indexingJob o w.image] else w.jobs)
      reconcile w := by
  refine (reconcile_runs (R := fun _ _ w' => w'.indexes = w.indexes ∧
    w'.jobs = if o.status.indexingPhase = .pending then [indexingJob o w.image] else w.jobs)
    hw hlive ?_).mono ?_
  · rintro o1 w1 ho1 ⟨cs, rfl⟩
    have hphase : (withResources o1 w.clock).status.indexingPhase = o.status.indexingPhase := by
      rw [← ho1.status]
      rfl
    have hmade := handlePhase_made (m := withResources o1 w.clock)
      (w := { w with stored := some o1, children := cs }) (by rwa [hphase])
      (by rw [← hc, ← ho1.spec]; rfl) (by rwa [hphase])
    have hjob : indexingJob (withResources o1 w.clock) w.image = indexingJob o w.image :=
      indexingJob_congr ho1.name ho1.namespace_ ho1.spec
    refine ((handlePhase_turned (w := { w with stored := some o1, children := cs }) rfl).and hmade).mono ?_
    rintro ⟨m, e⟩ w' ⟨⟨he, s, hs, hstatus, hrv, -⟩, hindexes, hjobs⟩
    rw [hphase, hjob] at hjobs
    exact ⟨fun _ => ⟨s, hs, hstatus, hrv, hindexes, hjobs⟩, fun _ => he⟩
  · rintro e w' ⟨h1, h2⟩
    obtain ⟨m, s, s', w1, hmade, -, -, -, -, -, rfl⟩ := h1 (h2 not_false hrag)
    exact hmade

/-! ### The object and its Jobs -/

/-- The object is still `x`, in the phase `p`. -/
structure Same (x : AutoIndexer) (p : Phase) (o : AutoIndexer) : Prop where
  live : o.deletionTimestamp = none
  phase : o.status.indexingPhase = p
  name : o.name = x.name
  namespace_ : o.namespace_ = x.namespace_
  spec : o.spec = x.spec

/-- The world has the object `x` in the phase `p`, its RAG engine, and these Jobs of it. -/
structure Holds (x : AutoIndexer) (p : Phase) (jobs : List Job) (w : World) : Prop where
  object : ∃ o, w.stored = some o ∧ Same x p o
  engine : x.spec.ragEngine ∈ w.ragEngines
  jobs : w.jobs = jobs

/-- What a reconcile goes by, if it finds `x` in the phase `p`. -/
def view (x : AutoIndexer) (p : Phase) (jobs : List Job) (detected : Bool) : Situation where
  phase := p
  suspend := x.spec.suspend
  scheduled := x.spec.schedule.isSome
  detected := detected
  policy := x.spec.driftRemediationPolicy
  busy := decide (0 < (scanJobs jobs).running)
  failing := decide (0 < (scanJobs jobs).failed) && (scanJobs jobs).latestJobFailed
  done := decide (0 < (scanJobs jobs).completed)

lemma Same.situation (h : Same x p o) : situation o jobs = view x p jobs o.driftDetected := by
  simp [ComingToRest.situation, view, h.phase, h.spec]

lemma Holds.inSituation (h : Holds x p jobs w) : ∃ d, InSituation x (view x p jobs d) w := by
  obtain ⟨o, hw, ho⟩ := h.object
  refine ⟨o.driftDetected, o, hw, ho.live, ?_, ?_, ho.name, ho.namespace_, ?_⟩
  · rw [ho.spec]
    exact h.engine
  · rw [h.jobs, ho.situation]
  · rw [ho.spec]

lemma turn_suspend {v : Situation} (h : v.phase ≠ .driftRemediation) : v.turn.2 = v.suspend := by
  unfold Situation.turn
  split <;> first | contradiction | (repeat' split) <;> rfl

/-- The phase that a reconcile turns to. -/
def phaseAfter (x : AutoIndexer) (p : Phase) (jobs : List Job) (d : Bool) : Phase :=
  (view x p jobs d).turn.1

/-- A reconcile in which no call fails. -/
lemma Holds.reconciles (hx : x.spec.schedule = none) (h : Holds x p jobs w)
    (hd : p ≠ .driftRemediation) (hp : p = .pending → jobs = []) :
    Runs (Serves False) (fun _ w' => w'.indexes = w.indexes ∧ ∃ d image,
      Holds x (phaseAfter x p jobs d) (if p = .pending then [indexingJob x image] else jobs) w')
      reconcile w := by
  obtain ⟨o, hw, ho⟩ := h.object
  obtain ⟨d, hv⟩ := h.inSituation
  have hmade := reconcile_made hw ho.live (by rw [ho.spec]; exact h.engine) (by rwa [ho.phase])
    (by rw [ho.spec, hx]) (by rwa [ho.phase, h.jobs])
  refine ((reconcile_turns hv).and hmade).mono ?_
  rintro e w' ⟨⟨-, s, hs, hlive, hrag, hsit, hname, hns, hspec⟩, hindexes, hjobs⟩
  have hsuspend : s.spec.suspend = x.spec.suspend :=
    (congrArg Situation.suspend hsit).trans (turn_suspend hd)
  have hspec : s.spec = x.spec := by rw [hspec, hsuspend]
  refine ⟨hindexes, d, w.image, ⟨s, hs, hlive, congrArg Situation.phase hsit, hname, hns, hspec⟩, ?_, ?_⟩
  · rwa [← hspec]
  · rw [hjobs, ho.phase, h.jobs, indexingJob_congr ho.name ho.namespace_ ho.spec]

lemma Holds.clock {t : Time} (h : Holds x p jobs w) : Holds x p jobs { w with clock := t } :=
  ⟨h.object, h.engine, h.jobs⟩

/-- The detector counts nothing outside of the phase Scheduled. Its calls may fail. -/
lemma Holds.check (h : Holds x p jobs w) (hp : p ≠ .scheduled) :
    Runs (Serves True) (fun _ w' => w'.indexes = w.indexes ∧ Holds x p jobs w')
      performDriftCheck w := by
  obtain ⟨o, hw, ho⟩ := h.object
  have hmark : Runs (Serves True) (fun _ w' => w'.indexes = w.indexes ∧ Holds x p jobs w')
      (setDriftRemediated o) w := by
    unfold setDriftRemediated
    dsimp only
    split
    · exact ⟨rfl, h⟩
    · intro r w1 hr
      rcases hr with hr | ⟨-, -, rfl | ⟨⟨e, i, hc⟩, -⟩⟩
      · have hlive : o.deletionTimestamp.isSome = false := by simp [ho.live]
        simp only [serve, hw, AutoIndexer.deleting, hlive, ne_eq, not_true_eq_false, if_false,
          Bool.false_eq_true, false_and] at hr
        obtain ⟨rfl, rfl⟩ := Prod.mk.inj hr
        refine ⟨rfl, ⟨_, rfl, ?_⟩, h.engine, h.jobs⟩
        constructor <;> simp [ho.live, ho.phase, ho.name, ho.namespace_, ho.spec]
      · exact ⟨rfl, h⟩
      · cases hc
  intro r w1 hr
  obtain rfl : w1 = w := eq_of_serves_read rfl (by simp) hr
  rcases hr with hr | ⟨-, ⟨e, rfl⟩, -⟩
  · simp only [serve, hw] at hr
    obtain ⟨rfl, -⟩ := Prod.mk.inj hr
    have hphase : o.status.indexingPhase ≠ .scheduled := by rwa [ho.phase]
    have hcheck : Runs (Serves True) (fun _ w' => w'.indexes = w1.indexes ∧ Holds x p jobs w')
        (checkAndMark o) w1 := by
      unfold checkAndMark
      rw [checkAutoIndexerDrift_unstable hphase]
      change Runs _ _ (setDriftRemediated o >>= fun _ => pure ()) w1
      exact hmark.bind fun _ _ h => h
    change Runs _ _ (checkAndMark o >>= fun _ => pure ()) w1
    exact hcheck.bind fun _ _ h => h
  · exact ⟨rfl, h⟩

/-! ### The work of a pod -/

/-- The URLs that have been fetched, and what they gave. -/
abbrev Fetches := List (String × Option String)

def noteFetch (l : Fetches) : (c : JobCall) → JobAnswer c → Fetches
  | .fetch url, .ok content => l ++ [(url, content)]
  | _, _ => l

/-- The services of the cluster for a pod, after a while. Every call may fail. -/
def passing : Service World JobCall JobAnswer := fun w c r w' =>
  ∃ t, w.clock ≤ t ∧ JobServes True { w with clock := t } c r w'

abbrev service : Service (World × Fetches) JobCall JobAnswer := noted passing noteFetch

/-- A job sends a status with the phase that it has read. -/
lemma phase_of_lawful {g : JobSteps.Told} {body : AutoIndexer}
    (hl : JobSteps.Lawful g (.patchStatus body))
    (hg : ∀ o, .ok o ∈ g.got → o.status.indexingPhase = p) : body.status.indexingPhase = p := by
  have hread : ∀ r rest, g.got = .ok r :: rest → r.status.indexingPhase = p := by
    intro r rest hr
    apply hg r
    rw [hr]
    exact List.mem_cons_self
  cases hl with
  | condition _ hr =>
    have hphase := hread _ _ hr
    exact hphase
  | base _ hr =>
    have hphase := hread _ _ hr
    exact hphase
  | completion _ _ hr =>
    have hphase := hread _ _ hr
    exact hphase

lemma ragEngines_of_jobServes {c : JobCall} {r : JobAnswer c} (h : JobServes True w c r w') :
    w'.ragEngines = w.ragEngines := by
  match c with
  | .now => exact congrArg World.ragEngines h.2
  | .getAutoIndexer => exact congrArg World.ragEngines h.1
  | .kusto q => exact congrArg World.ragEngines h
  | .fetch u => exact congrArg World.ragEngines h
  | .rag t q =>
    obtain ⟨s, -, rfl⟩ := h
    unfold putStore
    split <;> rfl
  | .patchStatus body =>
    rcases h with h | ⟨-, rfl, -⟩
    · unfold patchJobStatus at h
      split at h
      · split at h <;> cases h <;> rfl
      · cases h
        rfl
    · rfl

/-- A call of a job that knows the phase keeps it. -/
lemma holds_of_passing {g : JobSteps.Told} {c : JobCall} {r : JobAnswer c}
    (hl : JobSteps.Lawful g c) (hg : ∀ o, .ok o ∈ g.got → o.status.indexingPhase = p)
    (h : Holds x p jobs w) (hs : passing w c r w') : Holds x p jobs w' := by
  obtain ⟨t, -, hs⟩ := hs
  obtain ⟨o, hw, ho⟩ := h.object
  refine ⟨?_, ?_, ?_⟩
  · rcases stored_of_jobServes hs with ⟨hstored, -⟩ | ⟨o', hw', hwritten⟩
    · exact ⟨o, hstored.trans hw, ho⟩
    · obtain rfl : o = o' := Option.some.inj (hw.symm.trans hw')
      generalize hv : w'.stored = v at hwritten
      cases hwritten
      refine ⟨_, rfl, ?_⟩
      have hphase := phase_of_lawful hl hg
      constructor <;> simp [AutoIndexer.withStatus, ho.live, hphase, ho.name, ho.namespace_, ho.spec]
  · rw [ragEngines_of_jobServes hs]
    exact h.engine
  · rw [jobs_of_jobServes hs]
    exact h.jobs

/-- **A pod leaves the phase, the spec and the Jobs as they are**, whatever it meets. -/
lemma Holds.main (h : Holds x p jobs w) (r : Git.Remote) :
    Runs passing (fun _ w' => Holds x p jobs w') (Job.main r) w := by
  refine ((JobSteps.main_steps r).keeps (J := fun w g => Holds x p jobs w ∧
    ∀ o, .ok o ∈ g.got → o.status.indexingPhase = p) ?_ ⟨h, by simp [JobSteps.untold]⟩).mono ?_
  · rintro w g c r w' hl ⟨hw, hg⟩ hs
    refine ⟨holds_of_passing hl hg hw hs, ?_⟩
    by_cases hc : c = .getAutoIndexer
    · subst hc
      intro o ho
      rcases List.mem_cons.mp ho with heq | ho
      · subst heq
        obtain ⟨t, -, -, hr | ⟨-, m, hr⟩⟩ := hs
        · obtain ⟨o', ho', hsame⟩ := hw.object
          simp only [readAutoIndexer, ho', Except.ok.injEq] at hr
          rw [hr]
          exact hsame.phase
        · cases hr
      · exact hg o ho
    · rwa [JobSteps.hear_got hc]
  · rintro _ w' ⟨g, -, hw, -⟩
    exact hw

/-! ### What a pod indexes -/

/-- The URLs that gave a text, with their texts. -/
def texts (l : Fetches) : Fetched :=
  l.filterMap fun p => (p.2.filter (· ≠ "")).map fun t => (p.1, t)

lemma texts_noteFetch (l : Fetches) (c : JobCall) (r : JobAnswer c) :
    texts (noteFetch l c r) = fetch (texts l) c r := by
  match c, r with
  | .fetch url, .ok none => simp [noteFetch, fetch, texts]
  | .fetch url, .ok (some t) =>
    by_cases ht : t = ""
    · simp [noteFetch, fetch, texts, ht]
    · simp [noteFetch, fetch, texts, ht]
  | .fetch url, .error e => rfl
  | .now, _ => rfl
  | .getAutoIndexer, _ => rfl
  | .patchStatus body, _ => rfl
  | .rag t q, _ => rfl
  | .kusto q, _ => rfl

variable {y z : World × Fetches} {s : StaticDataSource} {t : Target}

/-- Neither a text nor a document is added. -/
structure Unindexed (y z : World × Fetches) : Prop where
  fetched : z.2 = y.2
  store : ∀ e i, z.1.store e i = y.1.store e i

lemma Unindexed.refl (y : World × Fetches) : Unindexed y y := ⟨rfl, fun _ _ => rfl⟩

lemma Unindexed.trans {u : World × Fetches} (h : Unindexed y z) (h' : Unindexed z u) : Unindexed y u :=
  ⟨h'.fetched.trans h.fetched, fun e i => (h'.store e i).trans (h.store e i)⟩

lemma unindexed_of_reports {c : JobCall} {r : JobAnswer c} (hc : Reports c) (hs : service y c r z) :
    Unindexed y z := by
  obtain ⟨⟨t, -, hs⟩, hl⟩ := hs
  match c with
  | .now =>
    refine ⟨hl, fun e i => ?_⟩
    rw [hs.2]
    rfl
  | .getAutoIndexer =>
    refine ⟨hl, fun e i => ?_⟩
    rw [hs.1]
    rfl
  | .patchStatus body =>
    refine ⟨hl, fun e i => ?_⟩
    rcases hs with hs | ⟨-, hs, -⟩
    · unfold patchJobStatus at hs
      split at hs
      · split at hs <;> rw [(Prod.mk.inj hs).2] <;> rfl
      · rw [(Prod.mk.inj hs).2]
        rfl
    · rw [hs]
      rfl
  | .rag t' (.listDocuments f n) =>
    obtain ⟨s, hs, hz⟩ := hs
    have hsame : s = World.store { y.1 with clock := t } t'.endpoint t'.index := by
      cases r with
      | ok a => exact hs.1
      | error e => exact hs.2
    refine ⟨?_, fun e i => ?_⟩
    · rw [hl]
      rfl
    · rw [hz, hsame, putStore, if_pos rfl]
      rfl

lemma reporting_runs {α : Type} {p : Py α} (hp : Reporting p) (y : World × Fetches) :
    Runs service (fun _ z => Unindexed y z) p y :=
  (hp.runs (J := Unindexed y) (fun _ _ _ _ hc h hs => h.trans (unindexed_of_reports hc hs))
    (.refl y)).mono fun _ _ h => h.2

/-- What the calls of a handler do to its index, whatever else goes on. -/
lemma service_of_works {c : JobCall} {r : JobAnswer c} (hc : JobSteps.Works True t c)
    (hs : service y c r z) :
    StaticMirror.service (y.1.store t.endpoint t.index, texts y.2) c r
      (z.1.store t.endpoint t.index, texts z.2) := by
  obtain ⟨⟨clock, -, hs⟩, hl⟩ := hs
  have hread : z.1 = { y.1 with clock := clock } →
      z.1.store t.endpoint t.index = y.1.store t.endpoint t.index := by
    intro hz
    rw [hz]
    rfl
  refine ⟨?_, ?_⟩
  · match c with
    | .now => exact hread hs.2
    | .getAutoIndexer => exact hread hs.1
    | .patchStatus body => exact hc.elim
    | .kusto q => exact hread hs
    | .fetch u => exact hread hs
    | .rag t' q =>
      obtain rfl : t' = t := hc
      obtain ⟨s', hs, hz⟩ := hs
      change Rag.Serves True _ q r (z.1.store t'.endpoint t'.index)
      rw [hz, StaleVerdict.store_putStore]
      exact hs
  · change texts z.2 = fetch (texts y.2) c r
    rw [hl, texts_noteFetch]

abbrev Fetching {α : Type} (Q : α → Fetches → Prop) (p : Py α) (l : Fetches) : Prop :=
  Tells noteFetch (fun _ _ => True) Q p l

lemma fetching_ask {α : Type} {Q : α → Fetches → Prop} {l : Fetches} {c : JobCall}
    {k : JobAnswer c → Py α} (hk : ∀ a, Fetching Q (k a) (noteFetch l c a)) :
    Fetching Q (JobClient.ask c >>= k) l := tells_ask trivial hk

/-- Every URL is fetched, unless an error ends the loop. -/
lemma fetchLoop_fetches (h : StaticHandler) (urls : List String) (pending : List Rag.Document)
    (l : Fetches) : Fetching
      (fun a l' => ∀ docs, a = .ok docs → l'.map Prod.fst = l.map Prod.fst ++ urls)
      (h.fetchLoop urls pending) l := by
  induction urls generalizing pending l with
  | nil => exact tells_ret fun _ _ => by simp
  | cons url urls ih =>
    refine fetching_ask fun a => ?_
    cases a with
    | error e => exact tells_ret nofun
    | ok content =>
      have hnext : ∀ pending, Fetching
          (fun a l' => ∀ docs, a = .ok docs → l'.map Prod.fst = l.map Prod.fst ++ url :: urls)
          (h.fetchLoop urls pending) (l ++ [(url, content)]) := by
        intro pending
        refine (ih pending _).mono (fun _ _ h => h) fun a l' ha docs hdocs => ?_
        rw [ha docs hdocs]
        simp
      dsimp only
      split
      · exact hnext _
      · refine Sat.bind (Q := fun _ l' => l' = l ++ [(url, content)])
          (fetching_ask fun _ => tells_ret rfl) ?_
        rintro d _ rfl
        split
        · refine fetching_ask fun a => ?_
          cases a with
          | ok u => exact hnext []
          | error e => exact tells_ret nofun
        · exact hnext _

lemma updateIndex_fetches (h : StaticHandler) :
    Fetching (fun out l => out.returned = [] → l.map Prod.fst = h.urls) h.updateIndex [] := by
  refine fetching_ask fun start => ?_
  have hindex : Fetching (fun errors l => errors = [] → l.map Prod.fst = h.urls) h.indexUrls [] := by
    refine (fetchLoop_fetches h h.urls [] []).bind ?_
    rintro (e | docs) l hl
    · exact tells_ret nofun
    · have hl := hl docs rfl
      dsimp only
      split
      · exact tells_ret fun _ => hl
      · refine fetching_ask fun a => ?_
        cases a with
        | error e => exact tells_ret nofun
        | ok u => exact tells_ret fun _ => hl
  refine hindex.bind fun errors l hl => ?_
  exact fetching_ask fun stop => tells_ret hl

/-- Every URL was fetched, and the texts have been added to the documents of the index. -/
structure Indexed (t : Target) (tag : String) (urls : List String) (y z : World × Fetches) : Prop where
  fetched : z.2.map Prod.fst = urls
  added : ∃ new, List.Forall₂ (IsDocument tag) (texts z.2) new ∧
    documents (z.1.store t.endpoint t.index) = documents (y.1.store t.endpoint t.index) ++ new

lemma Indexed.unindexed {tag : String} {urls : List String} {u v : World × Fetches}
    (h : Indexed t tag urls y z) (hu : Unindexed u y) (hv : Unindexed z v) : Indexed t tag urls u v := by
  obtain ⟨hf, new, hnew, hdocs⟩ := h
  refine ⟨by rw [hv.fetched, hf], new, by rwa [hv.fetched], ?_⟩
  rw [hv.store, hdocs, hu.store]

lemma updateIndex_indexed (h : StaticHandler) (w : World) : Runs service (fun out z =>
    out.returned = [] → Indexed h.target h.autoindexerName h.urls (w, []) z) h.updateIndex (w, []) := by
  have hadded : Runs service (fun out z => out.returned = [] →
      ∃ new, List.Forall₂ (IsDocument h.autoindexerName) (texts z.2) new ∧
        documents (z.1.store h.target.endpoint h.target.index) =
          documents (w.store h.target.endpoint h.target.index) ++ new) h.updateIndex (w, []) := by
    have hrun := StaticMirror.updateIndex_runs h (w.store h.target.endpoint h.target.index)
    have hworks := @JobSteps.working_static True h
    exact Runs.view (w := (w, [])) (Q := fun out v => out.returned = [] →
      ∃ new, List.Forall₂ (IsDocument h.autoindexerName) v.2 new ∧
        documents v.1 = documents (w.store h.target.endpoint h.target.index) ++ new)
      (f := fun y : World × Fetches => (y.1.store h.target.endpoint h.target.index, texts y.2))
      hrun hworks fun _ _ _ _ => service_of_works
  have hfetched : Runs service (fun out z => out.returned = [] → z.2.map Prod.fst = h.urls)
      h.updateIndex (w, []) := by
    have hfetches := updateIndex_fetches h
    exact hfetches.noted (x := (w, []))
  exact (hfetched.and hadded).mono fun out z hz he => ⟨hz.1 he, hz.2 he⟩

/-- A run that returns True has indexed all there is. -/
lemma run_indexed (r : Git.Remote) (h : StaticHandler) (hy : y.2 = []) : Runs service
    (fun b z => b = true → Indexed h.target h.autoindexerName h.urls y z) (Job.run r (.static h)) y := by
  intro start y1 hs1
  have h1 := unindexed_of_reports (c := .now) trivial hs1
  refine (reporting_runs (reporting_addStatusCondition _ _ _ _) y1).bind fun _ y2 h2 => ?_
  have h12 := h1.trans h2
  have hlog : y2 = (y2.1, []) := Prod.ext rfl (h12.fetched.trans hy)
  rw [hlog]
  refine (updateIndex_indexed h y2.1).bind fun out z1 hz1 => ?_
  refine (reporting_runs (reporting_handler _ out) z1).bind fun _ z2 h3 => ?_
  intro stop z3 hs3
  have h4 := h3.trans (unindexed_of_reports (c := .now) trivial hs3)
  refine (reporting_runs (reporting_countDocuments _ _) z3).bind fun n z4 h5 => ?_
  have h45 := h4.trans h5
  split
  · refine (reporting_runs (reporting_addStatusCondition _ _ _ _) z4).bind fun _ z5 _ => ?_
    refine (reporting_runs (reporting_updateIndexingCompletion _ _ _) z5).bind fun _ z6 _ => ?_
    intro hb
    cases hb
  · rename_i hout
    have hz1 := hz1 (not_not.mp hout)
    rw [← hlog] at hz1
    refine (reporting_runs (reporting_addStatusCondition _ _ _ _) z4).bind fun _ z5 h6 => ?_
    refine (reporting_runs (reporting_updateIndexingCompletion _ _ _) z5).bind fun _ z6 h7 => ?_
    exact fun _ => hz1.unindexed h12 ((h45.trans h6).trans h7)

/-- The handler of a static source is made of the name and the spec. -/
lemma createDataSourceHandler_static {h : Job.Handler} (ho : Same x p o)
    (hs : x.spec.dataSource.type = .static) (hd : x.spec.dataSource.static = some s)
    (hh : Job.createDataSourceHandler o = some h) : h = .static (Job.staticHandler x s) := by
  unfold Job.createDataSourceHandler at hh
  rw [ho.spec] at hh
  split at hh
  · cases hh
  · simp only [hs, hd, Option.map_some, Option.some.injEq] at hh
    rw [← hh]
    simp [Job.staticHandler, Job.target, AutoIndexer.tag, ho.name, ho.namespace_, ho.spec]

/-- The job reads the object as it is. -/
lemma read_runs {α : Type} {Q : α → World × Fetches → Prop}
    {k : Except ApiError (Option AutoIndexer) → Py α} (h : Holds x p jobs w)
    (hk : ∀ a y, Unindexed (w, []) y → (∀ o, a = .ok (some o) → Same x p o) → Runs service Q (k a) y) :
    Runs service Q (getAutoindexer >>= k) (w, []) := by
  intro a y hy
  have hread : Unindexed (w, []) y := unindexed_of_reports (c := .getAutoIndexer) trivial hy
  match a with
  | .error .notFound => exact hk (.ok none) y hread (by simp)
  | .error .conflict => exact hk (.error .conflict) y hread (by simp)
  | .error (.other e) => exact hk (.error (.other e)) y hread (by simp)
  | .ok o =>
    refine hk (.ok (some o)) y hread fun o' ho' => ?_
    obtain rfl : o = o' := by simpa using ho'
    obtain ⟨⟨t, -, -, hr | ⟨-, e, hr⟩⟩, -⟩ := hy
    · obtain ⟨o', ho', hsame⟩ := h.object
      simp only [readAutoIndexer, ho', Except.ok.injEq] at hr
      rwa [hr]
    · cases hr

/-- **A pod that succeeds has indexed the static source of the spec.** -/
lemma main_indexed (h : Holds x p jobs w) (hs : x.spec.dataSource.type = .static)
    (hd : x.spec.dataSource.static = some s) (r : Git.Remote) : Runs service (fun a z =>
      a = some true → Indexed (Job.target x) x.tag s.urls (w, []) z) (Job.main r) (w, []) := by
  refine read_runs h fun a y hstart ho => ?_
  match a with
  | .error e => exact nofun
  | .ok none => exact nofun
  | .ok (some o) =>
    dsimp only
    split
    · rename_i handler hh
      obtain rfl := createDataSourceHandler_static (ho o rfl) hs hd hh
      refine (run_indexed r _ hstart.fetched).bind fun b z hz hb => ?_
      have hz := hz (Option.some.inj hb)
      exact hz.unindexed hstart (.refl z)
    · exact nofun

/-! ### A life -/

/-- The AutoIndexer has just been created, without a schedule. -/
structure New (x : AutoIndexer) (w : World) : Prop where
  stored : w.stored = some x
  phase : x.status.indexingPhase = .unset
  oneTime : x.spec.schedule = none
  live : x.deletionTimestamp = none
  engine : x.spec.ragEngine ∈ w.ragEngines
  jobs : w.jobs = []

/-- A run of the program in a pod: what it returned, and what it fetched. -/
structure Attempt where
  result : Option Bool
  fetched : Fetches

/-- How far the Job is. The attempts of its pods stand with the last one first. -/
inductive Stage
  | waiting
  | active (attempts : List Attempt)
  | ended (attempts : List Attempt) (job : Job)

/-- The last attempt has exited with 0. -/
def Succeeds (attempts : List Attempt) : Prop := ∃ a ∈ attempts.head?, a.result = some true

/-- A Job succeeds with its last pod. A Job that does not has failed pods; one that does may have. -/
structure Ended (attempts : List Attempt) (j : Job) : Prop where
  idle : j.active = 0
  succeeded : 0 < j.succeeded ↔ Succeeds attempts
  failed : j.succeeded = 0 → 0 < j.failed

/-- The life of `x`. The controller, the detector and the pods take turns as they like, and time
passes; of the calls of the detector and of the pods any may fail. -/
inductive Life (x : AutoIndexer) : Stage → World → Prop
  | created {w : World} (h : New x w) : Life x .waiting w
  | passes {s : Stage} {w : World} {t : Time} (h : Life x s w) (ht : w.clock ≤ t) :
      Life x s { w with clock := t }
  | reconciles {s : Stage} {w w' : World} {e : Err} (h : Life x s w)
      (he : Ends (Serves False) reconcile w e w') : Life x s w'
  | checks {s : Stage} {w w' : World} {u : Unit} (h : Life x s w)
      (he : Ends (Serves True) performDriftCheck w u w') : Life x s w'
  | starts {w w' : World} {job : Job} (h : Life x .waiting w) (hm : Env (.moves job) w w')
      (ha : 0 < job.active) : Life x (.active []) w'
  | goesOn {l : List Attempt} {w w' : World} {job : Job} (h : Life x (.active l) w)
      (hm : Env (.moves job) w w') (ha : 0 < job.active) : Life x (.active l) w'
  | attempts {l : List Attempt} {w w' : World} {r : Git.Remote} {a : Attempt}
      (h : Life x (.active l) w) (he : Ends service (Job.main r) (w, []) a.result (w', a.fetched)) :
      Life x (.active (a :: l)) w'
  | ends {l : List Attempt} {w w' : World} {job : Job} (h : Life x (.active l) w)
      (hm : Env (.moves job) w w') (hj : Ended l job) : Life x (.ended l job) w'

/-- The Job was made of the AutoIndexer. -/
def IsJob (x : AutoIndexer) (j : Job) : Prop :=
  j.name = x.name ++ "-job" ∧ ∃ image, j.template = generateJobTemplate x image

/-- What becomes of the phase once the only Job is idle. -/
def outcome (j : Job) : Phase := if 0 < j.succeeded ∧ j.failed = 0 then .completed else .running

/-! ### Turns -/

/-- The first Job of a list is never the latest one that failed. -/
lemma startedAfter_self (j : Job) : startedAfter j j.startTime = false := by
  unfold startedAfter
  cases j.startTime with
  | none => rfl
  | some t => simp

lemma scanJobs_one (j : Job) : scanJobs [j] =
    ⟨if 0 < j.active then 1 else 0, if 0 < j.active then 0 else if 0 < j.failed then 1 else 0,
      if 0 < j.active then 0 else if 0 < j.failed then 0 else if 0 < j.succeeded then 1 else 0, false,
      j.startTime⟩ := by
  simp only [scanJobs, List.foldl_cons, List.foldl_nil, scanJob, Option.isNone_none, if_true,
    startedAfter_self]
  by_cases ha : 0 < j.active
  · simp [ha]
  · by_cases hf : 0 < j.failed
    · simp [ha, hf]
    · by_cases hs : 0 < j.succeeded
      · simp [ha, hf, hs]
      · simp [ha, hf, hs]

variable {d : Bool} {j job : Job} {l : List Attempt}

lemma phaseAfter_pending (hx : x.spec.schedule = none) : phaseAfter x .pending jobs d = .running := by
  simp [phaseAfter, view, Situation.turn, hx]

lemma phaseAfter_running (hx : x.spec.schedule = none) : phaseAfter x .running [j] d =
    if 0 < j.active then .running else outcome j := by
  simp only [phaseAfter, view, Situation.turn, hx, scanJobs_one, outcome]
  by_cases ha : 0 < j.active
  · simp [ha]
  · by_cases hf : 0 < j.failed
    · have hne : j.failed ≠ 0 := by omega
      simp [ha, hf, hne]
    · have hzero : j.failed = 0 := by omega
      by_cases hs : 0 < j.succeeded
      · simp [ha, hzero, hs]
      · simp [ha, hzero, hs]

lemma outcome_eq (j : Job) : outcome j = .completed ∨ outcome j = .running := by
  unfold outcome
  split
  · exact .inl rfl
  · exact .inr rfl

lemma phaseAfter_outcome (hx : x.spec.schedule = none) (ha : j.active = 0) :
    phaseAfter x (outcome j) [j] d = outcome j := by
  rcases outcome_eq j with hj | hj
  · rw [hj]
    rfl
  · have hidle : ¬ 0 < j.active := by omega
    rw [hj, phaseAfter_running hx, if_neg hidle, hj]

/-- What is known in each stage. -/
def Inv (x : AutoIndexer) : Stage → World → Prop
  | .waiting, w => Holds x .unset [] w ∨ Holds x .pending [] w ∨
      ∃ image, Holds x .running [indexingJob x image] w
  | .active _, w => ∃ j, IsJob x j ∧ 0 < j.active ∧ Holds x .running [j] w
  | .ended l j, w => IsJob x j ∧ Ended l j ∧ (Holds x .running [j] w ∨ Holds x (outcome j) [j] w)

lemma Holds.turns (hx : x.spec.schedule = none) (h : Holds x p jobs w) (hd : p ≠ .driftRemediation)
    (hp : p ≠ .pending) : Runs (Serves False) (fun _ w' => w'.indexes = w.indexes ∧
      ∃ d, Holds x (phaseAfter x p jobs d) jobs w') reconcile w := by
  refine (h.reconciles hx hd fun h => absurd h hp).mono ?_
  rintro _ w' ⟨hi, d, image, hw⟩
  rw [if_neg hp] at hw
  exact ⟨hi, d, hw⟩

/-- The Job is idle: a reconcile decides on the phase. -/
lemma Holds.decides (hx : x.spec.schedule = none) (ha : j.active = 0)
    (h : Holds x .running [j] w ∨ Holds x (outcome j) [j] w) :
    Runs (Serves False) (fun _ w' => w'.indexes = w.indexes ∧ Holds x (outcome j) [j] w')
      reconcile w := by
  have hidle : ¬ 0 < j.active := by omega
  rcases h with h | h
  · refine (h.turns hx (by decide) (by decide)).mono ?_
    rintro _ w' ⟨hi, d, hw⟩
    rw [phaseAfter_running hx, if_neg hidle] at hw
    exact ⟨hi, hw⟩
  · have hne : outcome j ≠ .driftRemediation ∧ outcome j ≠ .pending := by
      rcases outcome_eq j with hj | hj <;> rw [hj] <;> decide
    refine (h.turns hx hne.1 hne.2).mono ?_
    rintro _ w' ⟨hi, d, hw⟩
    rw [phaseAfter_outcome hx ha] at hw
    exact ⟨hi, hw⟩

lemma Inv.reconciles {s : Stage} (hx : x.spec.schedule = none) (h : Inv x s w) :
    Runs (Serves False) (fun _ w' => w'.indexes = w.indexes ∧ Inv x s w') reconcile w := by
  cases s with
  | waiting =>
    rcases h with h | h | ⟨image, h⟩
    · refine (h.turns hx (by decide) (by decide)).mono ?_
      rintro _ w' ⟨hi, d, hw⟩
      exact ⟨hi, .inr (.inl hw)⟩
    · refine (h.reconciles hx (by decide) fun _ => rfl).mono ?_
      rintro _ w' ⟨hi, d, image, hw⟩
      rw [phaseAfter_pending hx, if_pos rfl] at hw
      exact ⟨hi, .inr (.inr ⟨image, hw⟩)⟩
    · refine (h.turns hx (by decide) (by decide)).mono ?_
      rintro _ w' ⟨hi, d, hw⟩
      rw [phaseAfter_running hx] at hw
      exact ⟨hi, .inr (.inr ⟨image, hw⟩)⟩
  | active l =>
    obtain ⟨j, hj, ha, h⟩ := h
    refine (h.turns hx (by decide) (by decide)).mono ?_
    rintro _ w' ⟨hi, d, hw⟩
    rw [phaseAfter_running hx, if_pos ha] at hw
    exact ⟨hi, j, hj, ha, hw⟩
  | ended l j =>
    obtain ⟨hj, he, h⟩ := h
    refine (Holds.decides hx he.idle h).mono ?_
    rintro _ w' ⟨hi, hw⟩
    exact ⟨hi, hj, he, .inr hw⟩

lemma Inv.checks {s : Stage} (h : Inv x s w) :
    Runs (Serves True) (fun _ w' => w'.indexes = w.indexes ∧ Inv x s w') performDriftCheck w := by
  cases s with
  | waiting =>
    rcases h with h | h | ⟨image, h⟩
    · exact (h.check (by decide)).mono fun _ _ hw => ⟨hw.1, .inl hw.2⟩
    · exact (h.check (by decide)).mono fun _ _ hw => ⟨hw.1, .inr (.inl hw.2)⟩
    · exact (h.check (by decide)).mono fun _ _ hw => ⟨hw.1, .inr (.inr ⟨image, hw.2⟩)⟩
  | active l =>
    obtain ⟨j, hj, ha, h⟩ := h
    exact (h.check (by decide)).mono fun _ _ hw => ⟨hw.1, j, hj, ha, hw.2⟩
  | ended l j =>
    obtain ⟨hj, he, h | h⟩ := h
    · exact (h.check (by decide)).mono fun _ _ hw => ⟨hw.1, hj, he, .inl hw.2⟩
    · have hne : outcome j ≠ .scheduled := by
        rcases outcome_eq j with hj | hj <;> rw [hj] <;> decide
      exact (h.check hne).mono fun _ _ hw => ⟨hw.1, hj, he, .inr hw.2⟩

lemma Inv.passes {s : Stage} {t : Time} (h : Inv x s w) : Inv x s { w with clock := t } := by
  cases s with
  | waiting =>
    rcases h with h | h | ⟨image, h⟩
    · exact .inl h.clock
    · exact .inr (.inl h.clock)
    · exact .inr (.inr ⟨image, h.clock⟩)
  | active l =>
    obtain ⟨j, hj, ha, h⟩ := h
    exact ⟨j, hj, ha, h.clock⟩
  | ended l j =>
    obtain ⟨hj, he, h | h⟩ := h
    · exact ⟨hj, he, .inl h.clock⟩
    · exact ⟨hj, he, .inr h.clock⟩

/-- The status of the only Job changes. -/
lemma Holds.moves (h : Holds x p [j] w) (hm : Env (.moves job) w w') (hj : IsJob x j) :
    IsJob x job ∧ Holds x p [job] w' ∧ w'.indexes = w.indexes := by
  cases hm with
  | @moves _ _ l₁ l₂ old hjobs hn ht =>
    rw [h.jobs] at hjobs
    cases l₁ with
    | nil =>
      obtain ⟨rfl, rfl⟩ : j = old ∧ [] = l₂ := by simpa using hjobs
      refine ⟨?_, ⟨h.object, h.engine, rfl⟩, rfl⟩
      rw [IsJob, hn, ht]
      exact hj
    | cons j' l₁ => simp at hjobs

lemma Holds.not_moves (h : Holds x p [] w) : ¬ Env (.moves job) w w' := by
  intro hm
  cases hm with
  | moves hjobs =>
    rw [h.jobs] at hjobs
    simp at hjobs

lemma Life.oneTime {s : Stage} (h : Life x s w) : x.spec.schedule = none := by
  induction h with
  | created h => exact h.oneTime
  | passes _ _ ih => exact ih
  | reconciles _ _ ih => exact ih
  | checks _ _ ih => exact ih
  | starts _ _ _ ih => exact ih
  | goesOn _ _ _ ih => exact ih
  | attempts _ _ ih => exact ih
  | ends _ _ _ ih => exact ih

lemma inv_of_life {s : Stage} (h : Life x s w) : Inv x s w := by
  induction h with
  | created h =>
    exact .inl ⟨⟨x, h.stored, h.live, h.phase, rfl, rfl, rfl⟩, h.engine, h.jobs⟩
  | passes _ _ ih => exact ih.passes
  | reconciles h he ih => exact ((ih.reconciles h.oneTime).ends he).2
  | checks _ he ih => exact (ih.checks.ends he).2
  | starts _ hm ha ih =>
    rcases ih with ih | ih | ⟨image, ih⟩
    · exact absurd hm ih.not_moves
    · exact absurd hm ih.not_moves
    · obtain ⟨hj, hw, -⟩ := ih.moves hm ⟨rfl, image, rfl⟩
      exact ⟨_, hj, ha, hw⟩
  | goesOn _ hm ha ih =>
    obtain ⟨j, hj, -, ih⟩ := ih
    obtain ⟨hj, hw, -⟩ := ih.moves hm hj
    exact ⟨_, hj, ha, hw⟩
  | attempts _ he ih =>
    obtain ⟨j, hj, ha, ih⟩ := ih
    exact ⟨j, hj, ha, ((ih.main _).noted.ends he :)⟩
  | ends _ hm he ih =>
    obtain ⟨j, hj, -, ih⟩ := ih
    obtain ⟨hj, hw, -⟩ := ih.moves hm hj
    exact ⟨hj, he, .inl hw⟩

/-! ### The end -/

lemma outcome_eq_completed_iff (h : Ended l job) :
    outcome job = .completed ↔ Succeeds l ∧ job.failed = 0 := by
  rw [← h.succeeded]
  unfold outcome
  split
  · rename_i hj
    simpa using hj
  · rename_i hj
    exact iff_of_false (by simp) hj

/-- **What becomes of a one-time AutoIndexer.** Once its Job is over, a reconcile decides, and all
later ones leave it at that: the AutoIndexer is Completed if the last pod has succeeded and none has
failed, and stays Running for ever if not. The Job was made of the spec that is stored to the end. -/
theorem completed_iff {e : Err} (h : Life x (.ended l job) w)
    (he : Ends (Serves False) reconcile w e w') :
    w'.jobs = [job] ∧ IsJob x job ∧ ∃ o, w'.stored = some o ∧ o.spec = x.spec ∧
      (Succeeds l ∧ job.failed = 0 ∧ o.status.indexingPhase = .completed ∨
        ¬ (Succeeds l ∧ job.failed = 0) ∧ o.status.indexingPhase = .running) := by
  obtain ⟨hj, hended, hw⟩ := inv_of_life h
  obtain ⟨-, hw'⟩ := (Holds.decides h.oneTime hended.idle hw).ends he
  obtain ⟨o, ho, hsame⟩ := hw'.object
  refine ⟨hw'.jobs, hj, o, ho, hsame.spec, ?_⟩
  rw [hsame.phase]
  have hiff := outcome_eq_completed_iff hended
  rcases outcome_eq job with heq | heq
  · have hboth := hiff.mp heq
    exact .inl ⟨hboth.1, hboth.2, heq⟩
  · refine .inr ⟨fun hboth => ?_, heq⟩
    rw [hiff.mpr hboth] at heq
    cases heq

def Stage.tried : Stage → List Attempt
  | .waiting => []
  | .active l => l
  | .ended l _ => l

/-- If the last attempt has succeeded, what it has indexed is there. -/
def Kept (x : AutoIndexer) (s : StaticDataSource) (attempts : List Attempt) (w : World) : Prop :=
  ∀ a ∈ attempts.head?, a.result = some true →
    ∃ u, Indexed (Job.target x) x.tag s.urls (u, []) (w, a.fetched)

lemma Kept.congr (h : Kept x s l w) (hw : w'.indexes = w.indexes) : Kept x s l w' := by
  intro a ha hr
  obtain ⟨u, hf, new, hnew, hdocs⟩ := h a ha hr
  refine ⟨u, hf, new, hnew, ?_⟩
  rw [← hdocs]
  exact congrArg documents (StaleVerdict.store_congr hw _ _)

lemma kept_of_life {st : Stage} (h : Life x st w) (hs : x.spec.dataSource.type = .static)
    (hd : x.spec.dataSource.static = some s) : Kept x s st.tried w := by
  have hmoves : ∀ {w w' : World} {j : Job}, Env (.moves j) w w' → w'.indexes = w.indexes := by
    intro w w' j hm
    cases hm
    rfl
  induction h with
  | created h => simp [Kept, Stage.tried]
  | passes _ _ ih => exact ih.congr rfl
  | reconciles h he ih => exact ih.congr (((inv_of_life h).reconciles h.oneTime).ends he).1
  | checks h he ih => exact ih.congr ((inv_of_life h).checks.ends he).1
  | starts _ _ _ _ => simp [Kept, Stage.tried]
  | goesOn _ hm _ ih => exact ih.congr (hmoves hm)
  | attempts h he _ =>
    intro a ha hr
    obtain ⟨j, -, -, hw⟩ := inv_of_life h
    obtain rfl := Option.some.inj ha
    exact ⟨_, (main_indexed hw hs hd _).ends he hr⟩
  | ends _ hm _ ih => exact ih.congr (hmoves hm)

/-- **Completed means indexed.** When a one-time AutoIndexer with a static source is Completed, the
last attempt of its Job has fetched every URL of the spec, and the texts that they gave are the
last documents of the index that the spec names. -/
theorem indexed_of_completed (h : Life x (.ended l job) w) (hs : x.spec.dataSource.type = .static)
    (hd : x.spec.dataSource.static = some s) (hw : w.stored = some o)
    (hc : o.status.indexingPhase = .completed) :
    ∃ a ∈ l.head?, a.fetched.map Prod.fst = s.urls ∧
      ∃ old new, List.Forall₂ (IsDocument x.tag) (texts a.fetched) new ∧
        documents (w.store (Job.target x).endpoint (Job.target x).index) = old ++ new := by
  obtain ⟨-, hended, hholds⟩ := inv_of_life h
  have hphase : ∀ q, Holds x q [job] w → q = .completed := by
    intro q hq
    obtain ⟨o', ho', hsame⟩ := hq.object
    obtain rfl := Option.some.inj (hw.symm.trans ho')
    exact hsame.phase.symm.trans hc
  have hsucceeds : Succeeds l := by
    rcases hholds with hq | hq
    · cases hphase _ hq
    · exact ((outcome_eq_completed_iff hended).mp (hphase _ hq)).1
  obtain ⟨a, ha, hr⟩ := hsucceeds
  obtain ⟨u, hfetched, new, hnew, hdocs⟩ := kept_of_life h hs hd a ha hr
  exact ⟨a, ha, hfetched, _, new, hnew, hdocs⟩

/-! ### One page, indexed once -/

/-- An AutoIndexer of one page, as it is created. -/
def newcomer : AutoIndexer :=
  { demo with
    spec := { demo.spec with dataSource := ⟨.static, none, some ⟨["http://example.com/a.md"]⟩, none⟩ }
    status := { demo.status with indexingPhase := .unset } }

def newWorld : World := { demoWorld with stored := some newcomer }

/-- Every URL gives the text `A`. -/
def servePage (w : World) : (c : JobCall) → JobAnswer c × World
  | .fetch _ => (.ok (some "A"), w)
  | c => jobServe w c

def answer (y : World × Fetches) (c : JobCall) : JobAnswer c × World × Fetches :=
  let a := servePage y.1 c
  (a.1, a.2, noteFetch y.2 c a.1)

lemma service_answer (y : World × Fetches) (c : JobCall) : service y c (answer y c).1 (answer y c).2 := by
  refine ⟨⟨y.1.clock, le_refl _, ?_⟩, rfl⟩
  cases c with
  | fetch url => rfl
  | _ => exact jobServes_jobServe True y.1 _

def onlyJob (active succeeded : ℕ) : Job :=
  ⟨"docs-job", active, succeeded, 0, some 5, generateJobTemplate newcomer "image"⟩

/-- The Job has been made, and its pod runs. -/
def startedWorld : World := { reconciled^[2] newWorld with jobs := [onlyJob 1 0] }

def podRun : Option Bool × World × Fetches :=
  (Job.main (GitSpec.demoRemote [])).exec answer (startedWorld, [])

def pod : Attempt := ⟨podRun.1, podRun.2.2⟩

/-- The Job is over. -/
def endedWorld : World := { podRun.2.1 with jobs := [onlyJob 0 1] }

lemma life_reconciled {st : Stage} (h : Life x st w) : Life x st (reconciled w) :=
  h.reconciles (Ends.exec reconcile w (serves_serve False))

lemma life_newcomer : Life newcomer (.ended [pod] (onlyJob 0 1)) endedWorld := by
  have hnew : New newcomer newWorld :=
    ⟨rfl, rfl, rfl, rfl, by simp [newWorld, demoWorld, newcomer, demo], rfl⟩
  have hmade : (reconciled^[2] newWorld).jobs = [] ++ indexingJob newcomer "image" :: [] := by
    decide +kernel
  have hstarts : Env (.moves (onlyJob 1 0)) (reconciled^[2] newWorld) startedWorld :=
    .moves hmade (by decide) rfl
  have hstarted : Life newcomer (.active []) startedWorld :=
    .starts (life_reconciled (life_reconciled (.created hnew))) hstarts (by decide)
  have hpod : Life newcomer (.active [pod]) podRun.2.1 :=
    hstarted.attempts (a := pod) (Ends.exec _ (startedWorld, []) service_answer)
  have hactive : podRun.2.1.jobs = [] ++ onlyJob 1 0 :: [] := by decide +kernel
  have hended : Ended [pod] (onlyJob 0 1) :=
    ⟨rfl, iff_of_true (by decide) ⟨pod, rfl, by decide +kernel⟩, by decide⟩
  have hends : Env (.moves (onlyJob 0 1)) podRun.2.1 endedWorld := .moves hactive rfl rfl
  exact hpod.ends hends hended

theorem completed_iff_newcomer : (reconciled endedWorld).jobs = [onlyJob 0 1] ∧
    IsJob newcomer (onlyJob 0 1) ∧ ∃ o, (reconciled endedWorld).stored = some o ∧
      o.spec = newcomer.spec ∧
      (Succeeds [pod] ∧ (onlyJob 0 1).failed = 0 ∧ o.status.indexingPhase = .completed ∨
        ¬ (Succeeds [pod] ∧ (onlyJob 0 1).failed = 0) ∧ o.status.indexingPhase = .running) :=
  completed_iff life_newcomer (Ends.exec reconcile endedWorld (serves_serve False))

theorem indexed_of_completed_newcomer : ∃ a ∈ [pod].head?,
    a.fetched.map Prod.fst = ["http://example.com/a.md"] ∧
      ∃ old new, List.Forall₂ (IsDocument newcomer.tag) (texts a.fetched) new ∧
        documents ((reconciled endedWorld).store (Job.target newcomer).endpoint
          (Job.target newcomer).index) = old ++ new := by
  have hphase : ((reconciled endedWorld).stored.map (·.status.indexingPhase)) = some .completed := by
    decide +kernel
  obtain ⟨o, ho, hc⟩ := Option.map_eq_some_iff.mp hphase
  exact indexed_of_completed (s := ⟨["http://example.com/a.md"]⟩) (life_reconciled life_newcomer)
    rfl rfl ho hc

end KaitoAutoIndexer.OneTimeLife
