import KaitoAutoIndexer.System
import KaitoAutoIndexer.RunOutcome
import KaitoAutoIndexer.ControllerSpec

/-!
The runs over a database, one after another, and the records that arrive meanwhile: the query of a
run begins where the timestamp says that the run before has ended.
-/

namespace KaitoAutoIndexer.Windows

open KaitoAutoIndexer.Lib KaitoAutoIndexer.Types KaitoAutoIndexer.Cluster
open KaitoAutoIndexer.Rag KaitoAutoIndexer.JobClient KaitoAutoIndexer.Kusto KaitoAutoIndexer.Job
open KaitoAutoIndexer.System
open KaitoAutoIndexer.Git (Remote)
open KaitoAutoIndexer.RunOutcome (Reporting)
open KaitoAutoIndexer.ControllerSpec (demo demoWorld)

/-! ### Queries and the records they return -/

/-- A query, and when it was executed. -/
structure Asked where
  query : Query
  time : Time
  deriving DecidableEq

/-- The timestamp put into the query. -/
def since : Query → Option Time
  | .plain _ => none
  | .stamped _ t => some t

/-- A record that arrived at `a` is returned: it is there, and it is younger than the timestamp in
the query. -/
def Asked.Returns (x : Asked) (a : Time) : Prop := a ≤ x.time ∧ ∀ t ∈ since x.query, t < a

instance (x : Asked) (a : Time) : Decidable (x.Returns a) :=
  inferInstanceAs (Decidable (a ≤ x.time ∧ ∀ t ∈ since x.query, t < a))

/-- The world, and the queries executed in it, the last one first. -/
abbrev State := World × List Asked

/-- What `_get_last_checkpoint_time` looks for. -/
def checkpoint (w : World) : Option Time := w.stored.bind (·.status.lastIndexingTimestamp)

/-- Time passes, and others change whatever they like but the timestamp. -/
structure Elapses (w w' : World) : Prop where
  clock : w.clock ≤ w'.clock
  checkpoint : checkpoint w' = checkpoint w

def record (l : List Asked) (t : Time) : JobCall → List Asked
  | .kusto q => ⟨q, t⟩ :: l
  | _ => l

/-- The services of the cluster, after a while. -/
def service : Service State JobCall JobAnswer := fun x c r y =>
  ∃ w, Elapses x.1 w ∧ JobServes True w c r y.1 ∧ y.2 = record x.2 w.clock c

/-- Runs over a database one after another, each of them successful and begun in a state that
meets `cond`. -/
inductive Sequence (cond : State → Prop) : State → Prop
  | start {w : World} (h : checkpoint w = none) : Sequence cond (w, [])
  | wait {x : State} {w : World} (h : Sequence cond x) (hw : Elapses x.1 w) :
      Sequence cond (w, x.2)
  | run {x y : State} {r : Remote} {k : KustoHandler} (h : Sequence cond x) (hc : cond x)
      (he : Ends service (Job.run r (.database k)) x true y) : Sequence cond y

/-- No record has arrived after the last query and not after the timestamp. -/
def Calm (arrivals : Set Time) (x : State) : Prop :=
  ∀ last t, x.2.head? = some last → checkpoint x.1 = some t →
    ∀ a ∈ arrivals, last.time < a → t < a

/-! ### What a run asks -/

variable {x y z : State}

/-- Nothing but time passes. -/
structure Before (x y : State) : Prop where
  asked : y.2 = x.2
  clock : x.1.clock ≤ y.1.clock
  checkpoint : checkpoint y.1 = checkpoint x.1

lemma Before.refl (x : State) : Before x x := ⟨rfl, le_refl _, rfl⟩

lemma Before.trans (h : Before x y) (h' : Before y z) : Before x z :=
  ⟨h'.asked.trans h.asked, h.clock.trans h'.clock, h'.checkpoint.trans h.checkpoint⟩

/-- The time is asked for. -/
lemma before_now {t : Time} (h : service x .now t y) : Before x y := by
  obtain ⟨w, hw, ⟨-, hy⟩, hl⟩ := h
  refine ⟨hl, ?_, ?_⟩
  · rw [hy]
    exact hw.clock
  · rw [hy]
    exact hw.checkpoint

/-- The object is read: it has the timestamp that is stored. -/
lemma before_get {r : Except ApiError AutoIndexer} (h : service x .getAutoIndexer r y) :
    Before x y ∧ ∀ o, r = .ok o → o.status.lastIndexingTimestamp = checkpoint x.1 := by
  obtain ⟨w, hw, ⟨hy, hr⟩, hl⟩ := h
  refine ⟨⟨hl, ?_, ?_⟩, ?_⟩
  · rw [hy]
    exact hw.clock
  · rw [hy]
    exact hw.checkpoint
  · rintro o rfl
    rw [← hw.checkpoint]
    rcases hr with hr | ⟨-, m, hm⟩
    · unfold readAutoIndexer at hr
      split at hr
      · rename_i o' ho
        obtain rfl := Except.ok.inj hr
        simp [checkpoint, ho]
      · cases hr
    · cases hm

/-- The status is patched with the timestamp that is stored. -/
lemma before_patch {body : AutoIndexer} {r : Except ApiError Unit}
    (h : service x (.patchStatus body) r y)
    (hb : body.status.lastIndexingTimestamp = checkpoint x.1) : Before x y := by
  obtain ⟨w, hw, hs, hl⟩ := h
  have hkept : y.1.clock = w.clock ∧ checkpoint y.1 = checkpoint w := by
    rcases hs with hs | ⟨-, hy, -⟩
    · unfold patchJobStatus at hs
      split at hs
      · rename_i o ho
        split at hs
        · rw [(Prod.mk.inj hs).2]
          exact ⟨rfl, rfl⟩
        · rw [(Prod.mk.inj hs).2]
          refine ⟨rfl, ?_⟩
          rw [hw.checkpoint, ← hb]
          simp [checkpoint, AutoIndexer.withStatus]
      · rw [(Prod.mk.inj hs).2]
        exact ⟨rfl, rfl⟩
    · rw [hy]
      exact ⟨rfl, rfl⟩
  refine ⟨hl, ?_, hkept.2.trans hw.checkpoint⟩
  rw [hkept.1]
  exact hw.clock

lemma addStatusCondition_runs (type : String) (status : ConditionStatus) (reason message : String) :
    Runs service (fun _ y => Before x y) (addStatusCondition type status reason message) x := by
  intro r y hy
  obtain ⟨h1, hr⟩ := before_get hy
  match r with
  | .error .notFound => exact h1
  | .error .conflict => exact h1
  | .error (.other m) => exact h1
  | .ok o =>
    intro t z hz
    have h2 := h1.trans (before_now hz)
    intro r' u hu
    have h3 : Before z u := before_patch hu ((hr o rfl).trans h2.checkpoint.symm)
    cases r' with
    | ok _ => exact h2.trans h3
    | error _ => exact h2.trans h3

/-- A query was executed, from the timestamp on or without any bound. -/
def Asks (x y : State) : Prop :=
  ∃ e, y.2 = e :: x.2 ∧ x.1.clock ≤ e.time ∧
    ∀ t ∈ since e.query, checkpoint x.1 = some t

lemma Asks.before (h : Before x y) (h' : Asks y z) : Asks x z := by
  obtain ⟨e, he, htime, hquery⟩ := h'
  refine ⟨e, ?_, h.clock.trans htime, fun t ht => ?_⟩
  · rw [he, h.asked]
  · rw [← h.checkpoint, hquery t ht]

/-- Calls that execute no query. -/
def Unasking : JobCall → Prop
  | .kusto _ => False
  | _ => True

/-- What comes after the query leaves it the last one. -/
lemma Asks.keeps {α : Type} {p : Py α} (h : Obeys Unasking (fun _ => True) p) (hy : Asks x y) :
    Runs service (fun _ z => Asks x z) p y := by
  refine (h.runs (J := fun z => Asks x z) ?_ hy).mono fun _ _ h => h.2
  rintro y c r z hc ⟨e, he, hrest⟩ ⟨w, -, -, hl⟩
  refine ⟨e, ?_, hrest⟩
  rw [hl, ← he]
  cases c <;> first | rfl | exact hc.elim

lemma unasking_of_reporting {α : Type} {p : Py α} (h : Reporting p) :
    Obeys Unasking (fun _ => True) p := by
  refine h.mono (fun c hc => ?_) fun _ h => h
  cases c <;> trivial

lemma unasking_formatDocuments (k : KustoHandler) (records : List Record) :
    Obeys Unasking (fun _ => True) (k.formatDocuments records) := by
  induction records with
  | nil => trivial
  | cons record records ih =>
    unfold KustoHandler.formatDocuments
    split
    · exact ih
    · exact ⟨trivial, fun t => ih.bind fun docs _ => trivial⟩

lemma unasking_indexBatches (k : KustoHandler) (fuel number : ℕ) (docs : List Document)
    (errors : List String) :
    Obeys Unasking (fun _ => True) (k.indexBatches fuel number docs errors) := by
  induction fuel generalizing number docs errors with
  | zero => trivial
  | succ fuel ih =>
    unfold KustoHandler.indexBatches
    split
    · trivial
    · refine ⟨trivial, fun r => ?_⟩
      cases r with
      | ok _ => exact ih _ _ _
      | error _ => exact ih _ _ _

variable {r : Remote} {k : KustoHandler}

/-- The timestamp in a query is the stored one. -/
lemma buildQuery_runs :
    Runs service (fun q y => Before x y ∧
      ∀ query, q = .ok query → ∀ t ∈ since query, checkpoint x.1 = some t) k.buildQuery x := by
  have hquery : ∀ last query, k.query last = .ok query → ∀ t ∈ since query, last = some t := by
    intro last query hq t ht
    unfold KustoHandler.query at hq
    split at hq
    · cases hq
      cases ht
    · split at hq
      · cases hq
        cases ht
      · split at hq
        · cases hq
          exact ht
        · cases hq
  intro a y hy
  obtain ⟨h1, ha⟩ := before_get hy
  match a with
  | .error .notFound => exact ⟨h1, fun query hq t ht => nomatch hquery none query hq t ht⟩
  | .error .conflict => exact ⟨h1, fun query hq t ht => nomatch hquery none query hq t ht⟩
  | .error (.other m) => exact ⟨h1, fun query hq t ht => nomatch hquery none query hq t ht⟩
  | .ok o => exact ⟨h1, fun query hq t ht => (ha o rfl).symm.trans (hquery _ query hq t ht)⟩

lemma indexRecords_runs :
    Runs service (fun out y => out.1 = [] → Asks x y) k.indexRecords x := by
  refine buildQuery_runs.bind ?_
  rintro q y ⟨h1, hq⟩
  cases q with
  | error e => exact fun he => by simp at he
  | ok query =>
    intro a z hz
    have hasks : Asks x z := by
      obtain ⟨w, hw, -, hl⟩ := hz
      refine Asks.before h1 ⟨⟨query, w.clock⟩, hl, hw.clock, fun t ht => ?_⟩
      rw [h1.checkpoint]
      exact hq query rfl t ht
    cases a with
    | error e => exact fun he => by simp at he
    | ok records =>
      refine (hasks.keeps (unasking_formatDocuments k records)).bind fun docs u hu => ?_
      exact (hu.keeps (unasking_indexBatches k _ _ docs [])).bind fun errors v hv _ => hv

lemma Asks.now {t : Time} (h : Asks x y) (hz : service y .now t z) : Asks x z :=
  h.keeps (p := ask .now) ⟨trivial, fun _ => trivial⟩ t z hz

lemma updateIndex_runs :
    Runs service (fun out y => out.returned = [] → Asks x y) k.updateIndex x := by
  intro start y hy
  refine (indexRecords_runs (x := y) (k := k)).bind ?_
  rintro ⟨returned, errors⟩ z hz stop u hu he
  exact ((hz he).before (before_now hy)).now hu

/-- What is left to do once the indexing is over: if it went well, the query stays the last one. -/
lemma finish_runs {α : Type} {b : Bool} {p : Py α} (h : Reporting p) (hb : b = true → Asks x y) :
    Runs service (fun _ z => b = true → Asks x z) p y := by
  cases b with
  | true => exact ((hb rfl).keeps (unasking_of_reporting h)).mono fun _ _ h _ => h
  | false =>
    refine (h.runs (J := fun _ => True) (fun _ _ _ _ _ _ _ => trivial) trivial).mono ?_
    exact fun _ _ _ => nofun

/-- **A successful run executes one query**, which begins at the timestamp stored before the run. -/
lemma run_asks :
    Runs service (fun success y => success = true → Asks x y) (Job.run r (.database k)) x := by
  intro start y hy
  refine (addStatusCondition_runs _ _ _ _).bind fun _ z hz => ?_
  refine (updateIndex_runs (x := z) (k := k)).bind fun out u hu => ?_
  have h1 : out.returned.isEmpty = true → Asks x u :=
    fun he => ((hu (List.isEmpty_iff.mp he)).before hz).before (before_now hy)
  refine (finish_runs (RunOutcome.reporting_handler (.database k) out) h1).bind
    fun _ v h2 stop v' hv => ?_
  have h3 : out.returned.isEmpty = true → Asks x v' := fun he => (h2 he).now hv
  refine (finish_runs (RunOutcome.reporting_countDocuments _ _) h3).bind fun n v4 h4 => ?_
  split
  · refine (finish_runs (RunOutcome.reporting_addStatusCondition _ _ _ _) h4).bind fun _ v5 h5 => ?_
    exact (finish_runs (RunOutcome.reporting_updateIndexingCompletion _ _ _) h5).bind
      fun _ v6 h6 => nofun
  · rename_i hout
    have hempty : out.returned.isEmpty = true := List.isEmpty_iff.mpr (not_not.mp hout)
    refine (finish_runs (RunOutcome.reporting_addStatusCondition _ _ _ _) h4).bind fun _ v5 h5 => ?_
    exact (finish_runs (RunOutcome.reporting_updateIndexingCompletion _ _ _) h5).bind
      fun _ v6 h6 _ => h6 hempty

/-! ### No gap -/

variable {arrivals : Set Time}

/-- Every record that arrived after the first query and not after the last one was returned. -/
def Covered (arrivals : Set Time) (x : State) : Prop :=
  ∀ first last, x.2.getLast? = some first → x.2.head? = some last →
    ∀ a ∈ arrivals, first.time < a → a ≤ last.time → ∃ e ∈ x.2, e.Returns a

lemma covered_asks (h : Covered arrivals x) (hc : Calm arrivals x) (hy : Asks x y) :
    Covered arrivals y := by
  obtain ⟨e, he, -, hquery⟩ := hy
  intro first last hfirst hlast a ha hafter hbefore
  rw [he] at hfirst hlast ⊢
  obtain rfl : e = last := by simpa using hlast
  cases hx : x.2 with
  | nil =>
    rw [hx] at hfirst
    obtain rfl : e = first := by simpa using hfirst
    exact absurd hbefore (not_le.mpr hafter)
  | cons previous rest =>
    rw [hx, List.getLast?_cons_cons] at hfirst
    by_cases hold : a ≤ previous.time
    · obtain ⟨e', he', hreturn⟩ := h first previous (by rw [hx, hfirst]) (by rw [hx]; rfl) a ha
        hafter hold
      refine ⟨e', List.mem_cons_of_mem _ ?_, hreturn⟩
      rwa [← hx]
    · refine ⟨e, List.mem_cons_self, hbefore, fun t ht => ?_⟩
      exact hc previous t (by rw [hx]; rfl) (hquery t ht) a ha (not_le.mp hold)

lemma covered_of_sequence (h : Sequence (Calm arrivals) x) : Covered arrivals x := by
  induction h with
  | start => exact fun _ _ hfirst => nomatch hfirst
  | wait _ _ ih => exact ih
  | run _ hc he ih => exact covered_asks ih hc (run_asks.ends he rfl)

/-- **The windows of the incremental queries leave no gap**, as long as no record arrives between
the query of a run and the timestamp that is stored when the next run begins: a record that arrives
after the first query is returned, once a run has begun after it arrived. -/
theorem no_gap {r : Remote} {k : KustoHandler} {first : Asked} {a : Time}
    (h : Sequence (Calm arrivals) x) (hc : Calm arrivals x)
    (he : Ends service (Job.run r (.database k)) x true y) (hfirst : y.2.getLast? = some first)
    (ha : a ∈ arrivals) (hafter : first.time < a) (hbefore : a ≤ x.1.clock) :
    ∃ e ∈ y.2, e.Returns a := by
  have hasks : Asks x y := run_asks.ends he rfl
  have hcovered := covered_asks (covered_of_sequence h) hc hasks
  obtain ⟨e, hy, htime, -⟩ := hasks
  exact hcovered first e hfirst (by rw [hy]; rfl) a ha hafter (hbefore.trans htime)

/-! ### Two runs -/

/-- An AutoIndexer over a database. -/
def databaseDemo : AutoIndexer :=
  { demo with spec := { demo.spec with
      dataSource := ⟨.database, none, none, some ⟨"Kusto", "Records",
        some "Records | where Timestamp > datetime($LAST_INDEXING_TIMESTAMP)"⟩⟩ } }

def databaseHandler : KustoHandler :=
  kustoHandler databaseDemo ⟨"Kusto", "Records",
    some "Records | where Timestamp > datetime($LAST_INDEXING_TIMESTAMP)"⟩

/-- Every call takes a second. -/
def slowly (x : State) (c : JobCall) : JobAnswer c × State :=
  let w := { x.1 with clock := x.1.clock + 1000000 }
  ((jobServe w c).1, (jobServe w c).2, record x.2 w.clock c)

lemma service_slowly (x : State) (c : JobCall) : service x c (slowly x c).1 (slowly x c).2 :=
  ⟨{ x.1 with clock := x.1.clock + 1000000 }, ⟨Nat.le_add_right _ _, rfl⟩,
    jobServes_jobServe True _ c, rfl⟩

/-- The state after a run that begins in `x`. -/
def next (x : State) : Bool × State :=
  (Job.run (GitSpec.demoRemote []) (.database databaseHandler)).exec slowly x

lemma ends_next (x : State) :
    Ends service (Job.run (GitSpec.demoRemote []) (.database databaseHandler)) x (next x).1
      (next x).2 := Ends.exec _ _ service_slowly

def opened : State := ({ demoWorld with stored := some databaseDemo }, [])

def once : State := (next opened).2

/-- The two runs, evaluated. -/
lemma two_runs :
    ((next opened).1 = true ∧ checkpoint once.1 = some 24000000 ∧ 26000000 ≤ once.1.clock) ∧
    (next once).1 = true ∧ (next once).2.2.getLast? = some ⟨.plain "Records", 8000000⟩ ∧
    ∀ e ∈ (next once).2.2, ¬ e.Returns 20000000 := by
  decide +kernel

lemma sequence_once {cond : State → Prop} (hc : cond opened) : Sequence cond once := by
  have hend := ends_next opened
  rw [two_runs.1.1] at hend
  exact .run (.start rfl) hc hend

lemma ends_once : Ends service (Job.run (GitSpec.demoRemote []) (.database databaseHandler)) once true
    (next once).2 := by
  have hend := ends_next once
  rw [two_runs.2.1] at hend
  exact hend

/-- A record that arrives after the first run is returned by the second. -/
theorem no_gap_after : ∃ e ∈ (next once).2.2, e.Returns 26000000 := by
  obtain ⟨⟨-, hstored, hclock⟩, -, hfirst, -⟩ := two_runs
  have hcalm : Calm {26000000} once := by
    rintro last t hlast ht a rfl -
    obtain rfl : 24000000 = t := Option.some.inj (hstored.symm.trans ht)
    decide
  exact no_gap (sequence_once fun _ _ hlast => nomatch hlast) hcalm ends_once hfirst rfl (by decide) hclock

/-- A record that arrives while the first run still sends its documents is never returned. -/
theorem not_no_gap :
    ¬ ∀ (x y : State) (r : Remote) (k : KustoHandler) (first : Asked) (a : Time),
      Sequence (fun _ => True) x → Ends service (Job.run r (.database k)) x true y →
      y.2.getLast? = some first → first.time < a → a ≤ x.1.clock → ∃ e ∈ y.2, e.Returns a := by
  intro h
  obtain ⟨⟨-, -, hclock⟩, -, hfirst, hnone⟩ := two_runs
  have hbefore : 20000000 ≤ once.1.clock := le_trans (by decide) hclock
  obtain ⟨e, he, hreturns⟩ := h once _ _ _ _ 20000000 (sequence_once trivial) ends_once hfirst (by decide)
    hbefore
  exact hnone e he hreturns

end KaitoAutoIndexer.Windows
