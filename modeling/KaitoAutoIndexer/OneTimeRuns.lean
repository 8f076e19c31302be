import KaitoAutoIndexer.Retries
import KaitoAutoIndexer.LiveJobs

/-!
What decides the outcome of a one-time AutoIndexer after its phase was reset to Pending: the Jobs
that are made for it since, and those that were there before.
-/

namespace KaitoAutoIndexer.OneTimeRuns

open KaitoAutoIndexer.Lib KaitoAutoIndexer.Types KaitoAutoIndexer.Cluster
open KaitoAutoIndexer.Controller KaitoAutoIndexer.ControllerCalls
open KaitoAutoIndexer.System KaitoAutoIndexer.SystemSteps
open KaitoAutoIndexer.ControllerSteps (Knows note PhaseStep)
open KaitoAutoIndexer.JobStatus (scanJobs_counts Failing Completed)
open KaitoAutoIndexer.Retries (Handles handles_deleteIndex handles_handlePhase)
open KaitoAutoIndexer.ControllerSpec (demoTemplate)
open KaitoAutoIndexer.LiveJobs (jobs_of_serves jobs_of_jobServes)

/-! ### Why a reconcile turns to another phase -/

/-- The Job could not be looked up, or not be created. -/
def refuses : (c : Call) → Answer c → Bool
  | .getJob _, .error .notFound => false
  | .getJob _, .error _ => true
  | .createJob _ _, .error _ => true
  | _, _ => false

/-- What a reconcile knows, and whether a call for the Job was refused since it began. -/
def noteJob (g : Knows × Bool) (c : Call) (r : Answer c) : Knows × Bool :=
  (note g.1 c r, g.2 || refuses c r)

/-- A run that ends like this Job leaves the AutoIndexer in this phase. -/
def Outcome (j : Job) : Phase → Prop
  | .completed => Completed j
  | .failed => Failing j
  | _ => False

/-- A one-time run is over in this phase. -/
def Over (p : Phase) : Prop := p = .completed ∨ p = .failed

/-- A Job of the listing has ended like this. -/
def Listed (g : Knows) (p : Phase) : Prop := ∃ js, g.listing = some js ∧ ∃ j ∈ js, Outcome j p

/-- The object turns from Pending to Failed when a call for the Job was refused, and from Running
to Completed or Failed when a Job has ended like this. -/
structure Reason (g : Knows × Bool) (x : AutoIndexer) (p : Phase) : Prop where
  pending : x.status.indexingPhase = .pending → p = .failed → g.2 = true
  running : x.status.indexingPhase = .running → Over p → Listed g.1 p

/-- A Job is made from the object that is handled, the phase has its reason, and the object that is
handled stays the same once the Jobs are listed. -/
def Reasoned (g : Knows × Bool) : Call → Prop
  | .get => g.1.listing = none
  | .patch a b => b.finalizers = a.finalizers ∨ g.1.listing = none
  | .createJob name t => ∃ o, g.1.base = some o ∧ name = o.name ++ "-job" ∧ t.spec = o.spec
  | .patchStatus x m => Reason g x m.status.indexingPhase
  | _ => True

abbrev Minds {α : Type} (Q : α → Knows × Bool → Prop) (p : Go α) (g : Knows × Bool) : Prop :=
  Tells noteJob Reasoned Q p g

variable {α : Type} {g : Knows × Bool} {o m : AutoIndexer}

lemma reason_same {p : Phase} (hp : p = o.status.indexingPhase) : Reason g o p := by
  subst hp
  refine ⟨fun h h' => ?_, fun h h' => ?_⟩
  · rw [h] at h'
    cases h'
  · rw [h] at h'
    rcases h' with h' | h' <;> cases h'

lemma base_note {k : Knows} {c : Call} (hc : Handles c) (r : Answer c) :
    (note k c r).base = k.base := by
  cases c with
  | get => exact hc.elim
  | patch a b =>
    cases r with
    | error e => rfl
    | ok o => simp [note, hc.2]
  | listJobs => cases r <;> rfl
  | httpDeleteIndex e i => cases r <;> rfl
  | _ => first | exact hc.elim | rfl

/-- The calls that make no Job and do not write the status. -/
lemma minds_of_handles {P : α → Prop} {p : Go α} (h : Obeys Handles P p) :
    Minds (fun a g' => P a ∧ g'.1.base = g.1.base) p g := by
  refine h.tells (J := fun g' : Knows × Bool => g'.1.base = g.1.base) ?_ ?_ rfl
  · intro g' c _ hc
    cases c <;> first | exact hc.elim | exact .inl hc.2 | trivial
  · intro g' c r hc hb
    exact (base_note hc r).trans hb

lemma Handles.of_prepares {c : Call} (h : Prepares c) : Handles c := by
  cases c <;> first | exact h.elim | trivial

/-! ### The handlers -/

/-- The Job is made from the object that is handled, unless it is there or a call is refused. -/
lemma ensureJob_minds (hb : g.1.base = some o) (hm : SameButConditions o m) :
    Minds (fun e g' => e ≠ none → g'.2 = true) (ensureJob m) g := by
  obtain ⟨cs, -, rfl⟩ := hm
  refine tells_ask trivial fun image => tells_ask trivial fun r => ?_
  match r with
  | .ok j => exact tells_ret fun h => absurd rfl h
  | .error .notFound =>
    refine tells_ask ⟨o, hb, rfl, rfl⟩ fun r => ?_
    cases r with
    | ok u => exact tells_ret fun h => absurd rfl h
    | error e => exact tells_ret fun _ => by simp [noteJob, refuses]
  | .error .conflict => exact tells_ret fun _ => by simp [noteJob, refuses]
  | .error (.other e) => exact tells_ret fun _ => by simp [noteJob, refuses]

lemma finished_of_failing {j : Job} (hj : Failing j) : j.finished = true := by
  simp [Job.finished, hj.1, hj.2]

lemma finished_of_completed {j : Job} (hj : Completed j) : j.finished = true := by
  simp [Job.finished, hj.1, hj.2.2]

lemma finished_of_outcome {j : Job} {p : Phase} (h : Outcome j p) : j.finished = true := by
  cases p with
  | completed => exact finished_of_completed h
  | failed => exact finished_of_failing h
  | _ => exact h.elim

lemma exists_failing {js : List Job} (h : 0 < (scanJobs js).failed) : ∃ j ∈ js, Failing j := by
  obtain ⟨-, hf, -⟩ := scanJobs_counts js
  rw [hf, List.countP_pos_iff] at h
  obtain ⟨j, hj, hfail⟩ := h
  exact ⟨j, hj, of_decide_eq_true hfail⟩

lemma exists_completed {js : List Job} (h : 0 < (scanJobs js).completed) : ∃ j ∈ js, Completed j := by
  obtain ⟨-, -, hc⟩ := scanJobs_counts js
  rw [hc, List.countP_pos_iff] at h
  obtain ⟨j, hj, hcomp⟩ := h
  exact ⟨j, hj, of_decide_eq_true hcomp⟩

/-- How a handler leaves the phase in memory. -/
def Turns (o : AutoIndexer) (r : AutoIndexer × Err) (g : Knows × Bool) : Prop :=
  Reason g o r.1.status.indexingPhase

lemma handlePendingPhase_minds (hb : g.1.base = some o) (hm : SameButConditions o m)
    (hp : o.status.indexingPhase = .pending) : Minds (Turns o) (handlePendingPhase m) g := by
  have hreason : ∀ {g' : Knows × Bool} {p : Phase}, p ≠ .failed → Reason g' o p :=
    fun hne => ⟨fun _ h => absurd h hne, fun h => absurd (hp.symm.trans h) (by decide)⟩
  unfold handlePendingPhase
  split
  · split
    · exact tells_ret (hreason (by simp [updateStatus, AutoIndexer.withStatus]))
    · exact tells_ret (hreason (by simp [updateStatus, AutoIndexer.withStatus]))
  · refine (ensureJob_minds hb hm).bind fun e g1 he => ?_
    cases e with
    | none => exact tells_ret (hreason (by simp [updateStatus, AutoIndexer.withStatus]))
    | some e =>
      have hg : g1.2 = true := he (by simp)
      refine tells_ask trivial fun t => tells_ask trivial fun t' => tells_ret ⟨fun _ _ => ?_, ?_⟩
      · simp [noteJob, hg]
      · exact fun h => absurd (hp.symm.trans h) (by decide)

lemma handleRunningPhase_minds (hm : m.status.indexingPhase = o.status.indexingPhase)
    (hp : o.status.indexingPhase = .running) : Minds (Turns o) (handleRunningPhase m) g := by
  have hrunning : ∀ {g' : Knows × Bool} {p : Phase}, (Over p → Listed g'.1 p) → Reason g' o p :=
    fun hl => ⟨fun h => absurd (hp.symm.trans h) (by decide), fun _ => hl⟩
  unfold handleRunningPhase getJobStatus
  refine tells_ask trivial fun r => ?_
  cases r with
  | error e => exact tells_ret (reason_same hm)
  | ok jobs =>
    change Minds (Turns o) (if (scanJobs jobs).running = 0 then _ else _) _
    split
    · split
      · rename_i hf
        exact tells_ret (hrunning fun _ => ⟨jobs, rfl, exists_failing hf.1⟩)
      · split
        · rename_i hc
          split
          · exact tells_ret (hrunning fun h => by rcases h with h | h <;> cases h)
          · exact tells_ret (hrunning fun _ => ⟨jobs, rfl, exists_completed hc⟩)
        · exact tells_ret (reason_same hm)
    · exact tells_ret (reason_same hm)

lemma handlePhase_minds (hb : g.1.base = some o) (hm : SameButConditions o m) :
    Minds (Turns o) (handlePhase m) g := by
  obtain ⟨hphase, hspec⟩ := Retries.phase_of_sameButConditions hm
  by_cases hp : o.status.indexingPhase = .pending
  · have hpending : handlePhase m = handlePendingPhase m := by
      unfold handlePhase
      rw [hphase, hp]
    rw [hpending]
    exact handlePendingPhase_minds hb hm hp
  by_cases hr : o.status.indexingPhase = .running
  · have hrunning : handlePhase m = handleRunningPhase m := by
      unfold handlePhase
      rw [hphase, hr]
    rw [hrunning]
    exact handleRunningPhase_minds hphase hr
  · have hother : ¬ (m.status.indexingPhase = .pending ∧ m.spec.schedule = none) := by
      rw [hphase]
      exact fun h => hp h.1
    refine (minds_of_handles (handles_handlePhase hother)).mono (fun _ _ h => h) fun r g' _ => ?_
    exact ⟨fun h => absurd h hp, fun h => absurd h hr⟩

/-! ### A reconcile -/

lemma patchAndReturn_minds {err : Err} (h : Reason g o m.status.indexingPhase) :
    Minds (fun _ _ => True) (patchAndReturn m o err) g := by
  unfold patchAndReturn
  split
  · refine tells_ask h fun r => ?_
    cases r <;> exact tells_ret trivial
  · exact tells_ret trivial

lemma reason_tick {p : Phase} (h : Reason g o p) (t : Time) : Reason (noteJob g .now t) o p :=
  ⟨fun h1 h2 => by simp [noteJob, h.pending h1 h2], fun h1 h2 => h.running h1 h2⟩

lemma syncAutoIndexer_minds (hb : g.1.base = some o) :
    Minds (fun _ _ => True) (syncAutoIndexer o) g := by
  have hprepares : Obeys Handles (fun r => SameButConditions o r.1) (ensureRequiredResources o) :=
    (prepares_ensureRequiredResources o).mono (fun _ => Handles.of_prepares) fun _ h => h
  refine (minds_of_handles hprepares).bind ?_
  rintro ⟨m, e⟩ g1 ⟨hm, hb1⟩
  have hb1 : g1.1.base = some o := hb1.trans hb
  cases e with
  | some e => exact patchAndReturn_minds (reason_same (Retries.phase_of_sameButConditions hm).1)
  | none =>
    refine (handlePhase_minds hb1 hm).bind ?_
    rintro ⟨m, e⟩ g2 hturns
    cases e with
    | some e => exact tells_ask trivial fun t => patchAndReturn_minds (reason_tick hturns t)
    | none =>
      exact tells_ask trivial fun t => tells_ask trivial fun t' =>
        patchAndReturn_minds (reason_tick (reason_tick hturns t) t')

lemma garbageCollectAutoIndexer_minds (o : AutoIndexer) :
    Minds (fun _ _ => True) (garbageCollectAutoIndexer o) g := by
  unfold garbageCollectAutoIndexer
  refine tells_ask trivial fun r => ?_
  cases r with
  | error e => exact tells_ret trivial
  | ok jobs =>
    change Minds _ (if (jobs.any fun j => j.active ≠ 0) = true then _ else _) _
    split
    · exact tells_ret trivial
    · refine (minds_of_handles (handles_deleteIndex _ _ _)).bind fun e g' _ => ?_
      cases e with
      | some e => exact tells_ret trivial
      | none =>
        dsimp only
        split
        · exact tells_ask trivial fun r => tells_ret trivial
        · exact tells_ret trivial

/-- A reconcile makes the Job from the object it handles, and has its reasons to turn to another
phase. -/
lemma reconcile_minds : Minds (fun _ _ => True) reconcile (ControllerSteps.fresh, false) := by
  refine tells_ask (show Reasoned _ _ from rfl) fun r => ?_
  match r with
  | .error .notFound => exact tells_ret trivial
  | .error .conflict => exact tells_ret trivial
  | .error (.other m) => exact tells_ret trivial
  | .ok o =>
    change Minds _ (reconcileObject o) _
    unfold reconcileObject
    split
    · exact garbageCollectAutoIndexer_minds o
    · unfold ensureFinalizer
      split
      · exact syncAutoIndexer_minds rfl
      · rename_i hf
        refine tells_ask (show Reasoned _ _ from .inr rfl) fun r => ?_
        cases r with
        | error e => exact tells_ret trivial
        | ok o' =>
          refine syncAutoIndexer_minds ?_
          simp [noteJob, note]

/-! ### What is kept of a run -/

/-- What was seen since the phase was reset. -/
structure Record where
  /-- A call for the Job was refused since the reconcile began. -/
  refused : Bool
  /-- The specs that were stored. -/
  specs : List Spec
  /-- The names of the Jobs that the controller has made and that are still there. -/
  made : List String
  /-- The Jobs that the controller has made, as they were when they finished. -/
  done : List Job

def refusedBy (b : Bool) : system.Event → Bool
  | .begin .controller => false
  | .call .controller c r => b || refuses c r
  | _ => b

def madeBy (made : List String) : system.Event → List String
  | .call .controller (.createJob name _) (.ok _) => name :: made
  | .act (.fires name) => made.filter (· ≠ name)
  | .act (.gone name) => made.filter (· ≠ name)
  | _ => made

def doneBy (made : List String) : system.Event → List Job
  | .act (.moves job) => if job.finished ∧ job.name ∈ made then [job] else []
  | _ => []

def keep (x : World × account.Notes × Record) (e : system.Event) : Record where
  refused := refusedBy x.2.2.refused e
  specs := (x.1.stored.map AutoIndexer.spec).toList ++ x.2.2.specs
  made := madeBy x.2.2.made e
  done := doneBy x.2.2.made e ++ x.2.2.done

/-! ### What is wanted, and when -/

/-- If the run is over again, then a Job has ended like this that was made after the reset, from a
spec that was stored since. -/
def RunAgain (w : World) (r : Record) : Prop :=
  ∀ o, w.stored = some o → Over o.status.indexingPhase →
    ∃ j ∈ r.done, Outcome j o.status.indexingPhase ∧ j.template.spec ∈ r.specs

/-- The calls for the Job are answered, and in the phase Running every finished Job that is listed
was made by the controller after the reset. -/
def Clean (x : World × account.Notes × Record) : system.Event → Prop
  | .call .controller (.getJob name) r => refuses (.getJob name) r = false
  | .call .controller (.createJob name t) r =>
    refuses (.createJob name t) r = false ∧ ∀ j ∈ x.1.jobs, j.name ≠ name
  | .call .controller .listJobs (.ok js) => ∀ o, (x.2.1 .controller : Knows).base = some o →
    o.status.indexingPhase = .running → ∀ j ∈ js, j.finished = true → j.name ∈ x.2.2.made
  | _ => True

/-- The phase of a one-time AutoIndexer was reset while no Job of it is active. -/
def Reset (w : World) : Prop :=
  (∃ o, w.stored = some o ∧ o.status.indexingPhase = .pending ∧ o.spec.schedule = none) ∧
    ∀ j ∈ w.jobs, j.active = 0

/-- Nothing has been seen since. -/
def Restarted (s : System.Config system (account.Notes × Record)) : Prop :=
  StartWith ⟨false, [], [], []⟩ s ∧ Reset s.world

/-! ### Reasons in a run -/

abbrev Knowing : Actor → Type
  | .controller => Knows × Bool
  | .detector => DetectorSteps.Seen
  | .job => JobSteps.Told

/-- Besides what the programs are told, whether a call for the Job was refused. -/
abbrev reasons : System.Account system where
  Know := Knowing
  fresh
    | .controller => (ControllerSteps.fresh, false)
    | .detector => DetectorSteps.unseen
    | .job => JobSteps.untold
  note
    | .controller => noteJob
    | .detector => DetectorSteps.look
    | .job => JobSteps.hear
  lawful
    | .controller => Reasoned
    | .detector => DetectorSteps.Lawful
    | .job => JobSteps.Lawful
  ends
    | .controller => fun _ _ => True
    | .detector => fun _ _ => True
    | .job => JobSteps.Finishes
  tells
    | .controller, _, hp => by
      cases hp
      exact reconcile_minds
    | .detector, _, hp => by
      cases hp
      exact DetectorSteps.performDriftCheck_steps
    | .job, _, hp => by
      obtain ⟨r, rfl⟩ := hp
      exact JobSteps.main_steps r

/-- What the programs are told, and what is kept of the controller. -/
def known (x : account.Notes × Record) : reasons.Notes
  | .controller => (x.1 .controller, x.2.refused)
  | .detector => x.1 .detector
  | .job => x.1 .job

lemma known_keep (x : World × account.Notes × Record) (e : system.Event) :
    known (account.watch x.2.1 e, keep x e) = reasons.watch (known x.2) e := by
  funext i
  match e with
  | .begin j => cases i <;> cases j <;> rfl
  | .call .controller c r => cases i <;> rfl
  | .call .detector c r => cases i <;> rfl
  | .call .job c r => cases i <;> rfl
  | .finish j a => cases i <;> rfl
  | .crash j => cases i <;> rfl
  | .act a => cases i <;> rfl

variable {cond : World × account.Notes × Record → system.Event → Prop}
  {s s' : System.Config system (account.Notes × Record)} {w w' : World} {k : account.Notes}
  {r : Record} {e : system.Event}

/-- In every run the controller makes its Jobs and turns to its phases for the reasons above. -/
lemma reasoned_of_reach (h : System.Reach (account.observer keep) cond Restarted s)
    (hs : System.Step (account.observer keep) s e s') {c : Call} {a : Answer c}
    (he : e = .call .controller c a) :
    Reasoned (s.record.1 .controller, s.record.2.refused) c := by
  subst he
  let obs : World × reasons.Notes × Unit → system.Event → Unit := fun _ _ => ()
  have hobs : ∀ x e, (known (account.observer keep x e), ()) =
      reasons.observer obs (x.1, known x.2, ()) e := by
    intro x e
    exact congrArg (·, ()) (known_keep x e)
  have hreach : System.Reach (reasons.observer obs) (fun _ _ => True) (fun s => ∀ i, s.threads i = none)
      ⟨s.world, (known s.record, ()), s.threads⟩ :=
    System.Reach.map (f := fun g => (known g, ())) hobs (fun _ _ _ => trivial) (fun s hs => hs.1.1.1) h
  have hstep : System.Step (reasons.observer obs) ⟨s.world, (known s.record, ()), s.threads⟩
      (.call .controller c a) ⟨s'.world, (known s'.record, ()), s'.threads⟩ :=
    System.Step.map (f := fun g => (known g, ())) hobs hs
  exact (System.Account.allows (fun _ hs => hs) hreach hstep).1

/-! ### The invariant -/

/-- The Jobs that the controller has made since the reset: each is made from a spec that was stored,
and is on record when it has finished. -/
structure Jobs (w : World) (r : Record) : Prop where
  specs : ∀ j ∈ w.jobs, j.name ∈ r.made → j.template.spec ∈ r.specs
  finished : ∀ j ∈ w.jobs, j.name ∈ r.made → j.finished = true → j ∈ r.done
  done : ∀ j ∈ r.done, j.template.spec ∈ r.specs

/-- What a reconcile knows since it began. -/
structure Knowledge (w : World) (g : Knows) (r : Record) : Prop where
  answered : r.refused = false
  base : ∀ x, g.base = some x → x.spec ∈ r.specs ∨ ∃ o, w.stored = some o ∧ o.spec = x.spec
  listed : ∀ x, g.base = some x → x.status.indexingPhase = .running →
    ∀ js, g.listing = some js → ∀ j ∈ js, j.finished = true → j ∈ r.done

structure Inv (w : World) (k : account.Notes) (r : Record) : Prop where
  jobs : Jobs w r
  knows : Knowledge w (k .controller) r
  ended : ∀ o, w.stored = some o → Over o.status.indexingPhase →
    ∃ j ∈ r.done, Outcome j o.status.indexingPhase

lemma mem_specs_keep {spec : Spec} (h : spec ∈ r.specs) : spec ∈ (keep (w, k, r) e).specs :=
  List.mem_append_right _ h

lemma stored_mem_specs_keep {o : AutoIndexer} (ho : w.stored = some o) :
    o.spec ∈ (keep (w, k, r) e).specs :=
  List.mem_append_left _ (by simp [ho])

lemma mem_done_keep {j : Job} (h : j ∈ r.done) : j ∈ (keep (w, k, r) e).done :=
  List.mem_append_right _ h

/-- Unless a Job comes or goes, or its status changes, the Jobs stay as they are. -/
lemma jobs_same (hinv : Jobs w r) (hjobs : w'.jobs = w.jobs) (hmade : madeBy r.made e = r.made)
    (hdone : doneBy r.made e = []) : Jobs w' (keep (w, k, r) e) := by
  constructor
  · intro j hj hname
    rw [hjobs] at hj
    simp only [keep, hmade] at hname
    exact mem_specs_keep (hinv.specs j hj hname)
  · intro j hj hname hfin
    rw [hjobs] at hj
    simp only [keep, hmade] at hname
    simpa [keep, hdone] using hinv.finished j hj hname hfin
  · intro j hj
    simp only [keep, hdone, List.nil_append] at hj
    exact mem_specs_keep (hinv.done j hj)

/-- The Job that the controller makes is made from a spec that was stored. -/
lemma jobs_made (hinv : Jobs w r) (hknows : Knowledge w (k .controller) r) {name : String}
    {t : JobTemplate} {o : AutoIndexer} (ho : (k .controller : Knows).base = some o)
    (ht : t.spec = o.spec) (hnew : ∀ j ∈ w.jobs, j.name ≠ name)
    (hjobs : w'.jobs = w.jobs ++ [⟨name, 0, 0, 0, none, t⟩]) :
    Jobs w' (keep (w, k, r) (.call .controller (.createJob name t) (.ok ()))) := by
  have hold : ∀ j ∈ w.jobs, j.name ∈ name :: r.made → j.name ∈ r.made := by
    intro j hj hname
    exact (List.mem_cons.mp hname).resolve_left (hnew j hj)
  constructor
  · intro j hj hname
    rw [hjobs, List.mem_append, List.mem_singleton] at hj
    rcases hj with hj | rfl
    · exact mem_specs_keep (hinv.specs j hj (hold j hj hname))
    · rw [ht]
      rcases hknows.base o ho with hspec | ⟨o', ho', hspec⟩
      · exact mem_specs_keep hspec
      · rw [← hspec]
        exact stored_mem_specs_keep ho'
  · intro j hj hname hfin
    rw [hjobs, List.mem_append, List.mem_singleton] at hj
    rcases hj with hj | rfl
    · exact hinv.finished j hj (hold j hj hname) hfin
    · cases hfin
  · exact fun j hj => mem_specs_keep (hinv.done j hj)

/-- What goes, or is made by others, is no longer one of them. -/
lemma jobs_forgotten (hinv : Jobs w r) {name : String} (hjobs : ∀ j ∈ w'.jobs, j ∈ w.jobs ∨ j.name = name)
    (hmade : madeBy r.made e = r.made.filter (· ≠ name)) (hdone : doneBy r.made e = []) :
    Jobs w' (keep (w, k, r) e) := by
  have hold : ∀ j ∈ w'.jobs, j.name ∈ (keep (w, k, r) e).made → j ∈ w.jobs ∧ j.name ∈ r.made := by
    intro j hj hname
    simp only [keep, hmade, List.mem_filter, decide_eq_true_eq] at hname
    exact ⟨(hjobs j hj).resolve_right hname.2, hname.1⟩
  constructor
  · intro j hj hname
    obtain ⟨hj, hname⟩ := hold j hj hname
    exact mem_specs_keep (hinv.specs j hj hname)
  · intro j hj hname hfin
    obtain ⟨hj, hname⟩ := hold j hj hname
    simpa [keep, hdone] using hinv.finished j hj hname hfin
  · intro j hj
    simp only [keep, hdone, List.nil_append] at hj
    exact mem_specs_keep (hinv.done j hj)

/-- When a Job of the controller finishes, it is put on record. -/
lemma jobs_moved (hinv : Jobs w r) {job old : Job} (hold : old ∈ w.jobs) (hn : job.name = old.name)
    (ht : job.template = old.template) (hjobs : ∀ j ∈ w'.jobs, j ∈ w.jobs ∨ j = job) :
    Jobs w' (keep (w, k, r) (.act (.moves job))) := by
  have hspec : job.name ∈ r.made → job.template.spec ∈ r.specs := by
    rw [hn, ht]
    exact hinv.specs old hold
  constructor
  · intro j hj hname
    rcases hjobs j hj with hj | rfl
    · exact mem_specs_keep (hinv.specs j hj hname)
    · exact mem_specs_keep (hspec hname)
  · intro j hj hname hfin
    rcases hjobs j hj with hj | rfl
    · exact List.mem_append_right _ (hinv.finished j hj hname hfin)
    · refine List.mem_append_left _ ?_
      have hmade : j.name ∈ r.made := hname
      simp [doneBy, hfin, hmade]
  · intro j hj
    rcases List.mem_append.mp hj with hj | hj
    · unfold doneBy at hj
      dsimp only at hj
      split at hj
      · rename_i hfin
        obtain rfl := List.mem_singleton.mp hj
        exact mem_specs_keep (hspec hfin.2)
      · cases hj
    · exact mem_specs_keep (hinv.done j hj)

lemma jobs_step (hinv : Jobs w r) (hknows : Knowledge w (k .controller) r)
    (hc : Clean (w, k, r) e) (hl : account.Allows k e) (h : system.Happens w e w')
    (hreason : ∀ (c : Call) (a : Answer c), e = .call .controller c a →
      Reasoned (k .controller, r.refused) c) : Jobs w' (keep (w, k, r) e) := by
  match e with
  | .begin .controller => exact jobs_same hinv (congrArg World.jobs h) rfl rfl
  | .begin .detector => exact jobs_same hinv (congrArg World.jobs h) rfl rfl
  | .begin .job => exact jobs_same hinv (congrArg World.jobs h) rfl rfl
  | .finish i a => exact jobs_same hinv (congrArg World.jobs h) rfl rfl
  | .crash i => exact jobs_same hinv (congrArg World.jobs h) rfl rfl
  | .call .job c a => exact jobs_same hinv (jobs_of_jobServes h) rfl rfl
  | .call .detector c a =>
    refine jobs_same hinv (jobs_of_serves h ?_) rfl rfl
    rintro n t rfl
    cases hl
  | .call .controller c a =>
    have hjobs : (∀ n t, c ≠ .createJob n t) → w'.jobs = w.jobs := jobs_of_serves h
    cases c with
    | createJob name t =>
      obtain ⟨o, ho, -, ht⟩ := hreason _ _ rfl
      cases a with
      | error m => cases hc.1
      | ok u =>
        refine jobs_made hinv hknows ho ht hc.2 ?_
        rcases h with h | ⟨-, ⟨m, hm⟩, -⟩
        · exact congrArg World.jobs (congrArg Prod.snd h)
        · cases hm
    | _ => exact jobs_same hinv (hjobs (by simp)) rfl rfl
  | .act (.moves job) =>
    cases h with
    | moves hjobs hn ht =>
      refine jobs_moved hinv (hjobs ▸ List.mem_append_right _ List.mem_cons_self) hn ht fun j hj => ?_
      rw [hjobs]
      simp only [List.mem_append, List.mem_cons] at hj ⊢
      tauto
  | .act (.fires name) =>
    cases h with
    | fires =>
      refine jobs_forgotten hinv (fun j hj => ?_) rfl rfl
      rcases List.mem_append.mp hj with hj | hj
      · exact .inl hj
      · exact .inr (by rw [List.mem_singleton.mp hj])
  | .act (.gone name) =>
    cases h with
    | gone hjobs =>
      refine jobs_forgotten hinv (fun j hj => .inl ?_) rfl rfl
      rw [hjobs]
      simp only [List.mem_append, List.mem_cons] at hj ⊢
      tauto
  | .act (.edits spec) =>
    cases h
    exact jobs_same hinv rfl rfl rfl
  | .act .deletes =>
    cases h
    exact jobs_same hinv rfl rfl rfl
  | .act (.passes t) =>
    cases h
    exact jobs_same hinv rfl rfl rfl
  | .act (.others a b c d) =>
    cases h
    exact jobs_same hinv rfl rfl rfl

/-- No call for the Job is refused. -/
lemma answered_step (hinv : r.refused = false) (hc : Clean (w, k, r) e) :
    (keep (w, k, r) e).refused = false := by
  match e with
  | .begin .controller => rfl
  | .begin .detector => exact hinv
  | .begin .job => exact hinv
  | .finish i a => exact hinv
  | .crash i => exact hinv
  | .act a => exact hinv
  | .call .detector c a => exact hinv
  | .call .job c a => exact hinv
  | .call .controller c a =>
    simp only [keep, refusedBy, hinv, Bool.false_or]
    cases c with
    | getJob name => exact hc
    | createJob name t => exact hc.1
    | _ => rfl

/-- A finished Job that is listed in the phase Running is on record. -/
lemma listed_step (hinv : Inv w k r) (hc : Clean (w, k, r) e) (h : system.Happens w e w')
    (hreason : ∀ (c : Call) (a : Answer c), e = .call .controller c a →
      Reasoned (k .controller, r.refused) c) {x : AutoIndexer}
    (hx : (account.watch k e .controller : Knows).base = some x)
    (hp : x.status.indexingPhase = .running) {js : List Job}
    (hjs : (account.watch k e .controller : Knows).listing = some js) {j : Job} (hj : j ∈ js)
    (hfin : j.finished = true) : j ∈ (keep (w, k, r) e).done := by
  match e with
  | .begin .controller =>
    rw [System.Account.watch_begin] at hx
    cases hx
  | .begin .detector => exact mem_done_keep (hinv.knows.listed x hx hp js hjs j hj hfin)
  | .begin .job => exact mem_done_keep (hinv.knows.listed x hx hp js hjs j hj hfin)
  | .finish i a => exact mem_done_keep (hinv.knows.listed x hx hp js hjs j hj hfin)
  | .crash i => exact mem_done_keep (hinv.knows.listed x hx hp js hjs j hj hfin)
  | .act a => exact mem_done_keep (hinv.knows.listed x hx hp js hjs j hj hfin)
  | .call .detector c a => exact mem_done_keep (hinv.knows.listed x hx hp js hjs j hj hfin)
  | .call .job c a => exact mem_done_keep (hinv.knows.listed x hx hp js hjs j hj hfin)
  | .call .controller c a =>
    rw [System.Account.watch_self] at hx hjs
    change (note (k .controller) c a).base = some x at hx
    change (note (k .controller) c a).listing = some js at hjs
    have hsame : (note (k .controller) c a).base = (k .controller : Knows).base →
        (note (k .controller) c a).listing = (k .controller : Knows).listing →
        j ∈ (keep (w, k, r) (.call .controller c a)).done := by
      intro hbase hlisting
      exact mem_done_keep (hinv.knows.listed x (hbase ▸ hx) hp js (hlisting ▸ hjs) j hj hfin)
    have hnone : (k .controller : Knows).listing = none →
        (note (k .controller) c a).listing = (k .controller : Knows).listing →
        j ∈ (keep (w, k, r) (.call .controller c a)).done := by
      intro hnone hlisting
      rw [hlisting, hnone] at hjs
      cases hjs
    cases c with
    | get =>
      have hlisting := hreason _ _ rfl
      cases a <;> exact hnone hlisting rfl
    | patch original modified =>
      cases a with
      | error m => exact hsame rfl rfl
      | ok o =>
        rcases hreason _ _ rfl with hf | hlisting
        · exact hsame (by simp [note, hf]) (by simp [note, hf])
        · refine hnone hlisting ?_
          simp only [note]
          split <;> rfl
    | listJobs =>
      cases a with
      | error m => exact hsame rfl rfl
      | ok jobs =>
        obtain rfl : jobs = js := Option.some.inj hjs
        have hjobs : jobs = w.jobs := by
          rcases h with h | ⟨-, ⟨m, hm⟩, -⟩
          · cases h
            rfl
          · cases hm
        have hmade : j.name ∈ r.made := hc x hx hp j hj hfin
        rw [hjobs] at hj
        exact mem_done_keep (hinv.jobs.finished j hj hmade hfin)
    | httpDeleteIndex ep i => cases a <;> exact hsame rfl rfl
    | patchStatus original modified => cases a <;> exact hsame rfl rfl
    | update obj => cases a <;> exact hsame rfl rfl
    | _ => exact hsame rfl rfl

lemma base_step (hinv : Inv w k r) (h : system.Happens w e w') {x : AutoIndexer}
    (hx : (account.watch k e .controller : Knows).base = some x) :
    x.spec ∈ (keep (w, k, r) e).specs ∨ ∃ o, w'.stored = some o ∧ o.spec = x.spec := by
  rcases recalls_watch (f := Knows.base) (.inr (.inr rfl)) h hx with hold | hnew
  · left
    rcases hinv.knows.base x hold with hspec | ⟨o, ho, hspec⟩
    · exact mem_specs_keep hspec
    · rw [← hspec]
      exact stored_mem_specs_keep ho
  · exact .inr ⟨x, hnew, rfl⟩

/-- The run is over after the phase Pending, as Failed, or after the phase Running. -/
lemma before_over {x : AutoIndexer} {listing : Option (List Job)} {p : Phase}
    (h : PhaseStep x listing p) (hp : Over p) :
    x.status.indexingPhase = .pending ∧ p = .failed ∨ x.status.indexingPhase = .running := by
  cases h with
  | pendingFailed h => exact .inl ⟨h, rfl⟩
  | runningFailed h => exact .inr h
  | runningCompleted h => exact .inr h
  | _ => rcases hp with hp | hp <;> cases hp

/-- The phase turns to one in which the run is over only when a Job is on record. -/
lemma ended_step (hk : Sound w k) (hinv : Inv w k r) (hl : account.Allows k e)
    (h : system.Happens w e w') (hreason : ∀ (c : Call) (a : Answer c), e = .call .controller c a →
      Reasoned (k .controller, r.refused) c) {o' : AutoIndexer} (ho' : w'.stored = some o')
    (hover : Over o'.status.indexingPhase) :
    ∃ j ∈ r.done, Outcome j o'.status.indexingPhase := by
  rcases effect_of_happens hk.snapshots hl h with ⟨hs, -⟩ | ⟨o, ho, heffect⟩
  · rw [hs] at ho'
    exact hinv.ended o' ho' hover
  rw [ho'] at heffect
  by_cases he : ∀ x m, e ≠ .call .controller (.patchStatus x m) (.ok ())
  · rw [phase_of_effect hk.snapshots ho heffect he] at hover ⊢
    exact hinv.ended o ho hover
  push Not at he
  obtain ⟨x, m, rfl⟩ := he
  have hreason := hreason _ _ rfl
  generalize hs' : some o' = stored at heffect
  cases heffect with
  | status hr hb hs hv hw hc =>
    obtain rfl := Option.some.inj hs'
    rw [accept_status] at hover ⊢
    change Over (mergeStatus x.status m.status o.status).indexingPhase at hover
    change ∃ j ∈ r.done, Outcome j (mergeStatus x.status m.status o.status).indexingPhase
    rcases phase_of_merge hk ho hr hb hs hv hw hc with hsame | ⟨hphase, hstep⟩
    · rw [hsame] at hover ⊢
      exact hinv.ended o ho hover
    · have hmerge : (mergeStatus x.status m.status o.status).indexingPhase =
          m.status.indexingPhase := by
        change pick x.status.indexingPhase m.status.indexingPhase o.status.indexingPhase = _
        rw [hphase, pick_original]
      rw [hmerge] at hstep hover ⊢
      rcases before_over hstep hover with ⟨hpending, hfailed⟩ | hrunning
      · have hrefused : r.refused = true := hreason.pending hpending hfailed
        rw [hinv.knows.answered] at hrefused
        cases hrefused
      · obtain ⟨js, hjs, j, hj, hend⟩ := hreason.running hrunning hover
        exact ⟨j, hinv.knows.listed x hb hrunning js hjs j hj (finished_of_outcome hend), hend⟩

lemma inv_step (hk : Sound w k) (hinv : Inv w k r) (hc : Clean (w, k, r) e)
    (hl : account.Allows k e) (h : system.Happens w e w')
    (hreason : ∀ (c : Call) (a : Answer c), e = .call .controller c a →
      Reasoned (k .controller, r.refused) c) : Inv w' (account.watch k e) (keep (w, k, r) e) where
  jobs := jobs_step hinv.jobs hinv.knows hc hl h hreason
  knows := ⟨answered_step hinv.knows.answered hc, fun _ hx => base_step hinv h hx,
    fun _ hx hp _ hjs _ hj hfin => listed_step hinv hc h hreason hx hp hjs hj hfin⟩
  ended o' ho' hover := by
    obtain ⟨j, hj, hend⟩ := ended_step hk hinv hl h hreason ho' hover
    exact ⟨j, mem_done_keep hj, hend⟩

lemma inv_restarted (hs : Restarted s) : Inv s.world s.record.1 s.record.2 := by
  obtain ⟨⟨⟨-, hk⟩, hr⟩, ⟨o, ho, hp, -⟩, -⟩ := hs
  rw [hk, hr]
  refine ⟨⟨?_, ?_, ?_⟩, ⟨rfl, ?_, ?_⟩, ?_⟩
  · intro j _ hname
    cases hname
  · intro j _ hname
    cases hname
  · intro j hj
    cases hj
  · intro x hx
    cases hx
  · intro x hx
    cases hx
  · intro o' ho' hover
    obtain rfl := Option.some.inj (ho.symm.trans ho')
    rw [hp] at hover
    rcases hover with hover | hover <;> cases hover

/-- **A one-time AutoIndexer runs again**, in every run in which the calls for its Job are answered
and the phase Running meets no finished Job but those made after the reset: it is Completed or Failed
only after such a Job has finished. -/
theorem runAgain (h : System.Reach (account.observer keep) Clean Restarted s) :
    RunAgain s.world s.record.2 := by
  have hinv : Inv s.world s.record.1 s.record.2 := by
    induction h with
    | init hs => exact inv_restarted hs
    | @step s e s' h hs hc ih =>
      have hsound := sound_of_reach (fun s hs => hs.1.1) h
      obtain ⟨hl, hw, hr⟩ := allows_of_reach (fun s hs => hs.1.1) h hs
      rw [hr]
      exact inv_step hsound ih hc hl hw fun c a he => reasoned_of_reach h hs he
  intro o ho hover
  obtain ⟨j, hj, hend⟩ := hinv.ended o ho hover
  exact ⟨j, hj, hend, hinv.jobs.done j hj⟩

/-! ### Two reconciles -/

/-- The test of `Clean`. -/
def cleanTest (x : World × account.Notes × Record) : system.Event → Bool
  | .call .controller (.getJob name) r => !refuses (.getJob name) r
  | .call .controller (.createJob name t) r =>
    !refuses (.createJob name t) r && x.1.jobs.all fun j => decide (j.name ≠ name)
  | .call .controller .listJobs (.ok js) =>
    (x.2.1 .controller : Knows).base.all (fun o => decide (o.status.indexingPhase ≠ .running)) ||
      js.all fun j => !j.finished || decide (j.name ∈ x.2.2.made)
  | _ => true

lemma clean_of_test {x : World × account.Notes × Record} {e : system.Event}
    (h : cleanTest x e = true) : Clean x e := by
  unfold Clean
  split
  · simpa [cleanTest] using h
  · simp only [cleanTest, Bool.and_eq_true, Bool.not_eq_true', List.all_eq_true,
      decide_eq_true_eq] at h
    exact h
  · intro o ho hp j hj hfin
    simp only [cleanTest, ho, Option.all_some, hp, ne_eq, not_true_eq_false, decide_false,
      Bool.false_or, List.all_eq_true, Bool.or_eq_true, Bool.not_eq_true', decide_eq_true_eq] at h
    rcases h j hj with hnot | hmade
    · rw [hfin] at hnot
      cases hnot
    · exact hmade
  · trivial

abbrev Configuration := System.Config system (account.Notes × Record)

/-- The phase of a one-time AutoIndexer was reset, and these Jobs of it are there. -/
def reset (jobs : List Job) : Configuration :=
  before { Retries.startingWorld with jobs := jobs } ⟨false, [], [], []⟩

/-- A whole reconcile, and whether it meets the test and comes to its end. -/
def reconciled (test : World × account.Notes × Record → system.Event → Bool) (s : Configuration) :
    Configuration × Bool :=
  let y := calling keep test 30 s
  (⟨y.2.1.1, account.observer keep y.2.1 (.finish .controller none),
      Function.update s.threads .controller none⟩,
    y.2.2 && match y.1 with
      | .ret _ => true
      | .ask _ _ => false)

/-- The Job of the AutoIndexer, when it has succeeded. -/
def succeeded : Job := ⟨"docs-job", 0, 1, 0, none, demoTemplate⟩

def moved (s : Configuration) : Configuration :=
  ⟨{ s.world with jobs := [succeeded] }, (s.record.1, keep s.view (.act (.moves succeeded))), s.threads⟩

lemma restarted_reset {jobs : List Job} (h : ∀ j ∈ jobs, j.active = 0) : Restarted (reset jobs) :=
  ⟨⟨start_before _ _, rfl⟩, ⟨Retries.starting, rfl, rfl, rfl⟩, h⟩

lemma reach_reconciled {test : World × account.Notes × Record → system.Event → Bool}
    (h : System.Reach (account.observer keep) cond Restarted s) (hs : s.threads .controller = none)
    (htest : ∀ x e, test x e = true → cond x e) (hbegin : ∀ x, cond x (.begin .controller))
    (hfinish : ∀ x a, cond x (.finish .controller a)) (hy : (reconciled test s).2 = true) :
    System.Reach (account.observer keep) cond Restarted (reconciled test s).1 := by
  simp only [reconciled, Bool.and_eq_true] at hy
  obtain ⟨hflag, hend⟩ := hy
  have hcalled := reach_calling htest h hs (hbegin _) 30 hflag
  split at hend
  · rename_i a ha
    rw [ha] at hcalled
    have hfinished := System.Reach.step hcalled (.finish (i := .controller) (a := a) (by simp))
      (hfinish _ _)
    rw [Function.update_idem] at hfinished
    exact hfinished
  · cases hend

/-- The phase that is stored. -/
def phase (s : Configuration) : Option Phase := s.world.stored.map fun o => o.status.indexingPhase

lemma exists_stored {p : Phase} (h : phase s = some p) :
    ∃ o, s.world.stored = some o ∧ o.status.indexingPhase = p := Option.map_eq_some_iff.mp h

/-- A Job has succeeded before the reset, and the AutoIndexer was reconciled twice since. -/
def rejudged : Configuration :=
  (reconciled (fun _ _ => true) (reconciled (fun _ _ => true) (reset [succeeded])).1).1

/-- After the reset a Job is made, it succeeds, and the AutoIndexer is Completed. -/
theorem runAgain_completed :
    ∃ s, System.Reach (account.observer keep) Clean Restarted s ∧ phase s = some .completed ∧
      RunAgain s.world s.record.2 := by
  have h0 : System.Reach (account.observer keep) Clean Restarted (reset []) :=
    .init (restarted_reset (List.forall_mem_nil _))
  have h1 := reach_reconciled h0 rfl (fun _ _ => clean_of_test) (fun _ => trivial) (fun _ _ => trivial)
    (by decide +kernel)
  have hmove : Env (.moves succeeded) (reconciled cleanTest (reset [])).1.world
      (moved (reconciled cleanTest (reset [])).1).world := by
    have hjobs : (reconciled cleanTest (reset [])).1.world.jobs =
        [] ++ (⟨"docs-job", 0, 0, 0, none, demoTemplate⟩ : Job) :: [] := by decide +kernel
    exact .moves hjobs rfl rfl
  have h2 := System.Reach.step h1 (.act hmove) trivial
  have h3 := reach_reconciled h2 rfl (fun _ _ => clean_of_test) (fun _ => trivial) (fun _ _ => trivial)
    (by decide +kernel)
  exact ⟨_, h3, by decide +kernel, runAgain h3⟩

/-- No Job is made: the one that has succeeded before makes the AutoIndexer Completed again. -/
theorem not_runAgain :
    ¬ ∀ s : Configuration, System.Reach (account.observer keep) (fun _ _ => True) Restarted s →
      RunAgain s.world s.record.2 := by
  intro h
  have h0 : System.Reach (account.observer keep) (fun _ _ => True) Restarted (reset [succeeded]) :=
    .init (restarted_reset fun j hj => by rw [List.mem_singleton.mp hj]; rfl)
  have h1 := reach_reconciled h0 rfl (fun _ _ (_ : true = true) => trivial) (fun _ => trivial)
    (fun _ _ => trivial) (by decide +kernel)
  have h2 := reach_reconciled h1 rfl (fun _ _ (_ : true = true) => trivial) (fun _ => trivial)
    (fun _ _ => trivial) (by decide +kernel)
  have hphase : phase rejudged = some .completed := by decide +kernel
  have hnone : rejudged.record.2.done = [] := by decide +kernel
  obtain ⟨o, ho, hp⟩ := exists_stored hphase
  obtain ⟨j, hj, -⟩ := h rejudged h2 o ho (.inl hp)
  rw [hnone] at hj
  cases hj

end KaitoAutoIndexer.OneTimeRuns
