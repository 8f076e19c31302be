import KaitoAutoIndexer.SystemSteps
import KaitoAutoIndexer.ControllerSpec

/-!
Which Jobs there are when an index is deleted: the controller looks at a listing, for Jobs that
have an active pod.
-/

namespace KaitoAutoIndexer.LiveJobs

open KaitoAutoIndexer.Lib KaitoAutoIndexer.Types KaitoAutoIndexer.Cluster
open KaitoAutoIndexer.Controller KaitoAutoIndexer.Rag KaitoAutoIndexer.JobClient
open KaitoAutoIndexer.System KaitoAutoIndexer.SystemSteps
open KaitoAutoIndexer.ControllerSteps (Knows note active_eq_zero_of_running)
open KaitoAutoIndexer.JobSteps (Told hear)
open KaitoAutoIndexer.ControllerSpec (demo demoWorld demoTemplate)

/-! ### What is kept of a run -/

structure Record where
  /-- Since the controller listed the Jobs last, one was made, or one is unfinished anew. -/
  stirred : Bool
  /-- A job is in flight. -/
  working : Bool
  /-- The indexes that garbage collection has deleted. -/
  collected : List Target

/-- A Job was made or goes on. -/
def Stirs : system.Event → Bool
  | .act (.fires _) => true
  | .act (.moves job) => !job.finished
  | .call .controller (.createJob _ _) _ => true
  | .call .detector (.createJob _ _) _ => true
  | _ => false

def Lists : system.Event → Bool
  | .call .controller .listJobs (.ok _) => true
  | _ => false

/-- The index that garbage collection is told it has deleted. -/
def collects (g : Knows) : system.Event → List Target
  | .call .controller (.httpDeleteIndex e i) (.ok n) =>
    if g.got.any AutoIndexer.deleting ∧ (n = 200 ∨ n = 404) then [⟨e, i⟩] else []
  | _ => []

def works (b : Bool) : system.Event → Bool
  | .begin .job => true
  | .finish .job _ => false
  | .crash .job => false
  | _ => b

def keep (x : World × account.Notes × Record) (e : system.Event) : Record where
  stirred := if Lists e then false else x.2.2.stirred || Stirs e
  working := works x.2.2.working e
  collected := collects (x.2.1 .controller) e ++ x.2.2.collected

/-! ### What is wanted, and when -/

/-- The call deletes an index. -/
def Deletes : system.Event → Prop
  | .call .controller (.httpDeleteIndex _ _) _ => True
  | _ => False

/-- A job changes the documents of `t`. -/
def Writes (t : Target) : system.Event → Prop
  | .call .job (.rag t' (.indexDocuments _)) _ => t' = t
  | .call .job (.rag t' (.updateDocuments _)) _ => t' = t
  | _ => False

/-- What is in flight is the pod of a Job that has not finished. -/
def Tied (x : World × account.Notes × Record) : Prop :=
  x.2.2.working = true → ∃ j ∈ x.1.jobs, j.finished = false

/-- An index is deleted only when the listing shows no Job that waits for its pod and none has
come up since; after a garbage collection no job begins before the AutoIndexer has gone. -/
def Calm (x : World × account.Notes × Record) : system.Event → Prop
  | .call .controller (.httpDeleteIndex e i) r =>
    x.2.2.stirred = false ∧
    (∀ js, (x.2.1 .controller : Knows).listing = some js → ∀ j ∈ js, j.waiting = false) ∧
    (collects (x.2.1 .controller) (.call .controller (.httpDeleteIndex e i) r) ≠ [] → Tied x)
  | .begin .job => x.2.2.collected = [] ∨ x.1.stored = none
  | _ => True

variable {w w' : World} {k : account.Notes} {r : Record} {e : system.Event}

/-! ### Jobs -/

lemma jobs_of_serves {c : Call} {a : Answer c} (h : Serves True w c a w')
    (hc : ∀ n t, c ≠ .createJob n t) : w'.jobs = w.jobs := by
  have hserve : (Cluster.serve w c).2.jobs = w.jobs := by
    cases c with
    | createJob n t => exact absurd rfl (hc n t)
    | _ => simp only [Cluster.serve] <;> (repeat' split) <;> rfl
  rcases h with h | ⟨-, -, rfl | ⟨-, rfl⟩⟩
  · rw [show w' = (Cluster.serve w c).2 from congrArg Prod.snd h, hserve]
  · rfl
  · exact hserve

lemma jobs_of_jobServes {c : JobCall} {a : JobAnswer c} (h : JobServes True w c a w') :
    w'.jobs = w.jobs := by
  match c with
  | .now => exact congrArg World.jobs h.2
  | .getAutoIndexer => exact congrArg World.jobs h.1
  | .kusto q => exact congrArg World.jobs h
  | .fetch u => exact congrArg World.jobs h
  | .rag t q =>
    obtain ⟨s, -, rfl⟩ := h
    unfold putStore
    split <;> rfl
  | .patchStatus body =>
    rcases h with h | ⟨-, rfl, -⟩
    · unfold patchJobStatus at h
      split at h
      · split at h <;> cases h <;> rfl
      · cases h
        rfl
    · rfl

/-- Unless a Job is made or goes on, a Job there is was there before, or has finished. -/
lemma mem_jobs_of_happens (h : system.Happens w e w') (hs : Stirs e = false) {j : Job}
    (hj : j ∈ w'.jobs) : j ∈ w.jobs ∨ j.finished = true := by
  match e with
  | .begin i => exact .inl (by rwa [show w' = w from h] at hj)
  | .finish i a => exact .inl (by rwa [show w' = w from h] at hj)
  | .crash i => exact .inl (by rwa [show w' = w from h] at hj)
  | .call .job c a => exact .inl (by rwa [jobs_of_jobServes h] at hj)
  | .call .detector c a =>
    have hc : ∀ n t, c ≠ .createJob n t := by
      rintro n t rfl
      cases hs
    exact .inl (by rwa [jobs_of_serves h hc] at hj)
  | .call .controller c a =>
    have hc : ∀ n t, c ≠ .createJob n t := by
      rintro n t rfl
      cases hs
    exact .inl (by rwa [jobs_of_serves h hc] at hj)
  | .act a =>
    cases h with
    | fires => cases hs
    | moves hjobs =>
      rcases List.mem_append.mp hj with hj | hj
      · exact .inl (hjobs ▸ List.mem_append_left _ hj)
      · rcases List.mem_cons.mp hj with rfl | hj
        · right
          simpa [Stirs] using hs
        · exact .inl (hjobs ▸ List.mem_append_right _ (List.mem_cons_of_mem _ hj))
    | gone hjobs =>
      left
      rw [hjobs]
      rcases List.mem_append.mp hj with hj | hj
      · exact List.mem_append_left _ hj
      · exact List.mem_append_right _ (List.mem_cons_of_mem _ hj)
    | edits => exact .inl hj
    | deletes => exact .inl hj
    | passes => exact .inl hj
    | others => exact .inl hj

/-! ### The invariant -/

structure Inv (w : World) (k : account.Notes) (r : Record) : Prop where
  listed : r.stirred = false → ∀ js, (k .controller : Knows).listing = some js →
    ∀ j ∈ w.jobs, j ∈ js ∨ j.finished = true
  gone : r.collected ≠ [] → r.working = true → w.stored = none ∧ (k .job : Told).made = none

/-- The listing is the one from before, or it has been made now. -/
lemma listing_watch (h : system.Happens w e w') {js : List Job}
    (hjs : (account.watch k e .controller : Knows).listing = some js) :
    (k .controller : Knows).listing = some js ∨ js = w'.jobs := by
  match e with
  | .begin .controller =>
    rw [System.Account.watch_begin] at hjs
    cases hjs
  | .begin .detector => exact .inl hjs
  | .begin .job => exact .inl hjs
  | .finish i a => exact .inl hjs
  | .crash i => exact .inl hjs
  | .act a => exact .inl hjs
  | .call .detector c a => exact .inl hjs
  | .call .job c a => exact .inl hjs
  | .call .controller c a =>
    rw [System.Account.watch_self] at hjs
    change (note (k .controller) c a).listing = some js at hjs
    unfold note at hjs
    split at hjs
    · exact .inl hjs
    · split at hjs <;> exact .inl hjs
    · exact .inl hjs
    · right
      rename_i jobs
      obtain rfl : jobs = js := by simpa using hjs
      rcases h with h | ⟨-, ⟨m, hm⟩, -⟩
      · cases h
        rfl
      · cases hm
    all_goals exact .inl hjs

/-- A listing that was just made is of all Jobs. -/
lemma listing_of_lists (he : Lists e = true) (h : system.Happens w e w') {js : List Job}
    (hjs : (account.watch k e .controller : Knows).listing = some js) : js = w'.jobs := by
  unfold Lists at he
  split at he
  · rename_i jobs
    rw [System.Account.watch_self] at hjs
    obtain rfl : jobs = js := Option.some.inj hjs
    rcases h with h | ⟨-, ⟨m, hm⟩, -⟩
    · cases h
      rfl
    · cases hm
  · cases he

lemma listed_step (hinv : Inv w k r) (h : system.Happens w e w')
    (hs : (keep (w, k, r) e).stirred = false) {js : List Job}
    (hjs : (account.watch k e .controller : Knows).listing = some js) {j : Job} (hj : j ∈ w'.jobs) :
    j ∈ js ∨ j.finished = true := by
  by_cases he : Lists e = true
  · left
    rwa [listing_of_lists he h hjs]
  · simp only [keep, if_neg he, Bool.or_eq_false_iff] at hs
    rcases listing_watch h hjs with hold | rfl
    · rcases mem_jobs_of_happens h hs.2 hj with hj | hj
      · exact hinv.listed hs.1 js hold j hj
      · exact .inr hj
    · exact .inl hj

/-- A job that could read nothing reads nothing when there is nothing. -/
lemma made_watch (h : system.Happens w e w') (hw : w.stored = none)
    (hm : (k .job : Told).made = none) : (account.watch k e .job : Told).made = none := by
  match e with
  | .begin .job =>
    rw [System.Account.watch_begin]
    rfl
  | .begin .controller => exact hm
  | .begin .detector => exact hm
  | .finish i a => exact hm
  | .crash i => exact hm
  | .act a => exact hm
  | .call .controller c a => exact hm
  | .call .detector c a => exact hm
  | .call .job c a =>
    rw [System.Account.watch_self]
    change (hear (k .job) c a).made = none
    unfold hear
    split
    · rename_i r'
      obtain ⟨-, hr | ⟨-, m, hr⟩⟩ := h
      · rw [hr]
        unfold readAutoIndexer
        rw [hw]
        simp [hm, Except.toOption]
      · rw [hr]
        simp [hm, Except.toOption]
    all_goals exact hm

lemma finished_of_idle {j : Job} (ha : j.active = 0) (hw : j.waiting = false) :
    j.finished = true := by
  unfold Job.waiting at hw
  unfold Job.finished
  simp only [ha, beq_self_eq_true, Bool.true_and, Bool.and_eq_false_iff, beq_eq_false_iff_ne] at hw
  simp only [ha, beq_self_eq_true, Bool.true_and, Bool.or_eq_true, decide_eq_true_eq]
  omega

/-- An index is deleted when no Job of the listing has an active pod. -/
lemma idle_of_deletes (hl : account.Allows k e) (he : Deletes e) :
    ∃ js, (k .controller : Knows).listing = some js ∧ ∀ j ∈ js, j.active = 0 := by
  unfold Deletes at he
  split at he
  · cases hl with
    | plain hplain => exact hplain.elim
    | remediate _ _ _ _ hrem =>
      obtain ⟨js, hjs, hrun⟩ := hrem.idle
      exact ⟨js, hjs, active_eq_zero_of_running hrun⟩
    | collect _ _ _ hjs hj => exact ⟨_, hjs, hj⟩
  · exact he.elim

lemma finished_of_deletes (hinv : Inv w k r) (hl : account.Allows k e) (hc : Calm (w, k, r) e)
    (he : Deletes e) {j : Job} (hj : j ∈ w.jobs) : j.finished = true := by
  obtain ⟨js, hjs, hidle⟩ := idle_of_deletes hl he
  unfold Deletes at he
  split at he
  · obtain ⟨hs, hwait, -⟩ := hc
    rcases hinv.listed hs js hjs j hj with hmem | hfin
    · exact finished_of_idle (hidle j hmem) (hwait js hjs j hmem)
    · exact hfin
  · exact he.elim

lemma gone_step (hinv : Inv w k r) (hc : Calm (w, k, r) e) (hl : account.Allows k e)
    (h : system.Happens w e w')
    (hcol : (keep (w, k, r) e).collected ≠ []) (hwork : (keep (w, k, r) e).working = true) :
    w'.stored = none ∧ (account.watch k e .job : Told).made = none := by
  have hkept : r.collected ≠ [] := by
    intro hnil
    simp only [keep, hnil, List.append_nil] at hcol
    unfold collects at hcol
    split at hcol
    · rename_i ep i n
      -- the pod in flight would be that of a Job that has not finished
      obtain ⟨j, hj, hrunning⟩ := hc.2.2 hcol hwork
      have hfinished := finished_of_deletes hinv hl hc trivial hj
      rw [hrunning] at hfinished
      cases hfinished
    · exact hcol rfl
  have hnone : w.stored = none → w'.stored = none := by
    intro hw
    cases hw' : w'.stored with
    | none => rfl
    | some o' =>
      obtain ⟨o, ho, -⟩ := later_of_happens h hw'
      rw [hw] at ho
      cases ho
  by_cases hb : e = .begin .job
  · subst hb
    refine ⟨hnone (hc.resolve_left hkept), ?_⟩
    rw [System.Account.watch_begin]
    rfl
  · have hold : r.working = true := by
      change works r.working e = true at hwork
      unfold works at hwork
      split at hwork
      · exact absurd rfl hb
      · cases hwork
      · cases hwork
      · exact hwork
    obtain ⟨hw, hm⟩ := hinv.gone hkept hold
    exact ⟨hnone hw, made_watch h hw hm⟩

lemma inv_step (hinv : Inv w k r) (hc : Calm (w, k, r) e) (hl : account.Allows k e)
    (h : system.Happens w e w') : Inv w' (account.watch k e) (keep (w, k, r) e) :=
  ⟨fun hs _ hjs _ hj => listed_step hinv h hs hjs hj, gone_step hinv hc hl h⟩

/-- The system before anything has happened. -/
def Opening : System.Config system (account.Notes × Record) → Prop := StartWith ⟨false, false, []⟩

variable {s s' : System.Config system (account.Notes × Record)}

lemma inv_of_reach (h : System.Reach (account.observer keep) Calm Opening s) :
    Sound s.world s.record.1 ∧ Inv s.world s.record.1 s.record.2 := by
  refine invariant_of_reach (I := fun x => Inv x.1 x.2.1 x.2.2) ?_ ?_ h
  · rintro s ⟨hs, hr⟩
    refine ⟨hs, ?_, ?_⟩
    · intro _ js hjs
      change (s.record.1 .controller : Knows).listing = some js at hjs
      rw [hs.2] at hjs
      cases hjs
    · intro hcol
      change s.record.2.collected ≠ [] at hcol
      rw [hr] at hcol
      exact absurd rfl hcol
  · intro w k r e w' _ hinv hc hl hw
    exact inv_step hinv hc hl hw

/-- A job that is in flight is on record. -/
lemma working_of_thread {cond : World × account.Notes × Record → system.Event → Prop}
    (h : System.Reach (account.observer keep) cond Opening s) (hs : (s.threads .job).isSome) :
    s.record.2.working = true := by
  induction h with
  | init h =>
    rw [h.1.1 .job] at hs
    cases hs
  | @step s e s' _ hstep _ ih =>
    cases hstep with
    | @begin i =>
      cases i with
      | job => rfl
      | controller => exact ih (by simpa using hs)
      | detector => exact ih (by simpa using hs)
    | @call i _ _ _ _ hi =>
      cases i with
      | job => exact ih (by rw [hi]; rfl)
      | controller => exact ih (by simpa using hs)
      | detector => exact ih (by simpa using hs)
    | @finish i =>
      cases i with
      | job => simp at hs
      | controller => exact ih (by simpa using hs)
      | detector => exact ih (by simpa using hs)
    | @crash i =>
      cases i with
      | job => simp at hs
      | controller => exact ih (by simpa using hs)
      | detector => exact ih (by simpa using hs)
    | act => exact ih hs

/-! ### No live Jobs -/

/-- A job that writes has read the object, and is in flight. -/
lemma working_of_writes {cond : World × account.Notes × Record → system.Event → Prop} {t : Target}
    (h : System.Reach (account.observer keep) cond Opening s)
    (hs : System.Step (account.observer keep) s e s') (he : Writes t e) :
    s.record.2.working = true ∧ (s.record.1 .job : Told).made ≠ none := by
  have hl := (allows_of_reach (fun s hs => hs.1) h hs).1
  unfold Writes at he
  split at he
  · cases hs with
    | call hi =>
      refine ⟨working_of_thread h (by rw [hi]; rfl), ?_⟩
      cases hl with
      | rag hmade => simp [hmade]
  · cases hs with
    | call hi =>
      refine ⟨working_of_thread h (by rw [hi]; rfl), ?_⟩
      cases hl with
      | rag hmade => simp [hmade]
  · exact he.elim

/-- **No index is deleted under a job**, in every run in which the listings on which the controller
acts are still true: whenever an index is deleted every Job has finished, and no job writes to an
index that garbage collection has deleted. -/
theorem deletes_alone (h : System.Reach (account.observer keep) Calm Opening s)
    (hs : System.Step (account.observer keep) s e s') (hc : Calm s.view e) :
    (Deletes e → ∀ j ∈ s.world.jobs, j.finished = true) ∧
      ∀ t, Writes t e → t ∉ s.record.2.collected := by
  obtain ⟨-, hinv⟩ := inv_of_reach h
  have hl := (allows_of_reach (fun s hs => hs.1) h hs).1
  refine ⟨fun he j hj => finished_of_deletes hinv hl hc he hj, fun t he ht => ?_⟩
  obtain ⟨hwork, hmade⟩ := working_of_writes h hs he
  exact hmade (hinv.gone (List.ne_nil_of_mem ht) hwork).2

/-! ### A garbage collection -/

/-- The test of `Calm`. -/
def calmTest (x : World × account.Notes × Record) : system.Event → Bool
  | .call .controller (.httpDeleteIndex _ _) _ =>
    !x.2.2.stirred && (!x.2.2.working || x.1.jobs.any fun j => !j.finished) &&
      (x.2.1 .controller : Knows).listing.all fun js => js.all fun j => !j.waiting
  | .begin .job => x.2.2.collected.isEmpty
  | _ => true

lemma calm_of_test {x : World × account.Notes × Record} {e : system.Event}
    (h : calmTest x e = true) : Calm x e := by
  unfold Calm
  split
  · simp only [calmTest, Bool.and_eq_true, Bool.not_eq_true'] at h
    obtain ⟨⟨hs, hw⟩, hl⟩ := h
    refine ⟨hs, fun js hjs j hj => ?_, fun _ hwork => ?_⟩
    · rw [hjs] at hl
      simpa using List.all_eq_true.mp hl j hj
    · simpa [hwork] using hw
  · left
    simpa [calmTest] using h
  · trivial

/-- The AutoIndexer is being deleted, and there is a Job with these numbers of pods. -/
def deletingWorld (active succeeded failed : ℕ) : World :=
  { demoWorld with
    stored := some { demo with deletionTimestamp := some 1000000 }
    jobs := [⟨"docs-job", active, succeeded, failed, none, demoTemplate⟩] }

/-- The garbage collection has listed the Jobs. -/
def collecting (w : World) : System.Config system (account.Notes × Record) :=
  let y := calling keep calmTest 2 (before w ⟨false, false, []⟩)
  ⟨y.2.1.1, y.2.1.2, Function.update (fun _ => none) .controller (some y.1)⟩

lemma reach_collecting (w : World)
    (hy : (calling keep calmTest 2 (before w ⟨false, false, []⟩)).2.2 = true) :
    System.Reach (account.observer keep) Calm Opening (collecting w) :=
  reach_calling (fun _ _ => calm_of_test) (.init ⟨start_before w _, rfl⟩) rfl (calm_of_test rfl) 2
    hy

/-- An index is about to be deleted, and the state and that event satisfy `p`. -/
def condemns (p : World × account.Notes × Record → system.Event → Bool)
    (s : System.Config system (account.Notes × Record)) : Bool :=
  match s.threads .controller with
  | some (.ask (.httpDeleteIndex e i) _) =>
    p s.view (.call .controller (.httpDeleteIndex e i) (serve s.world (.httpDeleteIndex e i)).1)
  | _ => false

lemma condemned {p : World × account.Notes × Record → system.Event → Bool}
    (h : condemns p s = true) :
    ∃ s' e, System.Step (account.observer keep) s e s' ∧ Deletes e ∧ p s.view e = true := by
  unfold condemns at h
  split at h
  · rename_i ep i k hthread
    exact ⟨_, _, step_reconcile (account.observer keep) hthread, trivial, h⟩
  · cases h

/-- The Job that is there has succeeded. -/
theorem deletes_alone_finished :
    ∃ s s' e, System.Reach (account.observer keep) Calm Opening s ∧
      System.Step (account.observer keep) s e s' ∧ Calm s.view e ∧ Deletes e ∧
      s.world.jobs ≠ [] ∧ ∀ j ∈ s.world.jobs, j.finished = true := by
  have hreach : System.Reach (account.observer keep) Calm Opening
      (collecting (deletingWorld 0 1 0)) := reach_collecting _ (by decide +kernel)
  obtain ⟨s', e, hstep, he, hp⟩ := condemned (p := fun x e => !x.1.jobs.isEmpty && calmTest x e)
    (s := collecting (deletingWorld 0 1 0)) (by decide +kernel)
  rw [Bool.and_eq_true, Bool.not_eq_true', List.isEmpty_eq_false_iff] at hp
  have hc := calm_of_test hp.2
  exact ⟨_, s', e, hreach, hstep, hc, he, hp.1, (deletes_alone hreach hstep hc).1 he⟩

/-- The Job that is there waits for its pod. -/
theorem not_deletes_alone :
    ¬ ∀ (s s' : System.Config system (account.Notes × Record)) (e : system.Event),
      System.Reach (account.observer keep) (fun _ _ => True) Opening s →
      System.Step (account.observer keep) s e s' →
      (Deletes e → ∀ j ∈ s.world.jobs, j.finished = true) ∧
        ∀ t, Writes t e → t ∉ s.record.2.collected := by
  intro h
  have hreach : System.Reach (account.observer keep) Calm Opening
      (collecting (deletingWorld 0 0 0)) := reach_collecting _ (by decide +kernel)
  obtain ⟨s', e, hstep, he, hp⟩ := condemned (p := fun x _ => !x.1.jobs.all Job.finished)
    (s := collecting (deletingWorld 0 0 0)) (by decide +kernel)
  have hfin := (h _ s' e (hreach.mono fun _ _ _ => trivial) hstep).1 he
  rw [Bool.not_eq_true', List.all_eq_false] at hp
  obtain ⟨j, hj, hnot⟩ := hp
  exact hnot (hfin j hj)

end KaitoAutoIndexer.LiveJobs
