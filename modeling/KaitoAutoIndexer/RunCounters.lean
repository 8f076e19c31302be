import KaitoAutoIndexer.SystemSteps
import KaitoAutoIndexer.ControllerSpec

/-!
The counters of successful and failed runs, and the update that completes a run.
-/

namespace KaitoAutoIndexer.RunCounters

open KaitoAutoIndexer.Lib KaitoAutoIndexer.Types
open KaitoAutoIndexer.Cluster KaitoAutoIndexer.Controller KaitoAutoIndexer.JobClient
open KaitoAutoIndexer.System KaitoAutoIndexer.SystemSteps
open KaitoAutoIndexer.JobSteps
open KaitoAutoIndexer.ControllerSteps (Knows Worked)
open KaitoAutoIndexer.ControllerSpec (demo demoWorld)

/-! ### The counters -/

/-- `successfulIndexingCount` and `errorIndexingCount`. -/
def counters (s : Status) : ℕ × ℕ := (s.successfulIndexingCount, s.errorIndexingCount)

/-- The counter that a run with the given result raises. -/
def counter (success : Bool) (s : Status) : ℕ :=
  if success then s.successfulIndexingCount else s.errorIndexingCount

/-- Exactly one of the two is raised by one. -/
def raised (success : Bool) (c : ℕ × ℕ) : ℕ × ℕ :=
  if success then (c.1 + 1, c.2) else (c.1, c.2 + 1)

/-- The accepted completion updates, as the counters before and after each. -/
structure Tally where
  /-- Those of the run that began last. -/
  updates : List ((ℕ × ℕ) × (ℕ × ℕ))
  /-- The runs that have returned, with their results and their updates. -/
  ended : List (Bool × List ((ℕ × ℕ) × (ℕ × ℕ)))

def tally (x : World × account.Notes × Tally) : system.Event → Tally
  | .begin .job => { x.2.2 with updates := [] }
  | .call .job (.patchStatus body) (.ok _) =>
    match x.1.stored, (x.2.1 .job : Told).reads with
    | some o, 2 =>
      { x.2.2 with updates := (counters o.status, counters body.status) :: x.2.2.updates }
    | _, _ => x.2.2
  | .finish .job (some success) =>
    { x.2.2 with ended := (success, x.2.2.updates) :: x.2.2.ended }
  | _ => x.2.2

/-- When a run is completed and the read of the counter has failed, the counter is still `0`. -/
def Counted (x : World × account.Notes × Tally) : system.Event → Prop
  | .call .job (.patchStatus body) (.ok _) =>
    ∀ r e rest success, (x.2.1 .job : Told).reads = 2 →
      (x.2.1 .job : Told).got = .ok r :: .error e :: rest →
      Completes success (.error e) r body → counter success r.status = 0
  | _ => True

/-! ### What changes them -/

lemma counters_of_worked {listing : Option (List Job)} {x r : AutoIndexer} {s : Status}
    (h : Worked listing x r s) : s.successfulIndexingCount = r.status.successfulIndexingCount ∧
      s.errorIndexingCount = r.status.errorIndexingCount := by
  cases h with
  | same => exact ⟨rfl, rfl⟩
  | phase hr =>
    subst hr
    exact ⟨rfl, rfl⟩
  | reset hr =>
    subst hr
    unfold ControllerCalls.resetStatus
    split <;> exact ⟨rfl, rfl⟩

lemma counters_of_merge {w : World} {k : account.Notes} {o x r m : AutoIndexer} (hk : Sound w k)
    (ho : w.stored = some o) (hr : (k .controller : Knows).read = some r)
    (hb : (k .controller : Knows).base = some x)
    (hv : m.resourceVersion = r.resourceVersion)
    (hw : Worked (k .controller : Knows).listing x r m.status)
    (hc : x.resourceVersion = m.resourceVersion ∨ o.resourceVersion = m.resourceVersion) :
    counters (mergeStatus x.status m.status o.status) = counters o.status := by
  obtain ⟨h1, h2⟩ := counters_of_worked hw
  exact Prod.ext (merged_eq hk ho (f := Status.successfulIndexingCount) (fun _ _ _ => rfl) hr hb hv hc h1)
    (merged_eq hk ho (f := Status.errorIndexingCount) (fun _ _ _ => rfl) hr hb hv hc h2)

/-- A write of a job that does not complete it. -/
lemma counters_of_job {w : World} {k : account.Notes} {o body : AutoIndexer} (hk : Sound w k)
    (ho : w.stored = some o) (hl : Lawful (k .job : Told) (.patchStatus body))
    (hv : o.resourceVersion = body.resourceVersion) (hn : (k .job : Told).reads ≠ 2) :
    counters body.status = counters o.status := by
  cases hl with
  | condition _ hr =>
    obtain rfl := eq_of_read hk.snapshots ho hr hv
    rfl
  | base _ hr hu =>
    obtain rfl := eq_of_read hk.snapshots ho hr hv
    simp [counters, StatusUpdate.apply, AutoIndexer.withStatus, hu.successes, hu.errors]
  | completion _ h => exact absurd h hn

/-- The event is a completion update that was accepted. -/
def Completing (g : Told) : system.Event → Prop
  | .call .job (.patchStatus _) (.ok _) => g.reads = 2
  | _ => False

lemma eq_of_completing {g : Told} {e : system.Event} (h : Completing g e) :
    g.reads = 2 ∧ ∃ body, e = .call .job (.patchStatus body) (.ok ()) := by
  unfold Completing at h
  split at h
  · exact ⟨h, _, rfl⟩
  · exact h.elim

lemma counters_of_accepted {w w' : World} {o o' body : AutoIndexer}
    (h : JobServes True w (.patchStatus body) (.ok ()) w') (ho : w.stored = some o)
    (ho' : w'.stored = some o') : counters o'.status = counters body.status := by
  rcases stored_of_jobServes h with ⟨-, hf⟩ | ⟨o1, ho1, hw⟩
  · cases hf
  · rw [ho] at ho1
    cases ho1
    rw [ho'] at hw
    generalize hs : some o' = s at hw
    cases hw with
    | patchStatus =>
      cases hs
      simp [AutoIndexer.withStatus]

/-- Nothing else changes the counters. -/
lemma counters_of_effect {w : World} {k : account.Notes} {o o' : AutoIndexer} {e : system.Event}
    (hk : Sound w k) (ho : w.stored = some o) (h : Effect k o e (some o'))
    (he : ¬ Completing (k .job) e) : counters o'.status = counters o.status := by
  generalize hs : some o' = s at h
  cases h with
  | addFinalizer _ _ ho =>
    cases hs
    rw [ho]
    simp [finalizing]
  | suspend _ _ _ _ _ _ _ ho =>
    cases hs
    rw [ho]
    simp [suspending, AutoIndexer.withSpec]
  | resume _ _ _ _ _ _ _ ho =>
    cases hs
    rw [ho]
    simp [suspending, AutoIndexer.withSpec]
  | remediated _ _ _ _ _ ho =>
    cases hs
    rw [ho]
    simp [remediatedAt]
  | status hr hb _ hv hw hc =>
    cases hs
    simpa [AutoIndexer.withStatus] using counters_of_merge hk ho hr hb hv hw hc
  | release _ _ ho =>
    rcases ho with rfl | rfl
    · cases hs
    · cases hs
      simp [finalizing]
  | mark =>
    cases hs
    simp [DetectorSteps.marked]
  | clear =>
    cases hs
    simp [DetectorSteps.cleared]
  | drop => cases hs
  | job hl hv =>
    cases hs
    simpa [AutoIndexer.withStatus] using counters_of_job hk ho hl hv he
  | edits =>
    cases hs
    simp [AutoIndexer.withSpec]
  | deletes =>
    unfold deleted at hs
    split at hs
    · cases hs
    · cases hs
      simp

lemma increment_of_counters {y r : AutoIndexer} {f : Status → ℕ}
    (h : f y.status = f r.status) : increment (.ok y) f = f r.status + 1 := by
  rw [← h]
  rfl

/-- The update raises the counter by one if it was read as it is stored, or is still `0`. -/
lemma counters_of_completes {success : Bool} {x : Except ApiError AutoIndexer} {r body : AutoIndexer}
    (h : Completes success x r body)
    (hx : ∀ y, x = .ok y → counters y.status = counters r.status)
    (he : ∀ e, x = .error e → counter success r.status = 0) :
    counters body.status = raised success (counters r.status) := by
  obtain ⟨n, u, hu, rfl⟩ := h
  have hsuccesses : ∀ f : Status → ℕ, (∀ y, x = .ok y → f y.status = f r.status) →
      (∀ e, x = .error e → f r.status = 0) → increment x f = f r.status + 1 := by
    intro f hf hf'
    cases x with
    | ok y => exact increment_of_counters (hf y rfl)
    | error e =>
      rw [hf' e rfl]
      rfl
  cases success with
  | true =>
    have hinc := hsuccesses Status.successfulIndexingCount (fun y hy => congrArg Prod.fst (hx y hy)) he
    simp [counters, raised, StatusUpdate.apply, AutoIndexer.withStatus, hu.successes, hu.errors, hinc]
  | false =>
    have hinc := hsuccesses Status.errorIndexingCount (fun y hy => congrArg Prod.snd (hx y hy)) he
    simp [counters, raised, StatusUpdate.apply, AutoIndexer.withStatus, hu.successes, hu.errors, hinc]

/-! ### The invariant -/

structure Inv (w : World) (g : Told) (t : Tally) : Prop where
  /-- The reads in a row that came last show the counters that are stored. -/
  reads : ∀ y, .ok y ∈ g.got.take g.reads → ∀ o, w.stored = some o →
    counters y.status = counters o.status
  /-- An update is in the tally if and only if it has been noted. -/
  updates : g.done = none ∧ t.updates = [] ∨ ∃ d c c', g.done = some d ∧ t.updates = [(c, c')] ∧
    (∃ success, Completes success d.counter d.read d.sent) ∧
    ∀ success, Completes success d.counter d.read d.sent → c' = raised success c
  ended : ∀ p ∈ t.ended, p.2.length ≤ 1 ∧ ∀ u ∈ p.2, u.2 = raised p.1 u.1

lemma Inv.stored {w w' : World} {g : Told} {t : Tally} (h : Inv w g t)
    (hw : ∀ o', w'.stored = some o' → ∃ o, w.stored = some o ∧
      counters o'.status = counters o.status) : Inv w' g t := by
  refine ⟨fun y hy o' ho' => ?_, h.updates, h.ended⟩
  obtain ⟨o, ho, hcounters⟩ := hw o' ho'
  rw [hcounters]
  exact h.reads y hy o ho

lemma inv_untold {w : World} {ended : List (Bool × List ((ℕ × ℕ) × (ℕ × ℕ)))}
    (h : ∀ p ∈ ended, p.2.length ≤ 1 ∧ ∀ u ∈ p.2, u.2 = raised p.1 u.1) :
    Inv w untold ⟨[], ended⟩ := by
  refine ⟨fun y hy => ?_, .inl ⟨rfl, rfl⟩, h⟩
  cases hy

/-- The counters are as they were, but after a completion update. -/
lemma counters_of_happens {w w' : World} {k : account.Notes} {e : system.Event} (hk : Sound w k)
    (hl : account.Allows k e) (h : system.Happens w e w') (he : ¬ Completing (k .job) e) :
    ∀ o', w'.stored = some o' → ∃ o, w.stored = some o ∧
      counters o'.status = counters o.status := by
  intro o' ho'
  rcases effect_of_happens hk.snapshots hl h with ⟨hs, -⟩ | ⟨o, ho, heffect⟩
  · exact ⟨o', hs ▸ ho', rfl⟩
  · rw [ho'] at heffect
    exact ⟨o, ho, counters_of_effect hk ho heffect he⟩

/-- A run is completed. -/
lemma inv_completing {w w' : World} {k : account.Notes} {t : Tally} {body : AutoIndexer}
    (hk : Sound w k) (hinv : Inv w (k .job) t)
    (hc : Counted (w, k, t) (.call .job (.patchStatus body) (.ok ())))
    (hl : Lawful (k .job : Told) (.patchStatus body))
    (h : JobServes True w (.patchStatus body) (.ok ()) w') (hn : (k .job : Told).reads = 2) :
    Inv w' (hear (k .job) (.patchStatus body) (.ok ())) 
      (tally (w, k, t) (.call .job (.patchStatus body) (.ok ()))) ∧
    ∀ o, w.stored = some o → ∃ success, counters body.status = raised success (counters o.status) := by
  obtain ⟨o, ho, hv⟩ : ∃ o, w.stored = some o ∧ o.resourceVersion = body.resourceVersion := by
    rcases stored_of_jobServes h with ⟨-, hf⟩ | ⟨o, ho, hw⟩
    · cases hf
    · generalize w'.stored = s at hw
      cases hw with
      | patchStatus hv => exact ⟨o, ho, hv⟩
  cases hl with
  | condition h0 =>
    rw [hn] at h0
    cases h0
  | base h1 =>
    rw [hn] at h1
    cases h1
  | @completion success r x rest u hd _ hr hu =>
    have hor : o = r := eq_of_read hk.snapshots ho hr hv
    subst hor
    set body := o.withStatus (u.apply o.status) with hbody
    have hcompletes : Completes success x o body := ⟨_, u, hu, rfl⟩
    have hraised : ∀ success, Completes success x o body →
        counters body.status = raised success (counters o.status) := by
      intro success hs
      refine counters_of_completes hs ?_ ?_
      · rintro y rfl
        refine hinv.reads y ?_ o ho
        rw [hn, hr]
        simp
      · rintro e rfl
        exact hc o e rest success hn hr hs
    refine ⟨⟨?_, ?_, ?_⟩, fun o' ho' => ?_⟩
    · intro y hy
      change Except.ok y ∈ (k .job : Told).got.take 0 at hy
      rw [List.take_zero] at hy
      cases hy
    · have hnone : t.updates = [] := by
        rcases hinv.updates with ⟨-, h⟩ | ⟨d, -, -, hd', -⟩
        · exact h
        · rw [hd] at hd'
          cases hd'
      have hdone : (hear (k .job) (.patchStatus body) (.ok ())).done = some ⟨x, o, body⟩ := by
        change (k .job : Told).completion body = _
        unfold Told.completion
        rw [hn, hr]
        rfl
      have htally : (tally (w, k, t) (.call .job (.patchStatus body) (.ok ()))).updates =
          [(counters o.status, counters body.status)] := by
        simp only [tally, ho, hn, hnone]
      exact .inr ⟨_, _, _, hdone, htally, ⟨success, hcompletes⟩, hraised⟩
    · have hended : (tally (w, k, t) (.call .job (.patchStatus body) (.ok ()))).ended = t.ended := by
        simp only [tally, ho, hn]
      rw [hended]
      exact hinv.ended
    · rw [ho] at ho'
      cases ho'
      exact ⟨success, hraised success hcompletes⟩

/-- Any other call of the job. -/
lemma inv_call {w w' : World} {k : account.Notes} {t : Tally} {c : JobCall} {r : JobAnswer c}
    (hk : Sound w k) (hinv : Inv w (k .job) t) (hl : Lawful (k .job : Told) c)
    (h : JobServes True w c r w') (he : ¬ Completing (k .job) (.call .job c r)) :
    Inv w' (hear (k .job) c r) (tally (w, k, t) (.call .job c r)) := by
  have hnext := hinv.stored (counters_of_happens (e := .call .job c r) hk hl h he)
  have hother : ∀ g' : Told, g'.reads = 0 → g'.done = (k .job : Told).done → Inv w' g' t := by
    intro g' hreads hdone
    refine ⟨fun y hy => ?_, ?_, hinv.ended⟩
    · rw [hreads, List.take_zero] at hy
      cases hy
    · rw [hdone]
      exact hinv.updates
  cases c with
  | now => exact hother _ rfl rfl
  | getAutoIndexer =>
    refine ⟨fun y hy o ho => ?_, hinv.updates, hinv.ended⟩
    rcases List.mem_cons.mp hy with hy | hy
    · obtain ⟨rfl, hr | ⟨-, m, hr⟩⟩ := h
      · rw [← hy] at hr
        simp only [readAutoIndexer, ho] at hr
        cases hr
        rfl
      · rw [← hy] at hr
        cases hr
    · exact hnext.reads y hy o ho
  | rag t q =>
    have hworks : Works True t (.rag t q) := rfl
    exact hother _ (hear_reads (by simp) r) (hear_done hworks r)
  | kusto q => exact hother _ rfl rfl
  | fetch u => exact hother _ rfl rfl
  | patchStatus body =>
    cases r with
    | error e => exact hother _ rfl rfl
    | ok a =>
      have hn : (k .job : Told).reads ≠ 2 := he
      have htally : tally (w, k, t) (.call .job (.patchStatus body) (.ok a)) = t := by
        simp only [tally]
        split
        · rename_i h2
          exact absurd h2 hn
        · rfl
      rw [htally]
      refine hother _ rfl ?_
      change (k .job : Told).completion body = _
      unfold Told.completion
      split
      · rename_i h2 _
        exact absurd h2 hn
      · rfl

lemma inv_step {w w' : World} {k : account.Notes} {t : Tally} {e : system.Event}
    (hk : Sound w k) (hinv : Inv w (k .job) t) (hc : Counted (w, k, t) e)
    (hl : account.Allows k e) (h : system.Happens w e w') :
    Inv w' (account.watch k e .job) (tally (w, k, t) e) := by
  have hother : ¬ Completing (k .job) e → Inv w' (k .job) t := fun he =>
    hinv.stored (counters_of_happens hk hl h he)
  match e with
  | .begin .job =>
    rw [System.Account.watch_begin]
    exact inv_untold hinv.ended
  | .begin .controller => exact hother not_false
  | .begin .detector => exact hother not_false
  | .call .controller c r => exact hother not_false
  | .call .detector c r => exact hother not_false
  | .call .job c r =>
    by_cases he : Completing (k .job) (.call .job c r)
    · cases c with
      | patchStatus body =>
        cases r with
        | ok a => exact (inv_completing hk hinv hc hl h he).1
        | error e => exact he.elim
      | _ => exact he.elim
    · exact inv_call hk hinv hl h he
  | .finish .job none => exact hother not_false
  | .finish .job (some b) =>
    have hw := hother not_false
    refine ⟨hw.reads, hw.updates, fun p hp => ?_⟩
    rcases List.mem_cons.mp hp with rfl | hp
    · rcases hinv.updates with ⟨-, h⟩ | ⟨d, c, c', hd, hupdates, -, hraised⟩
      · rw [h]
        exact ⟨by simp, nofun⟩
      · obtain ⟨success, hs, hcompletes⟩ : ∃ success, some b = some success ∧
          Completes success d.counter d.read d.sent := hl d hd
        cases hs
        rw [hupdates]
        refine ⟨by simp, fun u hu => ?_⟩
        obtain rfl := List.mem_singleton.mp hu
        exact hraised b hcompletes
    · exact hinv.ended p hp
  | .finish .controller a => exact hother not_false
  | .finish .detector a => exact hother not_false
  | .crash i => exact hother not_false
  | .act a => exact hother not_false

/-! ### Runs -/

lemma le_raised (success : Bool) (c : ℕ × ℕ) : c ≤ raised success c := by
  cases success
  · exact ⟨le_refl _, Nat.le_succ _⟩
  · exact ⟨Nat.le_succ _, le_refl _⟩

lemma inv_of_reach {s : System.Config system (account.Notes × Tally)}
    (h : System.Reach (account.observer tally) Counted (StartWith ⟨[], []⟩) s) :
    Sound s.world s.record.1 ∧ Inv s.world (s.record.1 .job) s.record.2 := by
  refine invariant_of_reach (I := fun x => Inv x.1 (x.2.1 .job) x.2.2) ?_
    (fun w k t e w' hk hinv hc hl hw => inv_step hk hinv hc hl hw) h
  rintro s ⟨⟨hq, hk⟩, ht⟩
  refine ⟨⟨hq, hk⟩, ?_⟩
  change Inv s.world (s.record.1 .job) s.record.2
  rw [hk, ht]
  exact inv_untold nofun

/-- **The counters count runs**, in every run of the system in which a counter that cannot be
read is still `0`. They never decrease; only an accepted completion update changes them, and it
raises one of them by one; a job has at most one such update, and once the job has returned it
is the counter of its result that was raised. -/
theorem counters_count {s : System.Config system (account.Notes × Tally)}
    (h : System.Reach (account.observer tally) Counted (StartWith ⟨[], []⟩) s) :
    (∀ e s' o o', System.Step (account.observer tally) s e s' → Counted s.view e →
      s.world.stored = some o → s'.world.stored = some o' →
      counters o.status ≤ counters o'.status ∧
      (Completing (s.record.1 .job) e →
        ∃ success, counters o'.status = raised success (counters o.status)) ∧
      (¬ Completing (s.record.1 .job) e → counters o'.status = counters o.status)) ∧
    s.record.2.updates.length ≤ 1 ∧
    ∀ p ∈ s.record.2.ended, p.2.length ≤ 1 ∧ ∀ u ∈ p.2, u.2 = raised p.1 u.1 := by
  constructor
  · intro e s' o o' hs hc ho ho'
    obtain ⟨hsound, hinv⟩ := inv_of_reach h
    obtain ⟨hl, hw, -⟩ := allows_of_reach (fun _ hi => hi.1) h hs
    have hcompletes : Completing (s.record.1 .job) e →
        ∃ success, counters o'.status = raised success (counters o.status) := by
      intro he
      obtain ⟨hn, body, rfl⟩ := eq_of_completing he
      rw [counters_of_accepted hw ho ho']
      exact (inv_completing hsound hinv hc hl hw hn).2 o ho
    have hother : ¬ Completing (s.record.1 .job) e → counters o'.status = counters o.status := by
      intro he
      obtain ⟨o1, ho1, hcounters⟩ := counters_of_happens hsound hl hw he o' ho'
      rw [ho] at ho1
      cases ho1
      exact hcounters
    refine ⟨?_, hcompletes, hother⟩
    by_cases he : Completing (s.record.1 .job) e
    · obtain ⟨success, hraised⟩ := hcompletes he
      rw [hraised]
      exact le_raised success _
    · rw [hother he]
  · obtain ⟨-, hinv⟩ := inv_of_reach h
    refine ⟨?_, hinv.ended⟩
    rcases hinv.updates with ⟨-, h⟩ | ⟨d, c, c', -, h, -⟩ <;> simp [h]

/-! ### Two runs -/

/-- No read fails before another. -/
def readTest (x : World × account.Notes × Tally) (_ : system.Event) : Bool :=
  match (x.2.1 .job : Told).got with
  | _ :: .error _ :: _ => false
  | _ => true

lemma counted_of_readTest {x : World × account.Notes × Tally} {e : system.Event}
    (h : readTest x e = true) : Counted x e := by
  match e with
  | .begin i => trivial
  | .finish i a => trivial
  | .crash i => trivial
  | .act a => trivial
  | .call .controller c r => trivial
  | .call .detector c r => trivial
  | .call .job c r =>
    cases c with
    | patchStatus body =>
      cases r with
      | error e => trivial
      | ok a =>
        intro r e rest success _ hgot _
        unfold readTest at h
        rw [hgot] at h
        cases h
    | _ => trivial

/-- `demo` with the URL of a page as its source, after five successful runs. -/
def settled : AutoIndexer :=
  { demo with
    spec := { demo.spec with dataSource := ⟨.static, none, some ⟨["https://example.com/a.md"]⟩, none⟩ }
    status := { demo.status with successfulIndexingCount := 5 } }

def settledStart : System.Config system (account.Notes × Tally) :=
  before { demoWorld with stored := some settled } ⟨[], []⟩

/-- Nothing can be cloned. -/
def nowhere : Git.Remote := ⟨.error "unreachable", fun _ => .error "unreachable", .ok, fun _ _ => false⟩

/-- The first `n` calls of a job, while the page can be fetched and nothing goes wrong. -/
def fetching (test : World × account.Notes × Tally → system.Event → Bool) (n : ℕ)
    (s : System.Config system (account.Notes × Tally)) :
    Py (Option Bool) × (World × account.Notes × Tally) × Bool :=
  (Job.main nowhere).after (System.answer (account.observer tally) test Actor.job fetched) n (s.view, true)

lemma reach_fetching (test : World × account.Notes × Tally → system.Event → Bool)
    {cond : World × account.Notes × Tally → system.Event → Prop}
    {s : System.Config system (account.Notes × Tally)} (htest : ∀ x e, test x e = true → cond x e)
    (h : System.Reach (account.observer tally) cond (StartWith ⟨[], []⟩) s)
    (hp : s.threads .job = some (Job.main nowhere)) (n : ℕ) (hy : (fetching test n s).2.2 = true) :
    System.Reach (account.observer tally) cond (StartWith ⟨[], []⟩)
      ⟨(fetching test n s).2.1.1, (fetching test n s).2.1.2,
        Function.update s.threads .job (some (fetching test n s).1)⟩ :=
  System.Reach.after (i := Actor.job) fetched (fun w c => jobServes_fetched True w c) htest h hp n
    rfl hy

theorem counters_count_settled :
    ∃ s e s' o o', System.Reach (account.observer tally) Counted (StartWith ⟨[], []⟩) s ∧
      System.Step (account.observer tally) s e s' ∧ s.world.stored = some o ∧
      s'.world.stored = some o' ∧ counters o.status ≤ counters o'.status ∧
      counters o'.status = (6, 0) ∧ s.record.2.updates.length ≤ 1 := by
  have h0 : System.Reach (account.observer tally) Counted (StartWith ⟨[], []⟩) settledStart :=
    .init ⟨start_before _ _, rfl⟩
  have h1 := reach_job h0 nowhere rfl trivial
  have h2 := reach_fetching _ (fun _ _ => counted_of_readTest) h1 rfl 27 (by decide)
  have hstep := step_job h2 rfl
  obtain ⟨hsteps, hupdates, -⟩ := counters_count h2
  have hcount := hsteps _ _ _ _ hstep (counted_of_readTest (by decide)) rfl rfl
  exact ⟨_, _, _, _, _, h2, hstep, rfl, rfl, hcount.1, by decide, hupdates⟩

/-- The read of the counter fails once, and five successful runs are forgotten. -/
theorem not_counters_count :
    ¬ ∀ s : System.Config system (account.Notes × Tally),
      System.Reach (account.observer tally) (fun _ _ => True) (StartWith ⟨[], []⟩) s →
        ∀ p ∈ s.record.2.ended, p.2.length ≤ 1 ∧ ∀ u ∈ p.2, u.2 = raised p.1 u.1 := by
  intro h
  have h0 : System.Reach (account.observer tally) (fun _ _ => True) (StartWith ⟨[], []⟩)
      settledStart := .init ⟨start_before _ _, rfl⟩
  have h1 := reach_job h0 nowhere rfl trivial
  have h2 := reach_fetching (fun _ _ => true) (fun _ _ _ => trivial) h1 rfl 25
    (System.after_flag_eq_true _ _ _)
  have h3 := reach_unread h2 rfl "timeout"
  have h4 := reach_working (fun _ _ _ => trivial) h3 rfl 2
    (System.after_flag_eq_true _ _ _)
  have h5 := System.Reach.step h4 (.finish (i := .job) (a := some true) rfl) trivial
  exact absurd (h _ h5) (by decide)

end KaitoAutoIndexer.RunCounters
