import KaitoAutoIndexer.SystemSteps
import KaitoAutoIndexer.ControllerSpec

/-!
Whom a drift is reported for: an AutoIndexer in the phase Scheduled, and whether it still has a
schedule.
-/

namespace KaitoAutoIndexer.ScheduledDrift

open KaitoAutoIndexer.Lib KaitoAutoIndexer.Types KaitoAutoIndexer.Cluster
open KaitoAutoIndexer.Controller KaitoAutoIndexer.Detector
open KaitoAutoIndexer.System KaitoAutoIndexer.SystemSteps
open KaitoAutoIndexer.ControllerSteps (Knows note PhaseStep)
open KaitoAutoIndexer.ControllerSpec (demo demoWorld)

/-! ### Since the latest edit -/

/-- What has happened since the latest edit of the spec. -/
structure Since where
  /-- The reconcile that runs, or ran last, has read the object since. -/
  read : Bool
  /-- A reconcile that has read the object since has succeeded. -/
  settled : Bool

/-- The object that the answer to a reconcile's first call gives. -/
def reads : (c : Call) → Answer c → Option AutoIndexer
  | .get, .ok o => some o
  | _, _ => none

def since (x : World × account.Notes × Since) : system.Event → Since
  | .act (.edits _) => ⟨false, false⟩
  | .begin .controller => { x.2.2 with read := false }
  | .call .controller c a => { x.2.2 with read := x.2.2.read || (reads c a).isSome }
  | .finish .controller none => { x.2.2 with settled := x.2.2.settled || x.2.2.read }
  | _ => x.2.2

/-- The object waits for a schedule that it does not have. -/
structure Stranded (o : AutoIndexer) : Prop where
  schedule : o.spec.schedule = none
  suspended : o.spec.suspended = false
  phase : o.status.indexingPhase = .scheduled ∨ o.status.indexingPhase = .suspended

/-- No reconcile finds the object stranded. -/
def Unstranded (_ : World × account.Notes × Since) : system.Event → Prop
  | .call .controller c a => ∀ o, reads c a = some o → ¬ Stranded o
  | _ => True

/-! ### The invariant -/

/-- The base of a reconcile that has read the object since the latest edit. -/
structure Current (x o : AutoIndexer) : Prop where
  schedule : x.spec.schedule = o.spec.schedule
  suspended : x.status.indexingPhase ≠ .driftRemediation → x.spec.suspended = o.spec.suspended
  drifted : x.status.indexingPhase = .driftRemediation →
    o.status.indexingPhase = .driftRemediation ∨ o.status.indexingPhase = .pending

lemma Current.refl (o : AutoIndexer) : Current o o := ⟨rfl, fun _ => rfl, .inl⟩

structure Inv (w : World) (g : Knows) (r : Since) : Prop where
  unstranded : r.read = true ∨ r.settled = true → ∀ o, w.stored = some o → ¬ Stranded o
  current : r.read = true → ∀ x, g.base = some x → ∀ o, w.stored = some o → Current x o
  idle : r.read = false → r.settled = true → g.base = none

variable {w w' : World} {k : account.Notes} {r : Since} {o o' x m y : AutoIndexer} {e : system.Event}

/-- A turn of the phase strands nobody who was not stranded. -/
lemma not_stranded_of_phaseStep {listing : Option (List Job)} {p : Phase} (hx : Current x o)
    (hphase : x.status.indexingPhase = o.status.indexingPhase) (hstep : PhaseStep x listing p)
    (ho : ¬ Stranded o) (hp : p = .scheduled ∨ p = .suspended) (hs : o.spec.suspended = false) :
    o.spec.schedule.isSome = true := by
  rw [← hx.schedule]
  cases hstep with
  | pendingSuspended _ _ hc => exact hc
  | pendingScheduled _ _ hc => exact hc
  | runningScheduled _ hc => exact hc
  | scheduledSuspended h hsus =>
    have hne : x.status.indexingPhase ≠ .driftRemediation := by simp [h]
    rw [hx.suspended hne, hs] at hsus
    cases hsus
  | unsuspended h hsus =>
    by_contra hc
    refine ho ⟨?_, hs, .inr (hphase ▸ h)⟩
    rw [← hx.schedule]
    simpa using hc
  | _ => simp at hp

lemma not_stranded_congr (h : ¬ Stranded o) (hspec : o'.spec = o.spec)
    (hphase : o'.status.indexingPhase = o.status.indexingPhase) : ¬ Stranded o' := by
  rintro ⟨h1, h2, h3⟩
  rw [hspec] at h1 h2
  rw [hphase] at h3
  exact h ⟨h1, h2, h3⟩

lemma Current.congr (h : Current x o) (hspec : o'.spec = o.spec)
    (hphase : o'.status.indexingPhase = o.status.indexingPhase) : Current x o' :=
  ⟨by rw [hspec]; exact h.schedule, fun hp => by rw [hspec]; exact h.suspended hp,
    fun hp => by rw [hphase]; exact h.drifted hp⟩

/-- What a write of somebody but a user makes of the object. -/
inductive Turn (k : account.Notes) (o o' : AutoIndexer) : Prop
  | same (hspec : o'.spec = o.spec) (hphase : o'.status.indexingPhase = o.status.indexingPhase)
  | suspend {x : AutoIndexer} (b : Bool) (hb : (k .controller : Knows).base = some x)
      (hp : x.status.indexingPhase = .driftRemediation)
      (hspec : o'.spec = (suspending o b).spec)
      (hphase : o'.status.indexingPhase = o.status.indexingPhase)
  | phase {x : AutoIndexer} (hb : (k .controller : Knows).base = some x)
      (hx : x.status.indexingPhase = o.status.indexingPhase) (hspec : o'.spec = o.spec)
      (hstep : PhaseStep x (k .controller : Knows).listing o'.status.indexingPhase)

lemma turn_of_effect (hk : Sound w k) (ho : w.stored = some o) (h : Effect k o e (some o'))
    (he : ∀ spec, e ≠ .act (.edits spec)) : Turn k o o' := by
  generalize hs : some o' = s at h
  cases h with
  | addFinalizer _ _ ho' =>
    cases hs
    exact .same (by rw [ho']; simp [finalizing]) (by rw [ho']; simp [finalizing])
  | suspend _ hb _ hp _ _ _ ho' =>
    cases hs
    exact .suspend true hb hp (by rw [ho']; simp)
      (by rw [ho']; simp [suspending, AutoIndexer.withSpec])
  | resume _ hb _ hp _ _ _ ho' =>
    cases hs
    exact .suspend false hb hp (by rw [ho']; simp)
      (by rw [ho']; simp [suspending, AutoIndexer.withSpec])
  | remediated _ _ _ _ _ ho' =>
    cases hs
    exact .same (by rw [ho']; simp [remediatedAt]) (by rw [ho']; simp [remediatedAt])
  | status hr hb hsent hv hw hc =>
    cases hs
    rcases phase_of_merge hk ho hr hb hsent hv hw hc with hp | ⟨hx, hstep⟩
    · exact .same (by simp [AutoIndexer.withStatus]) (by simpa [AutoIndexer.withStatus] using hp)
    · exact .phase hb hx (by simp [AutoIndexer.withStatus]) (by simpa [AutoIndexer.withStatus] using hstep)
  | release _ _ ho' =>
    rcases ho' with rfl | rfl
    · cases hs
    · cases hs
      exact .same (by simp [finalizing]) (by simp [finalizing])
  | mark =>
    cases hs
    exact .same (by simp [DetectorSteps.marked]) (by simp [DetectorSteps.marked])
  | clear =>
    cases hs
    exact .same (by simp [DetectorSteps.cleared]) (by simp [DetectorSteps.cleared])
  | drop => cases hs
  | job hl hv =>
    cases hs
    exact .same (by simp [AutoIndexer.withStatus])
      (by simpa [AutoIndexer.withStatus] using phase_of_job hk.snapshots ho hl hv)
  | edits => exact absurd rfl (he _)
  | deletes =>
    unfold deleted at hs
    split at hs
    · cases hs
    · cases hs
      exact .same (by simp) (by simp)

/-- Nobody but a user strands the object. -/
lemma Turn.not_stranded (h : Turn k o o') (ho : ¬ Stranded o)
    (hcur : ∀ x, (k .controller : Knows).base = some x → Current x o) : ¬ Stranded o' := by
  cases h with
  | same hspec hphase => exact not_stranded_congr ho hspec hphase
  | suspend b hb hp hspec hphase =>
    rintro ⟨-, -, hst⟩
    rw [hphase] at hst
    rcases (hcur _ hb).drifted hp with h | h <;> simp [h] at hst
  | phase hb hx hspec hstep =>
    rintro ⟨h1, h2, h3⟩
    rw [hspec] at h1 h2
    have hsome := not_stranded_of_phaseStep (hcur _ hb) hx hstep ho h3 h2
    rw [h1] at hsome
    cases hsome

/-- The base of the reconcile stays current. -/
lemma Turn.current (h : Turn k o o') (hb : (k .controller : Knows).base = some x)
    (hcur : Current x o) : Current x o' := by
  cases h with
  | same hspec hphase => exact hcur.congr hspec hphase
  | suspend b hb' hp hspec hphase =>
    obtain rfl := Option.some.inj (hb.symm.trans hb')
    refine ⟨?_, fun hne => absurd hp hne, fun _ => ?_⟩
    · rw [hspec]
      exact hcur.schedule
    · rw [hphase]
      exact hcur.drifted hp
  | phase hb' hx hspec hstep =>
    obtain rfl := Option.some.inj (hb.symm.trans hb')
    refine ⟨by rw [hspec]; exact hcur.schedule, fun hp => by rw [hspec]; exact hcur.suspended hp,
      fun hp => ?_⟩
    generalize o'.status.indexingPhase = p at hstep
    cases hstep with
    | driftIgnored => exact .inr rfl
    | driftOver => exact .inr rfl
    | start h | pendingSuspended h | pendingScheduled h | pendingFailed h
    | pendingRunning h | scheduledSuspended h | scheduledRunning h | drifted h
    | unsuspended h | runningFailed h | runningScheduled h | runningCompleted h =>
      rw [hp] at h
      cases h

/-! ### One step -/

/-- What a reconcile reads first is what is stored, and becomes its base. -/
lemma reads_some {g : Knows} {c : Call} {a : Answer c} (h : Serves True w c a w')
    (hr : reads c a = some y) : w'.stored = some y ∧ (note g c a).base = some y := by
  unfold reads at hr
  split at hr
  · cases hr
    exact ⟨stored_of_gives h .get, rfl⟩
  · cases hr

/-- A reconcile that has read nothing learns of no object but by that. -/
lemma base_note_none {g : Knows} {c : Call} {a : Answer c} (hl : ControllerSteps.Lawful g c)
    (hb : g.base = none) (hr : reads c a = none) : (note g c a).base = none := by
  have hne : ∀ x, g.base ≠ some x := fun x hx => by rw [hb] at hx; cases hx
  unfold note
  split
  · cases hr
  · cases hl with
    | plain h => exact h.elim
    | addFinalizer _ hb' => exact absurd hb' (hne _)
    | suspend _ hb' => exact absurd hb' (hne _)
    | resume _ hb' => exact absurd hb' (hne _)
    | mark _ hb' => exact absurd hb' (hne _)
  all_goals exact hb

/-- The record after an event other than an edit, the beginning of a reconcile and its first
read. -/
structure Keeps (r r' : Since) : Prop where
  read : r'.read = r.read
  settled : r'.settled = true → r.read = true ∨ r.settled = true

lemma inv_of_keeps {r' : Since} (hk : Sound w k) (hinv : Inv w (k .controller) r)
    (hl : account.Allows k e) (h : system.Happens w e w') (hr : Keeps r r')
    (he : ∀ spec, e ≠ .act (.edits spec)) (hidle : (k .controller : Knows).base = none →
      (account.watch k e .controller : Knows).base = none) :
    Inv w' (account.watch k e .controller) r' := by
  have hturn : ∀ o', w'.stored = some o' → w.stored = some o' ∨
      ∃ o, w.stored = some o ∧ Turn k o o' := by
    intro o' ho'
    rcases effect_of_happens hk.snapshots hl h with ⟨hs, -⟩ | ⟨o, ho, heffect⟩
    · exact .inl (hs ▸ ho')
    · rw [ho'] at heffect
      exact .inr ⟨o, ho, turn_of_effect hk ho heffect he⟩
  have hknown : r.read = true ∨ r.settled = true → ∀ o, w.stored = some o → ∀ x,
      (k .controller : Knows).base = some x → Current x o := by
    intro hsince o ho x hx
    cases hread : r.read with
    | true => exact hinv.current hread x hx o ho
    | false =>
      have hsettled : r.settled = true := by simpa [hread] using hsince
      rw [hinv.idle hread hsettled] at hx
      cases hx
  refine ⟨fun hsince o' ho' => ?_, fun hread x hx o' ho' => ?_, fun hread hsettled => ?_⟩
  · have hsince : r.read = true ∨ r.settled = true := by
      rcases hsince with hread | hsettled
      · exact .inl (hr.read ▸ hread)
      · exact hr.settled hsettled
    rcases hturn o' ho' with ho | ⟨o, ho, ht⟩
    · exact hinv.unstranded hsince o' ho
    · exact ht.not_stranded (hinv.unstranded hsince o ho) (hknown hsince o ho)
  · rw [hr.read] at hread
    rcases recalls_watch (f := Knows.base) (.inr (.inr rfl)) h hx with hx | hx
    · rcases hturn o' ho' with ho | ⟨o, ho, ht⟩
      · exact hinv.current hread x hx o' ho
      · exact ht.current hx (hinv.current hread x hx o ho)
    · obtain rfl := Option.some.inj (ho'.symm.trans hx)
      exact .refl _
  · rw [hr.read] at hread
    refine hidle (hinv.idle hread ?_)
    simpa [hread] using hr.settled hsettled

/-- Events of which the record takes no note. -/
lemma inv_of_same (hk : Sound w k) (hinv : Inv w (k .controller) r) (hl : account.Allows k e)
    (h : system.Happens w e w') (hs : since (w, k, r) e = r)
    (he : ∀ spec, e ≠ .act (.edits spec))
    (hw : account.watch k e .controller = k .controller) :
    Inv w' (account.watch k e .controller) (since (w, k, r) e) := by
  rw [hs]
  refine inv_of_keeps hk hinv hl h ⟨rfl, .inr⟩ he fun hb => ?_
  rw [hw]
  exact hb

lemma inv_step (hk : Sound w k) (hinv : Inv w (k .controller) r) (hc : Unstranded (w, k, r) e)
    (hl : account.Allows k e) (h : system.Happens w e w') :
    Inv w' (account.watch k e .controller) (since (w, k, r) e) := by
  match e with
  | .begin .controller =>
    obtain rfl : w' = w := h
    refine ⟨fun hsince o ho => ?_, nofun, fun _ _ => ?_⟩
    · have hsettled : r.settled = true := by simpa [since] using hsince
      exact hinv.unstranded (.inr hsettled) o ho
    · rw [System.Account.watch_begin]
      rfl
  | .call .controller c a =>
    rw [System.Account.watch_self]
    cases hr : reads c a with
    | some y =>
      obtain ⟨hy, hbase⟩ := reads_some (g := k .controller) h hr
      refine ⟨fun _ o ho => ?_, fun _ x hx o ho => ?_, fun hread => ?_⟩
      · obtain rfl := Option.some.inj (hy.symm.trans ho)
        exact hc y hr
      · obtain rfl := Option.some.inj (hbase.symm.trans hx)
        obtain rfl := Option.some.inj (hy.symm.trans ho)
        exact .refl _
      · simp [since, hr] at hread
    | none =>
      have hs : since (w, k, r) (.call .controller c a) = r := by simp [since, hr]
      rw [hs]
      have hkeeps : Keeps r r := ⟨rfl, .inr⟩
      have hinv' := inv_of_keeps hk hinv hl h hkeeps (by simp) fun hb => by
        rw [System.Account.watch_self]
        exact base_note_none hl hb hr
      rwa [System.Account.watch_self] at hinv'
  | .finish .controller none =>
    refine inv_of_keeps hk hinv hl h ⟨rfl, fun hs => ?_⟩ (by simp) id
    have hs : r.settled = true ∨ r.read = true := by simpa [since] using hs
    exact hs.symm
  | .act (.edits spec) => exact ⟨by simp [since], nofun, nofun⟩
  | .begin .detector => exact inv_of_same hk hinv hl h rfl (by simp) rfl
  | .begin .job => exact inv_of_same hk hinv hl h rfl (by simp) rfl
  | .call .detector c a => exact inv_of_same hk hinv hl h rfl (by simp) rfl
  | .call .job c a => exact inv_of_same hk hinv hl h rfl (by simp) rfl
  | .finish .controller (some m) => exact inv_of_same hk hinv hl h rfl (by simp) rfl
  | .finish .detector a => exact inv_of_same hk hinv hl h rfl (by simp) rfl
  | .finish .job a => exact inv_of_same hk hinv hl h rfl (by simp) rfl
  | .crash i => exact inv_of_same hk hinv hl h rfl (by simp) rfl
  | .act .deletes => exact inv_of_same hk hinv hl h rfl (by simp) rfl
  | .act (.fires n) => exact inv_of_same hk hinv hl h rfl (by simp) rfl
  | .act (.moves j) => exact inv_of_same hk hinv hl h rfl (by simp) rfl
  | .act (.gone n) => exact inv_of_same hk hinv hl h rfl (by simp) rfl
  | .act (.passes t) => exact inv_of_same hk hinv hl h rfl (by simp) rfl
  | .act (.others _ _ _ _) => exact inv_of_same hk hinv hl h rfl (by simp) rfl

/-! ### Runs -/

/-- A drift is reported for an object in the phase Scheduled only, and not while it is
suspended. -/
lemma checkAutoIndexerDrift_reports (o : AutoIndexer) :
    Obeys (fun _ => True) (fun result => result.driftDetected = true →
      o.status.indexingPhase = .scheduled ∧ o.spec.suspended = false) (checkAutoIndexerDrift o) := by
  unfold checkAutoIndexerDrift
  dsimp only
  split
  · exact nofun
  · split
    · exact nofun
    · rename_i hstable
      have hphase := (DetectorSteps.isAutoIndexerInStableState_iff o).mp (not_not.mp hstable)
      split
      · exact nofun
      · split
        · exact nofun
        · rename_i hsus
          have hattempt : Obeys (fun _ => True) (fun _ => True) (ask (.httpGetDocumentCount
              (generateRAGEngineEndpoint o.spec.ragEngine o.namespace_) o.spec.indexName
              (o.namespace_ ++ "_" ++ o.name))) := ⟨trivial, fun _ => trivial⟩
          have hcount : Obeys (fun _ => True) (fun _ => True) (getDocumentCount o.spec.ragEngine
              o.spec.indexName o.name o.namespace_) :=
            (ControllerCalls.obeys_retry hattempt _).bind fun r _ => by cases r <;> trivial
          refine hcount.bind fun r _ => ?_
          cases r with
          | error m => exact nofun
          | ok n => exact fun _ => ⟨hphase, by simpa using hsus⟩

/-- **A drift is reported for scheduled AutoIndexers only**, in every run in which no reconcile
finds the object stranded: once a reconcile that has seen the latest edit has succeeded, an object
for which a check reports a drift has a schedule. -/
theorem drift_of_scheduled {s : System.Config system (account.Notes × Since)} {o : AutoIndexer}
    {result : DriftDetectionResult} {w : World}
    (h : System.Reach (account.observer since) Unstranded (StartWith ⟨false, false⟩) s)
    (hs : s.record.2.settled = true) (ho : s.world.stored = some o)
    (hend : Ends (Serves True) (checkAutoIndexerDrift o) s.world result w)
    (hd : result.driftDetected = true) : o.spec.schedule.isSome = true := by
  have hinv := (invariant_of_reach (I := fun x => Inv x.1 (x.2.1 .controller) x.2.2) ?_
    (fun w k r e w' hk hinv hc hl hw => inv_step hk hinv hc hl hw) h).2
  · obtain ⟨hreport, -⟩ := ((checkAutoIndexerDrift_reports o).runs (J := fun _ => True)
      (fun _ _ _ _ _ _ _ => trivial) trivial).ends hend
    obtain ⟨hphase, hsus⟩ := hreport hd
    by_contra hsch
    refine hinv.unstranded (.inr hs) o ho ⟨?_, hsus, .inl hphase⟩
    simpa using hsch
  · rintro s ⟨hstart, hr⟩
    refine ⟨hstart, ?_⟩
    change Inv s.world (s.record.1 .controller) s.record.2
    rw [hr]
    exact ⟨by simp, nofun, nofun⟩

/-! ### A schedule that is removed -/

/-- The test of `Unstranded`. -/
def unstrandedTest (_ : World × account.Notes × Since) : system.Event → Bool
  | .call .controller c a => (reads c a).all fun o =>
    o.spec.schedule.isSome || o.spec.suspended || o.status.indexingPhase = .running
  | _ => true

lemma unstranded_of_test {x : World × account.Notes × Since} {e : system.Event}
    (h : unstrandedTest x e = true) : Unstranded x e := by
  match e with
  | .call .controller c a =>
    intro o ho hst
    simp only [unstrandedTest, ho, Option.all_some, hst.schedule, hst.suspended] at h
    rcases hst.phase with hp | hp <;> simp [hp] at h
  | .begin i => trivial
  | .call .detector c a => trivial
  | .call .job c a => trivial
  | .finish i a => trivial
  | .crash i => trivial
  | .act a => trivial

/-- A scheduled AutoIndexer that has indexed a document. -/
def waiting : AutoIndexer :=
  { demo with
    spec := { demo.spec with schedule := some "@daily" }
    status := { demo.status with indexingPhase := .scheduled, numOfDocumentInIndex := 1 } }

/-- The document has gone from the index. -/
def waitingWorld : World :=
  { demoWorld with
    stored := some waiting
    indexes := [⟨"http://rag.default.svc.cluster.local:80", "index", []⟩] }

/-- The answer of the check in a state. -/
def checked (o : AutoIndexer) (w : World) : DriftDetectionResult :=
  ((checkAutoIndexerDrift o).exec serve w).1

lemma ends_checked (o : AutoIndexer) (w : World) : Ends (Serves True) (checkAutoIndexerDrift o) w
    (checked o w) ((checkAutoIndexerDrift o).exec serve w).2 :=
  Ends.exec _ w (serves_serve True)

theorem drift_of_scheduled_demo :
    ∃ s, System.Reach (account.observer since) Unstranded (StartWith ⟨false, false⟩) s ∧
      ∃ o, s.world.stored = some o ∧ (checked o s.world).driftDetected = true ∧
        o.spec.schedule.isSome = true := by
  have h0 : System.Reach (account.observer since) Unstranded (StartWith ⟨false, false⟩)
      (before waitingWorld ⟨false, false⟩) := .init ⟨start_before waitingWorld _, rfl⟩
  have h1 := reach_calling (fun _ _ => unstranded_of_test) h0 rfl trivial 40 (by decide)
  have h2 := System.Reach.step h1 (.finish (i := .controller) (a := none) rfl) trivial
  exact ⟨_, h2, _, rfl, by decide,
    drift_of_scheduled h2 (by decide) rfl (ends_checked _ _) (by decide)⟩

/-- After the user has removed the schedule, the object stays in the phase Scheduled. -/
theorem not_drift_of_scheduled :
    ¬ ∀ (s : System.Config system (account.Notes × Since)) (o : AutoIndexer)
      (result : DriftDetectionResult) (w : World),
      System.Reach (account.observer since) (fun _ _ => True) (StartWith ⟨false, false⟩) s →
      s.record.2.settled = true → s.world.stored = some o →
      Ends (Serves True) (checkAutoIndexerDrift o) s.world result w →
      result.driftDetected = true → o.spec.schedule.isSome = true := by
  intro h
  have h0 : System.Reach (account.observer since) (fun _ _ => True) (StartWith ⟨false, false⟩)
      (before waitingWorld ⟨false, false⟩) := .init ⟨start_before waitingWorld _, rfl⟩
  have h1 := reach_act h0 (@Env.edits _ _ demo.spec rfl)
  have h2 := reach_reconciling h1 rfl 40
  have h3 := reach_finish h2 (e := none) rfl
  exact absurd (h _ _ _ _ h3 (by decide) rfl (ends_checked _ _) (by decide)) (by decide)

end KaitoAutoIndexer.ScheduledDrift
