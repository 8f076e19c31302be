import KaitoAutoIndexer.SystemSteps
import KaitoAutoIndexer.Remediation

/-!
Who may have its index deleted while it lives: an AutoIndexer with the policy Auto, in the phase
DriftRemediation, with its drift marked, suspended, and without an active Job.
-/

namespace KaitoAutoIndexer.OnlyAuto

open KaitoAutoIndexer.Lib KaitoAutoIndexer.Types
open KaitoAutoIndexer.Cluster KaitoAutoIndexer.Controller
open KaitoAutoIndexer.System KaitoAutoIndexer.SystemSteps
open KaitoAutoIndexer.ControllerSteps (Knows note fresh active_eq_zero_of_running)

open KaitoAutoIndexer.Remediation (drifted driftedWorld)

/-- The AutoIndexer is not being deleted, and its policy is absent, Manual or Ignore. -/
def NotAuto (w : World) : Prop :=
  ∀ o, w.stored = some o → o.deleting = false ∧ o.spec.driftRemediationPolicy ≠ some .auto

/-- The controller deletes an index, turns `suspend` on, writes `last-drift-remediated`, or
writes the object as a whole. -/
def Destructive : system.Event → Prop
  | .call .controller (.httpDeleteIndex _ _) _ => True
  | .call .controller (.patch a b) _ =>
    (b.spec.suspend = some true ∧ b.spec.suspend ≠ a.spec.suspend) ∨
      b.annotations.lastDriftRemediated ≠ a.annotations.lastDriftRemediated
  | .call .controller (.update _) _ => True
  | _ => False

/-- What the controller has read lately is not being deleted, and not Auto. -/
def Harmless (g : Knows) : Prop :=
  ∀ x, (g.got = some x ∨ g.base = some x) →
    x.deleting = false ∧ x.spec.driftRemediationPolicy ≠ some .auto

lemma harmless_fresh : Harmless fresh := by simp [Harmless, fresh]

/-- What is got or becomes the base of a reconcile is stored. -/
lemma harmless_note {w w' : World} {g : Knows} {c : Call} {r : Answer c}
    (h : Serves True w c r w') (hw : NotAuto w') (hg : Harmless g) : Harmless (note g c r) := by
  have hnew : ∀ x, Gives x c r →
      x.deleting = false ∧ x.spec.driftRemediationPolicy ≠ some .auto :=
    fun x hx => hw x (stored_of_gives h hx)
  intro x hx
  unfold note at hx
  split at hx
  · rcases hx with hx | hx
    · cases hx
      exact hnew _ .get
    · cases hx
      exact hnew _ .get
  · split at hx
    · exact hg x hx
    · rcases hx with hx | hx
      · exact hg x (.inl hx)
      · cases hx
        exact hnew _ .patch
  all_goals exact hg x hx

/-- A reconcile that has read such objects only does nothing destructive. -/
lemma not_destructive_of_lawful {g : Knows} {c : Call} {r : Answer c} (hg : Harmless g)
    (h : ControllerSteps.Lawful g c) : ¬ Destructive (.call .controller c r) := by
  cases h with
  | plain h => cases c <;> first | exact h.elim | exact not_false
  | get _ => exact not_false
  | addFinalizer => simp [Destructive]
  | suspend _ hb _ _ _ _ ha => exact absurd ha (hg _ (.inr hb)).2
  | resume _ _ _ hm =>
    obtain ⟨cs, -, rfl⟩ := hm
    simp [Destructive, AutoIndexer.withSpec]
  | mark _ hb _ _ hrem => exact absurd hrem.policy (hg _ (.inr hb)).2
  | status => exact not_false
  | remediate _ hb _ _ hrem => exact absurd hrem.policy (hg _ (.inr hb)).2
  | collect hgot hd => exact absurd hd (by simp [(hg _ (.inl hgot)).1])
  | release hgot hd => exact absurd hd (by simp [(hg _ (.inl hgot)).1])

lemma harmless_of_reach {s : System.Config system (account.Notes × Unit)}
    (h : System.Reach noted (fun x _ => NotAuto x.1) Start s) (hs : NotAuto s.world) :
    Harmless (s.record.1 .controller) := by
  refine (invariant_of_reach (I := fun x => NotAuto x.1 → Harmless (x.2.1 .controller))
    ?_ ?_ h).2 hs
  · rintro s ⟨hq, hk⟩
    refine ⟨⟨hq, hk⟩, fun _ => ?_⟩
    change Harmless (s.record.1 .controller)
    rw [hk]
    exact harmless_fresh
  · intro w k g e w' _ hk hw _ hhappens hw'
    have hk := hk hw
    match e with
    | .begin .controller => exact harmless_fresh
    | .begin .detector => exact hk
    | .begin .job => exact hk
    | .call .controller c r =>
      change Harmless (account.watch k (.call .controller c r) .controller)
      rw [System.Account.watch_self]
      exact harmless_note hhappens hw' hk
    | .call .detector c r => exact hk
    | .call .job c r => exact hk
    | .finish i a => exact hk
    | .crash i => exact hk
    | .act a => exact hk

/-- The reconcile has come to delete the index of an AutoIndexer that lives. -/
structure MayDelete (g : Knows) : Prop where
  object : ∃ o, g.base = some o ∧ o.status.indexingPhase = .driftRemediation ∧
    o.spec.driftRemediationPolicy = some .auto ∧
    o.annotations.driftDetected = some "true" ∧ o.spec.suspend = some true
  idle : ∃ js, g.listing = some js ∧ ∀ j ∈ js, ¬ 0 < j.active

lemma mayDelete_of_lawful {g : Knows} {e i : String}
    (h : ControllerSteps.Lawful g (.httpDeleteIndex e i)) {x : AutoIndexer}
    (hx : g.got = some x) (hd : x.deleting = false) : MayDelete g := by
  cases h with
  | plain h => exact h.elim
  | @remediate o _ _ _ hb _ _ hrem =>
    obtain ⟨js, hl, hj⟩ := hrem.idle
    have hactive := active_eq_zero_of_running hj
    refine ⟨⟨o, hb, hrem.phase, hrem.policy, ?_, ?_⟩, js, hl, fun j hjs => ?_⟩
    · simpa [AutoIndexer.driftDetected] using hrem.detected
    · simpa [Spec.suspended] using hrem.suspended
    · rw [hactive j hjs]
      exact lt_irrefl 0
  | collect hgot hdel =>
    rw [hgot] at hx
    cases hx
    rw [hdel] at hd
    cases hd

/-- **Only Auto deletes.** As long as the AutoIndexer is not being deleted and its policy is
absent, Manual or Ignore, the controller does nothing destructive; and in every run, when it
deletes the index of an object that is not being deleted, the object it has read is in
DriftRemediation with the policy Auto, its drift marked, and suspended, and the Jobs it has
listed have no active pods. -/
theorem only_auto_deletes :
    (∀ s e s', System.Reach noted (fun x _ => NotAuto x.1) Start s → NotAuto s.world →
      System.Step noted s e s' → ¬ Destructive e) ∧
    (∀ s e i r s', System.Reach noted (fun _ _ => True) Start s →
      System.Step noted s (.call .controller (.httpDeleteIndex e i) r) s' →
      (∃ x, (s.record.1 .controller).got = some x ∧ x.deleting = false) →
      MayDelete (s.record.1 .controller)) := by
  constructor
  · intro s e s' h hw hs
    obtain ⟨hallow, -, -⟩ := allows_of_reach (fun _ h => h) h hs
    match e with
    | .call .controller c r => exact not_destructive_of_lawful (harmless_of_reach h hw) hallow
    | .call .detector c r => exact not_false
    | .call .job c r => exact not_false
    | .begin i => exact not_false
    | .finish i a => exact not_false
    | .crash i => exact not_false
    | .act a => exact not_false
  · rintro s e i r s' h hs ⟨x, hx, hd⟩
    obtain ⟨hallow, -, -⟩ := allows_of_reach (fun _ h => h) h hs
    exact mayDelete_of_lawful hallow hx hd

/-- The drift has gone, and the policy is Manual now. -/
def recovered : AutoIndexer :=
  { drifted with
    annotations := ⟨none, none, none⟩
    spec := { drifted.spec with driftRemediationPolicy := some .manual } }

def recoveredWorld : World := { driftedWorld with stored := some recovered }

/-- A test for `NotAuto`. -/
def notAutoTest (x : World × account.Notes × Unit) (_ : system.Event) : Bool :=
  x.1.stored.all fun o => !o.deleting && o.spec.driftRemediationPolicy != some .auto

lemma notAuto_of_test {x : World × account.Notes × Unit} {e : system.Event}
    (h : notAutoTest x e = true) : NotAuto x.1 := by
  intro o ho
  simpa [notAutoTest, ho] using h

/-- The first `n` calls of a reconcile. -/
def called (n : ℕ) : System.Config system (account.Notes × Unit) :=
  let y := calling (fun _ _ => ()) notAutoTest n (before recoveredWorld ())
  ⟨y.2.1.1, y.2.1.2, Function.update (fun _ => none) .controller (some y.1)⟩

def asks : Go Err → Bool
  | .ask _ _ => true
  | .ret _ => false

lemma exists_ask {p : Go Err} (h : asks p = true) : ∃ c k, p = .ask c k := by
  cases p with
  | ask c k => exact ⟨c, k, rfl⟩
  | ret a => cases h

/-- The reconcile, evaluated. -/
lemma recovered_run : ∀ n < 17,
    (calling (fun _ _ => ()) notAutoTest n (before recoveredWorld ())).2.2 = true ∧
      asks (calling (fun _ _ => ()) notAutoTest n (before recoveredWorld ())).1 = true ∧
      notAutoTest (called n).view (.begin .controller) = true := by
  decide +kernel

/-- Both runs may happen: the seventeen calls of a reconcile that resumes `recovered`, and one that
is about to delete the index of `drifted`. -/
theorem only_auto_deletes_drifted :
    (∀ n < 17, ∃ c k, (called n).threads .controller = some (.ask c k) ∧
      ¬ Destructive (.call .controller c (serve (called n).world c).1)) ∧
    MayDelete ((reconciling (fun _ _ => ()) 15 (before driftedWorld ())).record.1 .controller) := by
  constructor
  · intro n hn
    obtain ⟨hcalls, hasks, hw⟩ := recovered_run n hn
    have hbegin : NotAuto recoveredWorld := by
      rintro o ⟨⟩
      exact ⟨rfl, by decide⟩
    have hreach : System.Reach noted (fun x _ => NotAuto x.1) Start (called n) :=
      reach_calling (fun _ _ => notAuto_of_test) (.init (start_before recoveredWorld ())) rfl hbegin n
        hcalls
    obtain ⟨c, k, hp⟩ := exists_ask hasks
    have hthread : (called n).threads .controller = some (.ask c k) := congrArg some hp
    exact ⟨c, k, hthread, only_auto_deletes.1 _ _ _ hreach (notAuto_of_test hw)
      (step_reconcile _ hthread)⟩
  · have hreach : System.Reach noted (fun _ _ => True) Start
        (reconciling (fun _ _ => ()) 15 (before driftedWorld ())) :=
      reach_reconciling (.init (start_before driftedWorld ())) rfl 15
    exact only_auto_deletes.2 _ _ _ _ _ hreach (step_reconcile _ rfl)
      ⟨drifted, by decide, by decide⟩

end KaitoAutoIndexer.OnlyAuto
