import KaitoAutoIndexer.SystemSteps
import KaitoAutoIndexer.Remediation

/-!
Whose `spec.suspend` is it: what a stay in the phase DriftRemediation leaves of the value that
the user has set.
-/

namespace KaitoAutoIndexer.SuspendFlag

open KaitoAutoIndexer.Lib KaitoAutoIndexer.Types
open KaitoAutoIndexer.Cluster KaitoAutoIndexer.Controller
open KaitoAutoIndexer.System KaitoAutoIndexer.SystemSteps
open KaitoAutoIndexer.ControllerSteps (Knows note phase_of_worked)
open KaitoAutoIndexer.Remediation (drifted driftedWorld)

/-! ### A stay in the phase -/

/-- The record of the stays in DriftRemediation. -/
structure Stay where
  /-- The value of `spec.suspend` at entry, or as the user has set it since; `none` outside of
  a stay that was seen to begin. -/
  wanted : Option Bool
  /-- The controller has suspended the AutoIndexer itself, and nobody has changed that. -/
  own : Bool
  /-- For every stay that is over: what the user wanted, and what was left. -/
  exits : List (Bool × Bool)

/-- The phase after a patch of the status. -/
def phaseAfter (a m o : AutoIndexer) : Phase :=
  (mergeStatus a.status m.status o.status).indexingPhase

/-- The record after an event, where `o` is stored before it. -/
def stayAfter (o : AutoIndexer) (r : Stay) : system.Event → Stay
  | .call .controller (.patchStatus a m) (.ok _) =>
    if phaseAfter a m o = .driftRemediation then
      if o.status.indexingPhase = .driftRemediation then r
      else { r with wanted := some o.spec.suspended, own := false }
    else if o.status.indexingPhase = .driftRemediation then
      ⟨none, false, r.wanted.toList.map (·, o.spec.suspended) ++ r.exits⟩
    else { r with wanted := none, own := false }
  | .call .controller (.patch a b) (.ok _) =>
    if b.spec.suspend = a.spec.suspend then r
    else if b.spec.suspended then { r with own := r.own || !o.spec.suspended }
    else { r with own := false }
  | .act (.edits spec) =>
    if spec.suspended = o.spec.suspended then r
    else { r with wanted := r.wanted.map fun _ => spec.suspended, own := false }
  | _ => r

def stay (x : World × account.Notes × Stay) (e : system.Event) : Stay :=
  match x.1.stored with
  | some o => stayAfter o x.2.2 e
  | none => x.2.2

/-- The controller does not unsuspend what the user wants suspended, and does not leave for
Ignore while its own suspension is in place. -/
def Respects (x : World × account.Notes × Stay) : system.Event → Prop
  | .call .controller (.patch a b) (.ok _) =>
    b.spec.suspend ≠ a.spec.suspend → b.spec.suspended = false → x.2.2.wanted ≠ some true
  | .call .controller (.patchStatus a _) (.ok _) =>
    a.status.indexingPhase = .driftRemediation →
      a.spec.driftRemediationPolicy = some .ignore → x.2.2.own = false
  | _ => True

/-! ### The invariant -/

/-- What the record says of a stored object. -/
structure Fits (r : Stay) (o : AutoIndexer) : Prop where
  own : r.own = true → o.spec.suspended = true
  wanted : ∀ v, r.wanted = some v → r.own = false → o.spec.suspended = v
  ours : ∀ v, r.wanted = some v → r.own = true → v = false

/-- What is stored fits the record, and what was read last is suspended as long as the
controller's own suspension is in place. -/
structure Inv (w : World) (g : Knows) (r : Stay) : Prop where
  stored : ∀ o, w.stored = some o → Fits r o
  read : r.own = true → ∀ x, g.read = some x → x.spec.suspended = true
  exits : ∀ p ∈ r.exits, p.2 = p.1

lemma Fits.congr {r : Stay} {o o' : AutoIndexer} (h : Fits r o)
    (hs : o'.spec.suspended = o.spec.suspended) : Fits r o' :=
  ⟨fun h1 => hs.trans (h.own h1), fun v h1 h2 => hs.trans (h.wanted v h1 h2), h.ours⟩

@[simp] lemma suspended_suspending (o : AutoIndexer) (b : Bool) :
    (suspending o b).spec.suspended = b := by
  cases b <;> rfl

/-- What is not accepted leaves the record as it is. -/
lemma stayAfter_of_not_accepts {o : AutoIndexer} {r : Stay} {e : system.Event}
    (h : Accepts e = false) : stayAfter o r e = r := by
  unfold stayAfter
  split
  · cases h
  · cases h
  · cases h
  · rfl

/-- One step: the record fits what is stored afterwards. -/
lemma fits_step {w : World} {k : account.Notes} {r : Stay} {o o' : AutoIndexer}
    {e : system.Event} (h : Fits r o) (hc : Respects (w, k, r) e)
    (heffect : Effect k o e (some o')) : Fits (stayAfter o r e) o' := by
  generalize hs : some o' = s at heffect
  cases heffect with
  | @addFinalizer x _ _ _ ho' =>
    cases hs
    have hspec : ∀ fs, (finalizing x fs).spec.suspend = x.spec.suspend := fun _ => rfl
    rw [stayAfter, if_pos (hspec _)]
    exact h.congr (by rw [ho']; simp [finalizing])
  | @suspend x m _ _ _ hm _ _ _ hsus ho' =>
    cases hs
    have hne : (suspending m true).spec.suspend ≠ m.spec.suspend := by
      obtain ⟨cs, -, rfl⟩ := hm
      intro heq
      have hx : x.spec.suspended = true := by
        unfold Spec.suspended
        rw [show x.spec.suspend = some true from heq.symm]
        rfl
      rw [hsus] at hx
      cases hx
    have ho'' : o'.spec.suspended = true := by
      rw [ho']
      simp
    rw [stayAfter, if_neg hne, if_pos (suspended_suspending m true)]
    refine ⟨fun _ => ho'', fun v hv hown => ?_, fun v hv hown => ?_⟩
    · have hown' : r.own = false ∧ o.spec.suspended = true := by simpa using hown
      rw [ho'', ← h.wanted v hv hown'.1, hown'.2]
    · cases hr : r.own with
      | true => exact h.ours v hv hr
      | false =>
        have ho1 : o.spec.suspended = false := by simpa [hr] using hown
        rw [← h.wanted v hv hr, ho1]
  | @resume x m _ _ _ hm _ _ _ hsus ho' =>
    cases hs
    have hne : (suspending m false).spec.suspend ≠ m.spec.suspend := by
      obtain ⟨cs, -, rfl⟩ := hm
      intro heq
      have hx : x.spec.suspended = false := by
        unfold Spec.suspended
        rw [show x.spec.suspend = some false from heq.symm]
        rfl
      rw [hsus] at hx
      cases hx
    have hwanted := hc hne (suspended_suspending m false)
    rw [stayAfter, if_neg hne, if_neg (by simp)]
    refine ⟨fun hr => (by cases hr), fun v hv _ => ?_, fun _ _ hr => by cases hr⟩
    rw [ho']
    cases v with
    | true => exact absurd hv hwanted
    | false => simp
  | @remediated x m _ _ _ _ _ _ _ ho' =>
    cases hs
    have hspec : ∀ st, (remediatedAt (ControllerCalls.resetStatus m) st).spec.suspend =
        (ControllerCalls.resetStatus m).spec.suspend := fun _ => rfl
    rw [stayAfter, if_pos (hspec _)]
    exact h.congr (by rw [ho']; simp [remediatedAt])
  | status =>
    cases hs
    rw [stayAfter]
    split
    · split
      · exact h.congr (by simp [AutoIndexer.withStatus])
      · refine ⟨fun hr => (by cases hr), fun v hv _ => ?_, fun _ _ hr => by cases hr⟩
        cases hv
        simp [AutoIndexer.withStatus]
    · split <;> exact ⟨fun hr => (by cases hr), fun _ hv => (by cases hv), fun _ hv => by cases hv⟩
  | release _ _ ho' =>
    rcases ho' with rfl | rfl
    · cases hs
    · cases hs
      exact h.congr (by simp [finalizing])
  | mark =>
    cases hs
    exact h.congr (by simp [DetectorSteps.marked])
  | clear =>
    cases hs
    exact h.congr (by simp [DetectorSteps.cleared])
  | drop => cases hs
  | job =>
    cases hs
    exact h.congr (by simp [AutoIndexer.withStatus])
  | edits =>
    cases hs
    rw [stayAfter]
    split
    · rename_i heq
      exact h.congr (by simpa [AutoIndexer.withSpec] using heq)
    · refine ⟨fun hr => (by cases hr), fun v hv _ => ?_, fun _ _ hr => by cases hr⟩
      obtain ⟨_, -, rfl⟩ := Option.map_eq_some_iff.mp hv
      simp [AutoIndexer.withSpec]
  | deletes =>
    unfold deleted at hs
    split at hs
    · cases hs
    · cases hs
      exact h.congr (by simp)

/-- The controller's own suspension begins with its patch. -/
lemma own_of_stayAfter {o : AutoIndexer} {r : Stay} {e : system.Event}
    (h : (stayAfter o r e).own = true) :
    r.own = true ∨ ∃ a b x, e = .call .controller (.patch a b) (.ok x) := by
  unfold stayAfter at h
  split at h
  · split at h
    · split at h
      · exact .inl h
      · cases h
    · split at h <;> cases h
  · exact .inr ⟨_, _, _, rfl⟩
  · split at h
    · exact .inl h
    · cases h
  · exact .inl h

/-- What the controller reads after a patch is what is stored. -/
lemma read_of_patch {w w' : World} {k : account.Notes} {a b x : AutoIndexer}
    (h : system.Happens w (.call .controller (.patch a b) (.ok x)) w') :
    (account.watch k (.call .controller (.patch a b) (.ok x)) .controller : Knows).read =
      w'.stored := by
  have hserves : Serves True w (.patch a b) (.ok x) w' := h
  have hstored : w'.stored = some x := stored_of_gives hserves .patch
  rw [System.Account.watch_self, hstored]
  simp only [note]
  split <;> rfl

/-! ### Leaving the phase -/

/-- The phase is left for a policy that ignores drifts, or unsuspended. -/
lemma left_of_status {w : World} {k : account.Notes} {o x r m : AutoIndexer} (hk : Sound w k)
    (ho : w.stored = some o) (hp : o.status.indexingPhase = .driftRemediation)
    (hp' : phaseAfter x m o ≠ .driftRemediation) (hr : (k .controller : Knows).read = some r)
    (hb : (k .controller : Knows).base = some x) (hsent : (k .controller : Knows).sent = false)
    (hw : ControllerSteps.Worked (k .controller : Knows).listing x r m.status) :
    (k .controller : Knows).read = some x ∧ x.status.indexingPhase = .driftRemediation ∧
      (x.spec.driftRemediationPolicy = some .ignore ∨ x.spec.suspended = false) := by
  have hx : x.status.indexingPhase = .driftRemediation :=
    (hk.phases hsent Knows.base (.inr (.inr rfl)) x hb o ho).trans hp
  have hr' : r.status.indexingPhase = .driftRemediation :=
    (hk.phases hsent Knows.read (.inr (.inl rfl)) r hr o ho).trans hp
  have hm : m.status.indexingPhase ≠ .driftRemediation := by
    intro hm
    refine hp' ?_
    have hmerge : phaseAfter x m o =
        pick x.status.indexingPhase m.status.indexingPhase o.status.indexingPhase := rfl
    rw [hmerge, hx, hm, pick_self, hp]
  rcases phase_of_worked hw with h | ⟨h, hstep⟩
  · exact absurd (h.trans hr') hm
  · refine ⟨hr.trans (congrArg some h), hx, ?_⟩
    generalize m.status.indexingPhase = p at hstep
    cases hstep with
    | driftIgnored _ hi => exact .inl hi
    | driftOver _ _ _ hsus => exact .inr hsus
    | start h | pendingSuspended h | pendingScheduled h | pendingFailed h
    | pendingRunning h | scheduledSuspended h | scheduledRunning h | drifted h
    | unsuspended h | runningFailed h | runningScheduled h | runningCompleted h =>
      rw [hx] at h
      cases h

/-- When the phase is left, `spec.suspend` is what the user wants. -/
lemma suspended_of_left {w w' : World} {k : account.Notes} {r : Stay} {a m o : AutoIndexer}
    {v : Bool} (hk : Sound w k) (hinv : Inv w (k .controller) r)
    (hc : Respects (w, k, r) (.call .controller (.patchStatus a m) (.ok ())))
    (hl : account.Allows k (.call .controller (.patchStatus a m) (.ok ())))
    (h : system.Happens w (.call .controller (.patchStatus a m) (.ok ())) w')
    (ho : w.stored = some o) (hp : o.status.indexingPhase = .driftRemediation)
    (hp' : phaseAfter a m o ≠ .driftRemediation) (hv : r.wanted = some v) :
    o.spec.suspended = v := by
  refine (hinv.stored o ho).wanted v hv ?_
  rcases effect_of_happens hk.snapshots hl h with ⟨-, ha⟩ | ⟨o1, ho1, heffect⟩
  · cases ha
  rw [ho] at ho1
  cases ho1
  generalize w'.stored = s at heffect
  cases heffect with
  | status hr hb hsent hv hw hc' =>
    obtain ⟨hread, hx, hway⟩ := left_of_status hk ho hp hp' hr hb hsent hw
    rcases hway with hi | hsus
    · exact hc hx hi
    · by_contra hown
      rw [Bool.not_eq_false] at hown
      rw [hinv.read hown _ hread] at hsus
      cases hsus

lemma exits_step {w w' : World} {k : account.Notes} {r : Stay} {e : system.Event}
    (hk : Sound w k) (hinv : Inv w (k .controller) r) (hc : Respects (w, k, r) e)
    (hl : account.Allows k e) (h : system.Happens w e w') :
    ∀ p ∈ (stay (w, k, r) e).exits, p.2 = p.1 := by
  cases ho : w.stored with
  | none =>
    rw [stay, ho]
    exact hinv.exits
  | some o =>
    have hstay : stay (w, k, r) e = stayAfter o r e := by
      rw [stay, ho]
    rw [hstay]
    unfold stayAfter
    split
    · split
      · split <;> exact hinv.exits
      · rename_i hp'
        split
        · rename_i hp
          intro p hmem
          rcases List.mem_append.mp hmem with hmem | hmem
          · obtain ⟨v, hv, rfl⟩ := List.mem_map.mp hmem
            exact suspended_of_left hk hinv hc hl h ho hp hp' (by simpa using hv)
          · exact hinv.exits p hmem
        · exact hinv.exits
    · split
      · exact hinv.exits
      · split <;> exact hinv.exits
    · split <;> exact hinv.exits
    · exact hinv.exits

/-! ### One step -/

lemma inv_step {w w' : World} {k : account.Notes} {r : Stay} {e : system.Event}
    (hk : Sound w k) (hinv : Inv w (k .controller) r) (hc : Respects (w, k, r) e)
    (hl : account.Allows k e) (h : system.Happens w e w') :
    Inv w' (account.watch k e .controller) (stay (w, k, r) e) := by
  have hstored : ∀ o', w'.stored = some o' → Fits (stay (w, k, r) e) o' := by
    intro o' ho'
    rcases effect_of_happens hk.snapshots hl h with ⟨hs, ha⟩ | ⟨o, ho, heffect⟩
    · have ho : w.stored = some o' := hs ▸ ho'
      have hsame : stay (w, k, r) e = r := by
        rw [stay, ho]
        exact stayAfter_of_not_accepts ha
      rw [hsame]
      exact hinv.stored o' ho
    · rw [ho'] at heffect
      have hstay : stay (w, k, r) e = stayAfter o r e := by
        rw [stay, ho]
      rw [hstay]
      exact fits_step (hinv.stored o ho) hc heffect
  refine ⟨hstored, fun hown x hx => ?_, exits_step hk hinv hc hl h⟩
  have hfresh : w'.stored = some x → x.spec.suspended = true := fun hw => (hstored x hw).own hown
  have hpatch : r.own = true ∨ ∃ a b x, e = .call .controller (.patch a b) (.ok x) := by
    cases ho : w.stored with
    | none =>
      rw [stay, ho] at hown
      exact .inl hown
    | some o =>
      rw [stay, ho] at hown
      exact own_of_stayAfter hown
  rcases hpatch with hr | ⟨a, b, y, rfl⟩
  · rcases recalls_watch (f := Knows.read) (.inr (.inl rfl)) h hx with hx | hx
    · exact hinv.read hr x hx
    · exact hfresh hx
  · rw [read_of_patch h] at hx
    exact hfresh hx

/-! ### Runs -/

/-- **The suspend flag is given back**, in every run in which the controller respects it: at the
end of every stay, `spec.suspend` is what the user wants. -/
theorem suspend_given_back {s : System.Config system (account.Notes × Stay)}
    (h : System.Reach (account.observer stay) Respects (StartWith ⟨none, false, []⟩) s) :
    ∀ p ∈ s.record.2.exits, p.2 = p.1 := by
  have hinv := invariant_of_reach (I := fun x => Inv x.1 (x.2.1 .controller) x.2.2) ?_
    (fun w k r e w' hk hinv hc hl hw => inv_step hk hinv hc hl hw) h
  · exact hinv.2.exits
  · rintro s ⟨hs, hr⟩
    refine ⟨hs, ?_⟩
    change Inv s.world (s.record.1 .controller) s.record.2
    rw [hr]
    exact ⟨fun _ _ => ⟨nofun, fun _ => nofun, fun _ => nofun⟩, nofun, nofun⟩

/-! ### Two ways out -/

/-- The test of `Respects`. -/
def respectsTest (x : World × account.Notes × Stay) : system.Event → Bool
  | .call .controller (.patch a b) (.ok _) =>
    decide (b.spec.suspend ≠ a.spec.suspend → b.spec.suspended = false →
      x.2.2.wanted ≠ some true)
  | .call .controller (.patchStatus a _) (.ok _) =>
    decide (a.status.indexingPhase = .driftRemediation →
      a.spec.driftRemediationPolicy = some .ignore → x.2.2.own = false)
  | _ => true

lemma respects_of_test {x : World × account.Notes × Stay} {e : system.Event}
    (h : respectsTest x e = true) : Respects x e := by
  unfold respectsTest at h
  unfold Respects
  split at h <;> exact of_decide_eq_true h

/-- `drifted` before its phase is entered. -/
def marked : AutoIndexer :=
  { drifted with
    spec := { drifted.spec with suspend := none }
    status := { drifted.status with indexingPhase := .scheduled } }

def markedWorld : World := { driftedWorld with stored := some marked }

/-- The spec of `marked`, with the policy Ignore. -/
def ignoring (suspend : Option Bool) : Spec :=
  { marked.spec with suspend := suspend, driftRemediationPolicy := some .ignore }

/-- The phase is entered, a user turns to Ignore, and the phase is left. -/
theorem suspend_given_back_ignored :
    ∃ s, System.Reach (account.observer stay) Respects (StartWith ⟨none, false, []⟩) s ∧
      s.record.2.exits = [(false, false)] ∧ ∀ p ∈ s.record.2.exits, p.2 = p.1 := by
  have h0 : System.Reach (account.observer stay) Respects (StartWith ⟨none, false, []⟩)
      (before markedWorld ⟨none, false, []⟩) := .init ⟨start_before markedWorld _, rfl⟩
  have h1 := reach_calling (fun _ _ => respects_of_test) h0 rfl trivial 30 (by decide)
  have h2 := System.Reach.step h1 (.finish (i := .controller) (a := none) rfl) trivial
  have h3 := System.Reach.step h2 (.act (@Env.edits _ _ (ignoring none) rfl)) trivial
  have h4 := reach_calling (fun _ _ => respects_of_test) h3 rfl trivial 30 (by decide)
  exact ⟨_, h4, by decide, suspend_given_back h4⟩

/-- A user turns to Ignore only after the controller has suspended the AutoIndexer. -/
theorem not_suspend_given_back :
    ¬ ∀ s : System.Config system (account.Notes × Stay),
      System.Reach (account.observer stay) (fun _ _ => True) (StartWith ⟨none, false, []⟩) s →
        ∀ p ∈ s.record.2.exits, p.2 = p.1 := by
  intro h
  have h0 : System.Reach (account.observer stay) (fun _ _ => True) (StartWith ⟨none, false, []⟩)
      (before markedWorld ⟨none, false, []⟩) := .init ⟨start_before markedWorld _, rfl⟩
  have h1 := reach_reconciling h0 rfl 30
  have h2 := reach_finish h1 (e := none) rfl
  have h3 := reach_reconciling h2 rfl 30
  have h4 := reach_finish h3 (e := none) rfl
  have h5 := reach_act h4 (@Env.edits _ _ (ignoring (some true)) rfl)
  have h6 := reach_reconciling h5 rfl 30
  exact absurd (h _ h6) (by decide)

end KaitoAutoIndexer.SuspendFlag
