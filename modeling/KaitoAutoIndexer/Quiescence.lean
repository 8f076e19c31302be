import KaitoAutoIndexer.CronJobs
import KaitoAutoIndexer.Finalizer
import KaitoAutoIndexer.Repairs

/-!
The controller does not keep itself busy with an AutoIndexer that has no schedule. Every write of a
reconcile brings about the next one, so it has to stop writing some time: after five reconciles in a
row it makes no write any more, except where it goes on to delete an index. (With a schedule every
reconcile updates the CronJob: it is compared as a whole with what the API server has filled in.)
-/

namespace KaitoAutoIndexer.Quiescence

open KaitoAutoIndexer.Lib KaitoAutoIndexer.Types KaitoAutoIndexer.Conditions
open KaitoAutoIndexer.Cluster KaitoAutoIndexer.Controller KaitoAutoIndexer.ControllerSpec
open KaitoAutoIndexer.ControllerCalls (Plain Prepares resetStatus prepares_ensureRequiredResources
  plainly_handlePendingPhase)
open KaitoAutoIndexer.Children KaitoAutoIndexer.ComingToRest
open KaitoAutoIndexer.CronJobs hiding reconciled
open KaitoAutoIndexer.Repairs (Removes removes_withResources handlePhase_of_removes)
open KaitoAutoIndexer.SharedAccounts (Writes Owns repairs_account repairs_generatedRole
  repairs_generatedBinding ensureRBACResources_ensures)
open KaitoAutoIndexer.Retries (Handles handles_handlePhase)
open KaitoAutoIndexer.Finalizer (Held)

variable {o m s x : AutoIndexer} {w w' : World} {v : Situation} {t : Time}

/-- The call is no write. -/
abbrev Idle (_ : World) (c : Call) : Prop := ¬ Writes c

/-- No write is made, when no call fails. -/
abbrev Quietly {α : Type} (Q : α → World → Prop) (p : Go α) (w : World) : Prop :=
  Sat (Serves False) (.alone World) Idle Q p w

/-! ### Conditions that are as they should be -/

/-- The status of the first condition of a type. -/
def statusOf (type : String) (cs : List Condition) : Option ConditionStatus :=
  (cs.find? (·.type == type)).map (·.status)

lemma statusOf_setCondition {c : Condition} {type : String} (h : c.type = type) (cs : List Condition) :
    statusOf type (setCondition c cs) = some c.status := by
  subst h
  have hfind : (setCondition c cs).find? (·.type == c.type) =
      some ((cs.find? (·.type == c.type)).elim c fun old => if old.status = c.status then old else c) :=
    find?_upsertWith (fun a ha => by split <;> simp_all) (by simp) cs
  rw [statusOf, hfind]
  cases cs.find? (·.type == c.type) with
  | none => rfl
  | some a =>
    by_cases ha : a.status = c.status
    · simp [ha]
    · simp [ha]

lemma statusOf_setCondition_of_ne {c : Condition} {type : String} (h : c.type ≠ type)
    (cs : List Condition) : statusOf type (setCondition c cs) = statusOf type cs := by
  rw [statusOf, setCondition, find?_upsertWith_of_not (fun a ha => ?_) (fun a ha => ?_) (by simpa using h)]
  · rfl
  · have ha : a.type = c.type := by simpa using ha
    simpa [ha] using h
  · have ha : a.type = c.type := by simpa using ha
    by_cases hs : a.status = c.status
    · simpa [hs, ha] using h
    · simpa [hs] using h

/-- A condition that has the status already is left as it is. -/
lemma setCondition_of_status {c : Condition} {cs : List Condition}
    (h : statusOf c.type cs = some c.status) : setCondition c cs = cs := by
  obtain ⟨a, ha, hs⟩ := Option.map_eq_some_iff.mp h
  exact upsertWith_of_find? ha (if_pos hs)

lemma withCondition_of_status {type : String} {status : ConditionStatus} {reason message : String}
    (h : statusOf type o.status.conditions = some status) :
    withCondition o type status reason message t = o := by
  have hset : setCondition ⟨type, status, reason, message, t, o.generation⟩ o.status.conditions =
      o.status.conditions := setCondition_of_status h
  unfold withCondition
  rw [hset]
  rfl

/-- The conditions are those of a reconcile that has succeeded. -/
structure Fine (o : AutoIndexer) : Prop where
  error : statusOf errorType o.status.conditions = some .false
  resource : statusOf resourceType o.status.conditions = some .true

lemma Fine.withResources (h : Fine o) (t : Time) : withResources o t = o := by
  unfold ControllerSpec.withResources
  rw [withCondition_of_status h.error, withCondition_of_status h.resource]

lemma Fine.settled (h : Fine o) (t : Time) : settled o t = o := by
  unfold ControllerSpec.settled
  rw [withCondition_of_status h.error, withCondition_of_status h.resource]

lemma fine_settled (o : AutoIndexer) (t : Time) : Fine (settled o t) where
  error := by
    have hne : resourceType ≠ errorType := by decide
    simp only [ControllerSpec.settled, withCondition, AutoIndexer.withStatus]
    rw [statusOf_setCondition_of_ne hne]
    exact statusOf_setCondition (by rfl) _
  resource := by
    simp only [ControllerSpec.settled, withCondition, AutoIndexer.withStatus]
    exact statusOf_setCondition (by rfl) _

/-! ### What a reconcile finds in order -/

/-- The object has its finalizer and no schedule, the objects generated for it are as wanted, and so
are its conditions. -/
structure Ready (o : AutoIndexer) (w : World) : Prop where
  finalizer : autoIndexerFinalizer ∈ o.finalizers
  owns : Owns o w
  schedule : o.spec.schedule = none
  fine : Fine o

/-- A call that is no write and whose answer is known. -/
lemma quietly_ask {α : Type} {Q : α → World → Prop} {c : Call} {k : Answer c → Go α}
    (hc : ¬ Writes c) (h : Quietly Q (k (serve w c).1) (serve w c).2) : Quietly Q (.ask c k) w := by
  rintro _ rfl
  refine ⟨hc, fun r w' hs => ?_⟩
  have hs := (serves_false ..).mp hs
  rw [← hs] at h
  exact h

lemma quietly_ret {α : Type} {Q : α → World → Prop} {a : α} (h : Q a w) :
    Quietly Q (.ret a : Go α) w := by
  rintro _ rfl
  exact h

lemma quietly_setAutoIndexerCondition_bind {α : Type} {Q : α → World → Prop} {type : String}
    {status : ConditionStatus} {reason message : String} {f : AutoIndexer → Go α}
    (h : Quietly Q (f (withCondition o type status reason message w.clock)) w) :
    Quietly Q (setAutoIndexerCondition o type status reason message >>= f) w :=
  quietly_ask (by simp [Writes]) h

lemma ensureChild_quietly {desired c : Child} {updated : Child → Option Child}
    (hc : (childrenAt w desired.kind desired.name).head? = some c) (hu : updated c = none) :
    Quietly (fun e w' => e = none ∧ w' = w) (ensureChild desired updated) w := by
  obtain ⟨others, hat⟩ := List.head?_eq_some_iff.mp hc
  simp only [ensureChild, ask_bind]
  refine quietly_ask (by simp [Writes]) ?_
  rw [serve_getChild, hat]
  simp only [hu]
  exact quietly_ret ⟨rfl, rfl⟩

/-- An object that is as wanted is left alone. -/
lemma ensureChild_settled {desired : Child} {updated : Child → Option Child}
    (hr : SharedAccounts.Repairs o desired updated)
    (hs : SharedAccounts.Settled o desired (childrenAt w desired.kind desired.name)) :
    Quietly (fun e w' => e = none ∧ w' = w) (ensureChild desired updated) w := by
  obtain ⟨c, hc, hwanted⟩ := hs
  exact ensureChild_quietly hc ((hr.idle_iff c).mpr hwanted)

lemma ensureRBACResources_quietly (h : Owns o w) :
    Quietly (fun e w' => e = none ∧ w' = w) (ensureRBACResources o) w := by
  refine (ensureChild_settled (repairs_account o) h.account).bind ?_
  rintro _ w1 ⟨rfl, rfl⟩
  refine (ensureChild_settled (repairs_generatedRole o) h.role).bind ?_
  rintro _ w2 ⟨rfl, rfl⟩
  refine (ensureChild_settled (repairs_generatedBinding o) h.binding).bind ?_
  rintro _ w3 ⟨rfl, rfl⟩
  exact quietly_ret ⟨rfl, rfl⟩

lemma ensureRequiredResources_quietly (h : Ready o w) (hrag : o.spec.ragEngine ∈ w.ragEngines) :
    Quietly (fun r w' => r = (o, none) ∧ w' = w) (ensureRequiredResources o) w := by
  have hvalidate : Quietly (fun e w' => e = none ∧ w' = w) (validateRAGEngineRef o) w := by
    refine quietly_ask (by simp [Writes]) ?_
    simp only [serve, hrag, if_true]
    exact quietly_ret ⟨rfl, rfl⟩
  refine hvalidate.bind ?_
  rintro _ w1 ⟨rfl, rfl⟩
  refine (ensureRBACResources_quietly h.owns).bind ?_
  rintro _ w2 ⟨rfl, rfl⟩
  rw [h.schedule]
  refine Sat.bind (Q := fun e w' => e = none ∧ w' = w2) (quietly_ret ⟨rfl, rfl⟩) ?_
  rintro _ _ ⟨rfl, rfl⟩
  refine quietly_setAutoIndexerCondition_bind (quietly_setAutoIndexerCondition_bind ?_)
  exact quietly_ret ⟨Prod.ext (h.fine.withResources _) rfl, rfl⟩

/-! ### Handlers at rest -/

/-- A reconcile goes on to the deletion of the index and no Job is in its way. -/
def Deletes (o : AutoIndexer) (w : World) : Prop := Removes o ∧ (scanJobs w.jobs).running = 0

lemma getJobStatus_quietly (w : World) :
    Quietly (fun r w' => r = .ok (scanJobs w.jobs) ∧ w' = w) getJobStatus w :=
  quietly_ask (by simp [Writes]) (quietly_ret ⟨rfl, rfl⟩)

lemma handleScheduledPhase_quietly (hp : o.status.indexingPhase = .scheduled)
    (hv : (situation o w.jobs).AtRest) :
    Quietly (fun r w' => r = (o, none) ∧ w' = w) (handleScheduledPhase o) w := by
  simp only [Situation.AtRest, situation, hp, Situation.suspended] at hv
  obtain ⟨hs, hb, hd⟩ := hv
  unfold handleScheduledPhase
  rw [if_neg (by simpa [Spec.suspended] using hs)]
  refine (getJobStatus_quietly w).bind ?_
  rintro _ _ ⟨rfl, rfl⟩
  dsimp only
  rw [if_neg (by simpa using hb)]
  split
  · rename_i hdrift
    rw [if_pos (hd hdrift)]
    exact quietly_ret ⟨rfl, rfl⟩
  · exact quietly_ret ⟨rfl, rfl⟩

lemma handleSuspendedPhase_quietly (hp : o.status.indexingPhase = .suspended)
    (hv : (situation o w.jobs).AtRest) :
    Quietly (fun r w' => r = (o, none) ∧ w' = w) (handleSuspendedPhase o) w := by
  simp only [Situation.AtRest, situation, hp, Situation.suspended] at hv
  have hs : o.spec.suspended = true := hv
  unfold handleSuspendedPhase
  rw [if_neg (not_not.mpr hs)]
  exact quietly_ret ⟨rfl, rfl⟩

lemma handleRunningPhase_quietly (hp : o.status.indexingPhase = .running)
    (hv : (situation o w.jobs).AtRest) :
    Quietly (fun r w' => r = (o, none) ∧ w' = w) (handleRunningPhase o) w := by
  simp only [Situation.AtRest, situation, hp] at hv
  refine (getJobStatus_quietly w).bind ?_
  rintro _ w ⟨rfl, rfl⟩
  dsimp only
  rcases hv with hb | ⟨hdone, hf⟩
  · have hb : (scanJobs w.jobs).running ≠ 0 := Nat.pos_iff_ne_zero.mp (of_decide_eq_true hb)
    rw [if_neg hb]
    exact quietly_ret ⟨rfl, rfl⟩
  · have hdone : ¬ 0 < (scanJobs w.jobs).completed := by simpa using hdone
    have hfailing : ¬ (0 < (scanJobs w.jobs).failed ∧ (scanJobs w.jobs).latestJobFailed = true ∧
        o.spec.schedule = none) := by
      rintro ⟨h1, h2, h3⟩
      have hsched := hf (by simp [h1, h2])
      rw [h3] at hsched
      cases hsched
    rw [if_neg hfailing, if_neg hdone]
    split
    · exact quietly_ret ⟨rfl, rfl⟩
    · exact quietly_ret ⟨rfl, rfl⟩

lemma handleDriftRemediationPhase_quietly (hp : o.status.indexingPhase = .driftRemediation)
    (hv : (situation o w.jobs).AtRest) (hd : ¬ Deletes o w) :
    Quietly (fun r w' => r = (o, none) ∧ w' = w) (handleDriftRemediationPhase o) w := by
  simp only [Situation.AtRest, situation, hp, Situation.suspended] at hv
  obtain ⟨hdetected, hpolicy, hs⟩ := hv
  unfold handleDriftRemediationPhase
  rw [if_neg hpolicy, if_neg (not_not.mpr hdetected)]
  split
  · exact quietly_ret ⟨rfl, rfl⟩
  · rename_i hauto
    have hauto : o.spec.driftRemediationPolicy = some .auto := by
      rcases hc : o.spec.driftRemediationPolicy with _ | _ | _ | _
      · exact absurd (.inl hc) hauto
      · rfl
      · exact absurd (.inr hc) hauto
      · exact absurd hc hpolicy
    have hs : o.spec.suspended = true := hs hauto
    rw [if_neg (not_not.mpr hs)]
    split
    · exact quietly_ret ⟨rfl, rfl⟩
    · rename_i hfresh
      have hbusy : 0 < (scanJobs w.jobs).running := by
        by_contra hidle
        exact hd ⟨⟨hp, hdetected, hauto, hs, by simpa using hfresh⟩, by omega⟩
      refine (getJobStatus_quietly w).bind ?_
      rintro _ _ ⟨rfl, rfl⟩
      dsimp only
      rw [if_pos hbusy]
      exact quietly_ret ⟨rfl, rfl⟩

lemma handlePhase_quietly (hv : (situation o w.jobs).AtRest) (hd : ¬ Deletes o w) :
    Quietly (fun r w' => r = (o, none) ∧ w' = w) (handlePhase o) w := by
  unfold handlePhase
  cases hp : o.status.indexingPhase with
  | unset => simp [Situation.AtRest, situation, hp] at hv
  | pending => simp [Situation.AtRest, situation, hp] at hv
  | scheduled => exact handleScheduledPhase_quietly hp hv
  | suspended => exact handleSuspendedPhase_quietly hp hv
  | running => exact handleRunningPhase_quietly hp hv
  | completed => exact quietly_ret ⟨rfl, rfl⟩
  | failed => exact quietly_ret ⟨rfl, rfl⟩
  | driftRemediation => exact handleDriftRemediationPhase_quietly hp hv hd

/-- A reconcile that finds everything in order makes no write. -/
lemma reconcile_quietly (h : Stands x v w o) (hv : v.AtRest) (hr : Ready o w) (hd : ¬ Deletes o w) :
    Quietly (fun e w' => e = none ∧ w' = w) reconcile w := by
  have hget : serve w .get = (.ok o, w) := by simp [serve, h.stored]
  refine quietly_ask (by simp [Writes]) ?_
  rw [hget]
  change Quietly _ (reconcileObject o) w
  unfold reconcileObject ensureFinalizer
  rw [if_neg (by simp [AutoIndexer.deleting, h.live]), if_pos hr.finalizer]
  refine (ensureRequiredResources_quietly hr h.engine).bind ?_
  rintro _ w ⟨rfl, rfl⟩
  refine (handlePhase_quietly (h.situation ▸ hv) hd).bind ?_
  rintro _ w ⟨rfl, rfl⟩
  refine quietly_setAutoIndexerCondition_bind (quietly_setAutoIndexerCondition_bind ?_)
  have hstatus : ¬ o.status ≠ (settled o w.clock).status := by
    rw [hr.fine.settled]
    exact not_not.mpr rfl
  change Quietly _ (patchAndReturn (settled o w.clock) o none) w
  unfold patchAndReturn
  rw [if_neg hstatus]
  exact quietly_ret ⟨rfl, rfl⟩

/-! ### What a reconcile puts in order -/

/-- The call leaves the finalizers alone. -/
def Spares : Call → Prop
  | .update _ => False
  | .patch original modified => modified.finalizers = original.finalizers
  | _ => True

lemma Spares.of_prepares {c : Call} (h : Prepares c) : Spares c := by
  cases c <;> first | exact h.elim | trivial

lemma Spares.of_plain {c : Call} (h : Plain c) : Spares c := by
  cases c <;> first | exact h.elim | trivial

lemma Spares.of_handles {c : Call} (h : Handles c) : Spares c := by
  cases c <;> first | exact h.elim | exact h.2 | trivial

lemma spares_patchAndReturn (m o : AutoIndexer) (e : Err) :
    Obeys Spares (fun _ => True) (patchAndReturn m o e) := by
  unfold patchAndReturn
  split
  · exact ⟨trivial, fun r => by cases r <;> trivial⟩
  · trivial

lemma spares_handlePhase (m : AutoIndexer) : Obeys Spares (fun _ => True) (handlePhase m) := by
  by_cases hm : m.status.indexingPhase = .pending ∧ m.spec.schedule = none
  · have hpending : handlePhase m = handlePendingPhase m := by
      unfold handlePhase
      rw [hm.1]
    rw [hpending]
    exact (plainly_handlePendingPhase m).mono (fun _ => .of_plain) fun _ _ => trivial
  · exact (handles_handlePhase hm).mono (fun _ => .of_handles) fun _ _ => trivial

lemma spares_syncAutoIndexer (o : AutoIndexer) : Obeys Spares (fun _ => True) (syncAutoIndexer o) := by
  refine ((prepares_ensureRequiredResources o).mono (fun _ => .of_prepares) fun _ h => h).bind ?_
  rintro ⟨m, e⟩ -
  cases e with
  | some e => exact spares_patchAndReturn _ _ _
  | none =>
    refine (spares_handlePhase m).bind ?_
    rintro ⟨m, e⟩ -
    cases e with
    | some e => exact ⟨trivial, fun _ => spares_patchAndReturn _ _ _⟩
    | none => exact ⟨trivial, fun _ => ⟨trivial, fun _ => spares_patchAndReturn _ _ _⟩⟩

lemma serves_of_false {c : Call} {r : Answer c} (h : Serves False w c r w') : Serves True w c r w' :=
  .inl ((serves_false ..).mp h)

lemma held_of_serves {c : Call} {r : Answer c} (hc : Spares c) (hw : Held w)
    (h : Serves False w c r w') : Held w' := by
  obtain ⟨o, ho, hf⟩ := hw
  rcases SystemSteps.stored_of_serves (serves_of_false h) with ⟨hs, -⟩ | ⟨o1, ho1, hwritten⟩
  · exact Finalizer.held_of_stored hs ⟨o, ho, hf⟩
  · obtain rfl : o = o1 := Option.some.inj (ho.symm.trans ho1)
    generalize hs : w'.stored = s at hwritten
    cases hwritten with
    | patch =>
      have hc : _ = _ := hc
      exact Finalizer.held_accept hs (by simpa [mergeMain, hc] using hf)
    | patchStatus => exact Finalizer.held_accept hs hf
    | update => exact hc.elim
    | remove => exact hc.elim

/-- The finalizer is there once a reconcile has begun to work. -/
lemma reconcile_held (h : Stands x v w o) : Runs (Serves False) (fun _ w' => Held w') reconcile w := by
  have hget : serve w .get = (.ok o, w) := by simp [serve, h.stored]
  have hensure : Runs (Serves False) (fun r w' => r.2 = none ∧ Held w') (ensureFinalizer o) w := by
    unfold ensureFinalizer
    split
    · rename_i hf
      exact ⟨rfl, o, h.stored, hf⟩
    · intro r w' hs
      have hs := (serves_false ..).mp hs
      simp only [serve, h.stored] at hs
      obtain ⟨rfl, rfl⟩ := Prod.mk.inj hs
      exact ⟨rfl, Finalizer.held_accept rfl (by simp [mergeMain])⟩
  intro r w1 hs
  rw [serves_false, hget] at hs
  obtain ⟨rfl, rfl⟩ := Prod.mk.inj hs
  change Runs _ _ (reconcileObject o) w1
  unfold reconcileObject
  rw [if_neg (by simp [AutoIndexer.deleting, h.live])]
  refine hensure.bind ?_
  rintro ⟨m, e⟩ w2 ⟨he, hheld⟩
  obtain rfl : e = none := he
  have hkeeps := (spares_syncAutoIndexer m).runs (S := Serves False) (J := Held)
    (fun _ _ _ _ hc hw hs => held_of_serves hc hw hs) hheld
  exact hkeeps.mono fun _ _ h => h.2

lemma owns_congr (h : Owns o w) (hc : ∀ kind name, kind ≠ .cronJob →
    childrenAt w' kind name = childrenAt w kind name) : Owns o w' := by
  obtain ⟨h1, h2, h3⟩ := h
  refine ⟨?_, ?_, ?_⟩
  · rwa [hc _ _ (by simp)]
  · rwa [hc _ _ (by simp)]
  · rwa [hc _ _ (by simp)]

lemma settled_of_uid (huid : s.uid = o.uid) {desired : Child} {l : List Child}
    (h : SharedAccounts.Settled o desired l) : SharedAccounts.Settled s desired l := by
  obtain ⟨c, hc, howner, hbody⟩ := h
  exact ⟨c, hc, huid ▸ howner, hbody⟩

/-- Two AutoIndexers that agree where the three objects are generated from want the same ones. -/
lemma owns_of_same (h : Owns o w) (hspec : s.spec = o.spec) (hname : s.name = o.name)
    (hns : s.namespace_ = o.namespace_) (huid : s.uid = o.uid) : Owns s w := by
  have haccount : generateServiceAccountName s = generateServiceAccountName o := by
    simp [generateServiceAccountName, azureIdentity, hspec, hname]
  have hrole : generateRoleName s = generateRoleName o := by simp [generateRoleName, hname]
  have hbinding : generateRoleBindingName s = generateRoleBindingName o := by
    simp [generateRoleBindingName, hname]
  refine ⟨settled_of_uid huid ?_, settled_of_uid huid ?_, settled_of_uid huid ?_⟩
  · have hsame : generateServiceAccountManifest s = generateServiceAccountManifest o := by
      simp [generateServiceAccountManifest, haccount, azureIdentity, resourceLabels, hspec, hname, hns,
        huid]
    rw [haccount, hsame]
    exact h.account
  · have hsame : generateRoleManifest s = generateRoleManifest o := by
      simp [generateRoleManifest, hrole, resourceLabels, hname, hns, huid]
    rw [hrole, hsame]
    exact h.role
  · have hsame : generateRoleBindingManifest s = generateRoleBindingManifest o := by
      simp [generateRoleBindingManifest, hbinding, haccount, hrole, resourceLabels, hname, hns, huid]
    rw [hbinding, hsame]
    exact h.binding

lemma resourceFailure_owns (o : AutoIndexer) (reason err message : String) (w : World) :
    Runs (Serves False) (fun r w' => r.2 = none → Owns o w')
      (resourceFailure o reason err message) w := by
  simp only [resourceFailure, runs_setAutoIndexerCondition_bind]
  exact nofun

lemma ensureRequiredResources_owns (o : AutoIndexer) (w : World) :
    Runs (Serves False) (fun r w' => r.2 = none → Owns o w') (ensureRequiredResources o) w := by
  refine (validateRAGEngineRef_runs o w).bind ?_
  rintro e w1 ⟨rfl, -⟩
  cases e with
  | some e => exact resourceFailure_owns _ _ _ _ _
  | none =>
    refine (ensureRBACResources_ensures o w1).bind ?_
    intro e w2 hensures
    cases e with
    | some e => exact resourceFailure_owns _ _ _ _ _
    | none =>
      refine Runs.bind (Q := fun _ w' => Owns o w') ?_ ?_
      · cases o.spec.schedule with
        | none => exact (hensures rfl).owns
        | some schedule =>
          intro image w3 h
          obtain ⟨rfl, rfl⟩ := Prod.mk.inj ((serves_false ..).mp h)
          refine (ensureChild_ensured (keeps_updatedCron _) _).mono fun _ w' h => ?_
          exact owns_congr (hensures rfl).owns fun _ _ hk => h.elsewhere _ _ fun he => hk he.1.symm
      · intro e w3 howns
        cases e with
        | some e => exact resourceFailure_owns _ _ _ _ _
        | none =>
          simp only [runs_setAutoIndexerCondition_bind]
          exact fun _ => howns

lemma syncAutoIndexer_owns (hrag : o.spec.ragEngine ∈ w.ragEngines) :
    Runs (Serves False) (fun _ w' => Owns o w') (syncAutoIndexer o) w := by
  refine ((ensureRequiredResources_runs o w).and (ensureRequiredResources_owns o w)).bind ?_
  rintro ⟨m, e⟩ w1 ⟨⟨-, -, he⟩, howns⟩
  obtain rfl : e = none := he not_false hrag
  refine Runs.mono (Sparing.children ?_ w1) fun _ w' hc =>
    owns_congr (howns rfl) fun kind name _ => childrenAt_congr hc kind name
  refine (sparing_handlePhase m).bind ?_
  rintro ⟨m, e⟩
  cases e with
  | some e =>
    exact (sparing_setAutoIndexerCondition _ _ _ _ _).bind fun _ => sparing_patchAndReturn _ _ _
  | none =>
    exact (sparing_setAutoIndexerCondition _ _ _ _ _).bind fun _ =>
      (sparing_setAutoIndexerCondition _ _ _ _ _).bind fun _ => sparing_patchAndReturn _ _ _

lemma reconcile_owns (h : Stands x v w o) :
    Runs (Serves False) (fun _ w' => Owns o w') reconcile w := by
  have hget : serve w .get = (.ok o, w) := by simp [serve, h.stored]
  intro r w1 hs
  rw [serves_false, hget] at hs
  obtain ⟨rfl, rfl⟩ := Prod.mk.inj hs
  change Runs _ _ (reconcileObject o) w1
  unfold reconcileObject
  rw [if_neg (by simp [AutoIndexer.deleting, h.live])]
  have hobject := (ensureFinalizer_object h.stored).anti fun _ _ _ _ => serves_of_false
  refine (hobject.and (ensureFinalizer_runs h.stored)).bind ?_
  rintro ⟨m, e⟩ w2 ⟨⟨-, -, hsame⟩, hruns, he⟩
  obtain rfl : e = none := he not_false
  obtain ⟨hspec, hname, hns, huid⟩ := hsame rfl
  obtain ⟨-, hw2⟩ := hruns rfl
  have hrag : m.spec.ragEngine ∈ w2.ragEngines := by
    rw [hspec, hw2]
    exact h.engine
  exact (syncAutoIndexer_owns hrag).mono fun _ _ howns =>
    owns_of_same howns hspec.symm hname.symm hns.symm huid.symm

/-- The conditions that the closing patch stores. -/
lemma reconcile_fine (h : Stands x v w o) :
    Runs (Serves False) (fun _ w' => ∀ s, w'.stored = some s → Fine s) reconcile w := by
  refine (reconcile_runs (R := fun _ _ _ => True) h.stored h.live ?_).mono ?_
  · rintro o1 w1 - ⟨cs, rfl⟩
    refine (handlePhase_turned (t := w.clock)
      (w := { w with stored := some o1, children := cs }) rfl).mono ?_
    rintro ⟨m, e⟩ w' ⟨he, s, hs, hstatus, hrv, -⟩
    exact ⟨fun _ => ⟨s, hs, hstatus, hrv, trivial⟩, fun _ => he⟩
  · rintro e w' ⟨hreconciled, he⟩ s hs
    obtain ⟨m, -, s', w1, -, hstatus, -, -, -, -, rfl⟩ := hreconciled (he not_false h.engine)
    obtain rfl : s' = s := Option.some.inj hs
    have hfine := fine_settled m w1.clock
    refine ⟨?_, ?_⟩
    · rw [hstatus]
      exact hfine.error
    · rw [hstatus]
      exact hfine.resource

/-- In a situation at rest everything is in order after a reconcile. -/
lemma ready_of_reconcile {e : Err} (h : Stands x v w o) (hx : x.spec.schedule = none) (hv : v.AtRest)
    (he : Ends (Serves False) reconcile w e w') : ∃ s, Stands x v w' s ∧ Ready s w' := by
  obtain ⟨rfl, s, hs⟩ := (reconcile_turns ⟨o, h⟩).ends he
  rw [(next_eq_iff v).mpr hv] at hs
  have hname : s.name = o.name := hs.name.trans h.name.symm
  have hns : s.namespace_ = o.namespace_ := hs.namespace_.trans h.namespace_.symm
  have hspec : s.spec = o.spec := by
    have hsuspend : s.spec.suspend = o.spec.suspend :=
      congrArg Situation.suspend (hs.situation.trans h.situation.symm)
    rw [hs.spec, h.spec, hsuspend]
  have huid : s.uid = o.uid := by
    have hsame := he.keeps (J := Same o.name o.uid)
      (fun _ _ _ _ hw hs => same_of_serves _ _ _ _ hw (serves_of_false hs))
      (fun o' ho' => by rw [h.stored] at ho'; cases ho'; exact ⟨rfl, rfl⟩)
    exact (hsame s hs.stored).2
  obtain ⟨s1, hs1, hfinalizer⟩ := (reconcile_held h).ends he
  obtain rfl : s = s1 := Option.some.inj (hs.stored.symm.trans hs1)
  refine ⟨s, hs, hfinalizer, ?_, ?_, (reconcile_fine h).ends he s hs.stored⟩
  · exact owns_of_same ((reconcile_owns h).ends he) hspec hname hns huid
  · rw [hs.spec]
    exact hx

/-! ### Reconciles in a row -/

lemma atRest_iterate (v : Situation) : (Situation.next^[4] v).AtRest := by
  rw [← next_eq_iff, ← Function.iterate_succ_apply' Situation.next, next_iterate v (by omega)]

lemma stands_of_clock (h : Stands x v w o) (t : Time) : Stands x v { w with clock := t } o :=
  ⟨h.stored, h.live, h.engine, h.situation, h.name, h.namespace_, h.spec⟩

/-- Everything is in order after five reconciles. -/
lemma ready_of_inARow {n : ℕ} (h : InARow n w w') (hw : InSituation x v w)
    (hx : x.spec.schedule = none) (hn : 5 ≤ n) :
    ∃ s, Stands x (Situation.next^[4] v) w' s ∧ Ready s w' := by
  cases h with
  | none => omega
  | @reconcile n _ w1 _ t e hrow hends =>
    obtain ⟨o, ho⟩ := inSituation_of_inARow hrow hw
    rw [next_iterate v (by omega)] at ho
    exact ready_of_reconcile (stands_of_clock ho t) hx (atRest_iterate v) hends

/-- A reconcile makes no write and leaves the world as it is, whenever it comes. -/
def Quiet (w : World) : Prop :=
  ∀ t, Quietly (fun _ w' => w' = { w with clock := t }) reconcile { w with clock := t }

lemma quiet_of_ready (h : Stands x v w o) (hv : v.AtRest) (hr : Ready o w) (hd : ¬ Deletes o w) :
    Quiet w := by
  intro t
  have hready : Ready o { w with clock := t } := ⟨hr.finalizer,
    ⟨hr.owns.account, hr.owns.role, hr.owns.binding⟩, hr.schedule, hr.fine⟩
  exact (reconcile_quietly (stands_of_clock h t) hv hready hd).mono (fun _ _ h => h) fun _ _ h => h.2

/-- Nothing but time passes. -/
lemma eq_of_quiet {n : ℕ} (hq : Quiet w) (h : InARow n w w') : ∃ t, w' = { w with clock := t } := by
  induction h with
  | none => exact ⟨_, rfl⟩
  | @reconcile n _ w1 w2 t e hrow hends ih =>
    obtain ⟨t', rfl⟩ := ih hq
    exact ⟨t, (Sat.runs (hq t)).ends hends⟩

/-! ### A remediation that goes on -/

/-- Some time is written otherwise. -/
lemma exists_format_ne (a : Option Stamp) : ∃ t, a ≠ some (Stamp.format t) := by
  cases a with
  | none => exact ⟨0, by simp⟩
  | some a =>
    cases a with
    | text s => exact ⟨0, by simp [Stamp.format]⟩
    | rfc3339 k => exact ⟨(k + 1) * 1000000, by simp [Stamp.format]⟩

/-- The annotations with the time of a remediation. -/
def remediatedAt (a : Annotations) (t : Time) : Annotations :=
  { a with lastDriftRemediated := some (Stamp.format t) }

/-- The stored object says that its drift was remediated at the time `t`. -/
def Stamped (a : Annotations) (t : Time) (_ s : AutoIndexer) (_ : World) : Prop :=
  s.annotations = remediatedAt a t

lemma finishRemediation_stamped (hw : w.stored = some o) : Runs (Serves False)
    (fun r w' => r.2 = none ∧ Handled o (Stamped o.annotations w.clock) r.1 w')
    (finishRemediation (withResources o t)) w := by
  simp only [finishRemediation, ask_bind, runs_ask, serves_now]
  rintro _ _ ⟨rfl, rfl⟩
  change Runs _ _ (updateAnnotations { resetStatus (withResources o t) with annotations :=
    { (resetStatus (withResources o t)).annotations with
      lastDriftRemediated := some (Stamp.format _) } } (resetStatus (withResources o t))) _
  unfold updateAnnotations
  have hannotations : (resetStatus (withResources o t)).annotations = o.annotations :=
    ControllerCalls.resetStatus_annotations _
  split
  · simp only [ask_bind, runs_ask, serves_false]
    intro r w1 h
    simp only [serve, hw] at h
    obtain ⟨rfl, rfl⟩ := Prod.mk.inj h
    refine ⟨rfl, _, rfl, by simp [mergeMain], .inr rfl, ?_⟩
    simp [Stamped, remediatedAt, mergeMain, mergeAnnotations, hannotations]
  · rename_i heq
    have heq := not_not.mp heq
    have hrv : (resetStatus (withResources o t)).resourceVersion = o.resourceVersion :=
      ControllerCalls.resetStatus_resourceVersion _
    rw [hannotations] at heq
    exact ⟨rfl, o, hw, rfl, .inl hrv.symm, heq⟩

lemma remediate_stamped (hw : w.stored = some o) (hidle : (scanJobs w.jobs).running = 0) :
    Runs (Serves False) (fun r w' => r.2 = none ∧ Handled o (Stamped o.annotations w.clock) r.1 w')
      (remediate (withResources o t)) w := by
  refine (getJobStatus_runs w).bind ?_
  rintro _ w1 ⟨rfl, -, hr⟩
  obtain rfl := hr not_false
  dsimp only
  rw [if_neg (by omega)]
  refine (listIndexes_runs _ _ w1).bind ?_
  rintro r w2 ⟨rfl, -, hr⟩
  obtain ⟨names, rfl⟩ := hr not_false
  dsimp only
  split
  · refine (deleteIndex_runs _ _ _ w2).bind ?_
    rintro e w3 ⟨-, hw3, he⟩
    obtain rfl := he not_false
    obtain rfl := hw3 rfl
    exact finishRemediation_stamped hw
  · exact finishRemediation_stamped hw

/-- A reconcile that goes on to the deletion writes down when it did. -/
lemma reconcile_stamped (h : Stands x v w o) (hd : Deletes o w) : Runs (Serves False)
    (fun _ w' => ∀ s, w'.stored = some s → s.annotations = remediatedAt o.annotations w.clock)
    reconcile w := by
  refine (reconcile_runs (R := Stamped o.annotations w.clock) h.stored h.live ?_).mono ?_
  · rintro o1 w1 ho1 ⟨cs, rfl⟩
    have hr : Removes (withResources o1 w.clock) :=
      removes_withResources.mpr ((Repairs.Removes.congr ho1.spec ho1.status ho1.annotations).mpr hd.1)
    rw [handlePhase_of_removes hr, ← ho1.annotations]
    refine (remediate_stamped (w := { w with stored := some o1, children := cs }) rfl hd.2).mono ?_
    rintro r w' ⟨he, hhandled⟩
    exact ⟨fun _ => hhandled, fun _ => he⟩
  · rintro e w' ⟨hreconciled, he⟩ s hs
    obtain ⟨m, s1, s2, w1, hstamped, -, -, hannotations, -, -, rfl⟩ :=
      hreconciled (he not_false h.engine)
    obtain rfl : s2 = s := Option.some.inj hs
    rw [hannotations]
    exact hstamped

lemma not_quiet_of_deletes (h : Stands x v w o) (hd : Deletes o w) : ¬ Quiet w := by
  intro hq
  obtain ⟨t, ht⟩ := exists_format_ne o.annotations.lastDriftRemediated
  have hends := Ends.exec reconcile { w with clock := t } (serves_serve False)
  have hsame := (Sat.runs (hq t)).ends hends
  have hstamped := (reconcile_stamped (stands_of_clock h t) hd).ends hends o
    ((congrArg World.stored hsame).trans h.stored)
  exact ht (congrArg Annotations.lastDriftRemediated hstamped)

lemma quiet_iff_of_ready (h : Stands x v w o) (hv : v.AtRest) (hr : Ready o w) :
    Quiet w ↔ ¬ Deletes o w :=
  ⟨fun hq hd => not_quiet_of_deletes h hd hq, quiet_of_ready h hv hr⟩

lemma driftRemediated_remediatedAt (a : Annotations) (t : Time) :
    driftRemediated (remediatedAt a t) = true ↔
      ∃ d, a.lastDriftDetected.bind Stamp.parse = some d ∧ d < t / 1000000 := by
  unfold driftRemediated remediatedAt
  cases hd : a.lastDriftDetected.bind Stamp.parse with
  | none => simp
  | some d => simp [Stamp.format, Stamp.parse]

/-- In the same situation only the two times may tell whether to delete. -/
lemma removes_of_situation {jobs jobs' : List Job} (hs : situation s jobs' = situation o jobs)
    (h : Removes o) (hfresh : driftRemediated s.annotations = false) : Removes s where
  phase := (congrArg Situation.phase hs).trans h.phase
  detected := (congrArg Situation.detected hs).trans h.detected
  policy := (congrArg Situation.policy hs).trans h.policy
  suspended := by
    have hsuspend : s.spec.suspend = o.spec.suspend := congrArg Situation.suspend hs
    rw [Spec.suspended, hsuspend]
    exact h.suspended
  fresh := hfresh

/-- With no schedule, nobody else at work and no call failing, no reconcile after the fifth one makes
a write or changes anything, however many there are and whenever they come, unless the AutoIndexer is
about to delete its index once more. -/
theorem quiet_iff {n : ℕ} (h : InARow n w w') (hw : InSituation x v w) (hx : x.spec.schedule = none)
    (hn : 5 ≤ n) (hs : w'.stored = some s) : (∀ k w'', InARow k w' w'' → Quiet w'') ↔ ¬ Deletes s w' := by
  obtain ⟨s1, hstands, hready⟩ := ready_of_inARow h hw hx hn
  obtain rfl : s = s1 := Option.some.inj (hs.symm.trans hstands.stored)
  have hiff := quiet_iff_of_ready hstands (atRest_iterate v) hready
  constructor
  · intro hquiet
    exact hiff.mp (hquiet 0 w' (.none w'))
  · intro hd k w'' hrow
    obtain ⟨t, rfl⟩ := eq_of_quiet (hiff.mpr hd) hrow
    exact hiff.mpr hd

theorem quiet_iff_remediated : ∃ s, (reconciled^[5] remediatedWorld).stored = some s ∧
    s.status.indexingPhase = .completed ∧
    ∀ k w'', InARow k (reconciled^[5] remediatedWorld) w'' → Quiet w'' := by
  have hw : InSituation remediated (situation remediated remediatedWorld.jobs) remediatedWorld :=
    ⟨remediated, rfl, rfl, by simp [remediatedWorld, demoWorld, remediated, demo], rfl, rfl, rfl, rfl⟩
  have hrow := inARow_iterate 5 remediatedWorld
  have hphase : (reconciled^[5] remediatedWorld).stored.map (·.status.indexingPhase) =
      some .completed := by
    decide +kernel
  obtain ⟨s, hs, hp⟩ := Option.map_eq_some_iff.mp hphase
  have hstays : ¬ Deletes s (reconciled^[5] remediatedWorld) := by
    rintro ⟨hremoves, -⟩
    rw [hremoves.phase] at hp
    cases hp
  exact ⟨s, hs, hp, (quiet_iff hrow hw rfl (by omega) hs).mpr hstays⟩

/-- With no schedule, the reconcile that deletes the index is the last one to write exactly when the
detector has left a readable time, in a second before that of the reconcile; otherwise the next one
goes through the remediation again. -/
theorem quiet_after_iff {n : ℕ} {w'' : World} {e : Err} (h : InARow n w w') (hw : InSituation x v w)
    (hx : x.spec.schedule = none) (hn : 5 ≤ n) (hs : w'.stored = some s) (hd : Deletes s w')
    (he : Ends (Serves False) reconcile { w' with clock := t } e w'') :
    Quiet w'' ↔ ∃ d, s.annotations.lastDriftDetected.bind Stamp.parse = some d ∧ d < t / 1000000 := by
  obtain ⟨s1, hstands, -⟩ := ready_of_inARow h hw hx hn
  obtain rfl : s = s1 := Option.some.inj (hs.symm.trans hstands.stored)
  have hstands := stands_of_clock hstands t
  obtain ⟨s', hstands', hready⟩ := ready_of_reconcile hstands hx (atRest_iterate v) he
  have hannotations := (reconcile_stamped hstands hd).ends he s' hstands'.stored
  rw [quiet_iff_of_ready hstands' (atRest_iterate v) hready, ← driftRemediated_remediatedAt,
    ← hannotations]
  have hsituation := hstands'.situation.trans hstands.situation.symm
  have hbusy : (scanJobs w''.jobs).running = 0 := by
    have hbusy := congrArg Situation.busy hsituation
    have hidle : (scanJobs w'.jobs).running = 0 := hd.2
    simpa [situation, hidle] using hbusy
  constructor
  · intro hnot
    by_contra hfresh
    exact hnot ⟨removes_of_situation hsituation hd.1 (by simpa using hfresh), hbusy⟩
  · intro hremediated hdeletes
    rw [hdeletes.1.fresh] at hremediated
    cases hremediated

/-- A drift that is being remediated, found six seconds after the clock of the cluster began; the
schedule has been taken away since. -/
def early : AutoIndexer :=
  { demo with
    annotations := ⟨some "true", some (.rfc3339 6), none⟩
    spec := { demo.spec with suspend := some true, driftRemediationPolicy := some .auto }
    status := { demo.status with indexingPhase := .driftRemediation } }

def earlyWorld : World := { demoWorld with stored := some early }

/-- Within the second in which the drift was found the remediation is not the last one, and in the
next one it is. -/
theorem quiet_after_iff_early :
    ¬ Quiet (reconciled { reconciled^[5] earlyWorld with clock := 6500000 }) ∧
      Quiet (reconciled { reconciled^[5] earlyWorld with clock := 7000000 }) := by
  have hw : InSituation early (situation early earlyWorld.jobs) earlyWorld :=
    ⟨early, rfl, rfl, by simp [earlyWorld, demoWorld, early, demo], rfl, rfl, rfl, rfl⟩
  have hrow := inARow_iterate 5 earlyWorld
  have hremoves : (reconciled^[5] earlyWorld).stored.map (fun s =>
      (decide (Removes s), s.annotations.lastDriftDetected.bind Stamp.parse)) = some (true, some 6) := by
    decide +kernel
  obtain ⟨s, hs, hr⟩ := Option.map_eq_some_iff.mp hremoves
  obtain ⟨hr, hfound⟩ := Prod.mk.inj hr
  have hidle : (scanJobs (reconciled^[5] earlyWorld).jobs).running = 0 := by decide +kernel
  have hdeletes : Deletes s (reconciled^[5] earlyWorld) := ⟨of_decide_eq_true hr, hidle⟩
  constructor
  · intro hquiet
    obtain ⟨d, hd, hlt⟩ := (quiet_after_iff (t := 6500000) hrow hw rfl (by omega) hs hdeletes
      (Ends.exec reconcile _ (serves_serve False))).mp hquiet
    rw [hfound] at hd
    obtain rfl := Option.some.inj hd
    exact absurd hlt (by decide)
  · exact (quiet_after_iff (t := 7000000) hrow hw rfl (by omega) hs hdeletes
      (Ends.exec reconcile _ (serves_serve False))).mpr ⟨6, hfound, by decide⟩

end KaitoAutoIndexer.Quiescence
