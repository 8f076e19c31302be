import KaitoAutoIndexer.ComingToRest
import KaitoAutoIndexer.Detector

/-!
What becomes of a drift under the strategy Auto: a check that finds it, reconciles, the next check,
and more reconciles, with nobody else at work. The index is deleted if three reconciles get in
between the two checks. If not, the second check calls the remediation off.
-/

namespace KaitoAutoIndexer.Repairs

open KaitoAutoIndexer.Lib KaitoAutoIndexer.Types
open KaitoAutoIndexer.Cluster KaitoAutoIndexer.Controller KaitoAutoIndexer.ControllerSpec
open KaitoAutoIndexer.Detector KaitoAutoIndexer.ComingToRest
open KaitoAutoIndexer.ControllerCalls (Plain Plainly plainly_handlePendingPhase
  plainly_handleScheduledPhase plainly_handleSuspendedPhase plainly_handleRunningPhase)

variable {o m s x : AutoIndexer} {w w' w1 w2 w3 w4 : World} {v : Situation}

def endpoint (o : AutoIndexer) : String := generateRAGEngineEndpoint o.spec.ragEngine o.namespace_

/-- The world without the index that the object names. -/
def withoutIndex (o : AutoIndexer) (w : World) : World := w.deleteIndex (endpoint o) o.spec.indexName

/-! ### A reconcile and the index -/

/-- A reconcile goes on to the deletion of the index. -/
structure Removes (o : AutoIndexer) : Prop where
  phase : o.status.indexingPhase = .driftRemediation
  detected : o.driftDetected = true
  policy : o.spec.driftRemediationPolicy = some .auto
  suspended : o.spec.suspended = true
  fresh : driftRemediated o.annotations = false

instance : Decidable (Removes o) :=
  decidable_of_iff (o.status.indexingPhase = .driftRemediation ∧ o.driftDetected = true ∧
      o.spec.driftRemediationPolicy = some .auto ∧ o.spec.suspended = true ∧
      driftRemediated o.annotations = false)
    ⟨fun ⟨h1, h2, h3, h4, h5⟩ => ⟨h1, h2, h3, h4, h5⟩, fun ⟨h1, h2, h3, h4, h5⟩ => ⟨h1, h2, h3, h4, h5⟩⟩

/-- The call deletes no index and leaves the annotations alone. -/
def Leaves : Call → Prop
  | .httpDeleteIndex _ _ | .update _ => False
  | .patch original modified => modified.annotations = original.annotations
  | _ => True

lemma Leaves.of_plain {c : Call} (h : Plain c) : Leaves c := by
  cases c <;> first | exact h.elim | trivial

lemma leaves_of_plainly {α : Type} {p : Go α} (h : Plainly p) : Obeys Leaves (fun _ => True) p :=
  h.mono (fun _ => .of_plain) fun _ h => h

lemma leaves_setSuspendedState (m : AutoIndexer) (suspend : Bool) :
    Obeys Leaves (fun _ => True) (setSuspendedState m suspend) := by
  unfold setSuspendedState
  dsimp only
  split
  · exact ⟨rfl, fun r => by cases r <;> trivial⟩
  · trivial

/-- Only a reconcile that goes on to the deletion touches the index or the annotations. -/
lemma leaves_handlePhase (h : ¬ Removes m) : Obeys Leaves (fun _ => True) (handlePhase m) := by
  unfold handlePhase
  cases hp : m.status.indexingPhase with
  | pending => exact leaves_of_plainly (plainly_handlePendingPhase m)
  | scheduled => exact leaves_of_plainly (plainly_handleScheduledPhase m)
  | suspended => exact leaves_of_plainly (plainly_handleSuspendedPhase m)
  | running => exact leaves_of_plainly (plainly_handleRunningPhase m)
  | completed => trivial
  | failed => trivial
  | unset => trivial
  | driftRemediation =>
    dsimp only
    unfold handleDriftRemediationPhase
    split
    · trivial
    · rename_i hi
      split
      · split
        · exact leaves_setSuspendedState m false
        · trivial
      · rename_i hd
        split
        · trivial
        · rename_i hpol
          split
          · exact leaves_setSuspendedState m true
          · rename_i hs
            split
            · trivial
            · rename_i hr
              refine absurd ⟨hp, not_not.mp hd, ?_, not_not.mp hs, by simpa using hr⟩ h
              rcases hc : m.spec.driftRemediationPolicy with _ | _ | _ | _
              · exact absurd (.inl hc) hpol
              · rfl
              · exact absurd (.inr hc) hpol
              · exact absurd hc hi

/-- The index and the annotations are as in `u` and `o`. -/
def Left (u : World) (o : AutoIndexer) (w : World) : Prop :=
  w.indexes = u.indexes ∧ ∃ s, w.stored = some s ∧ s.annotations = o.annotations

lemma left_of_serves {u : World} {c : Call} {r : Answer c} (hc : Leaves c) (hl : Left u o w)
    (h : Serves False w c r w') : Left u o w' := by
  obtain ⟨hindexes, s, hw, hann⟩ := hl
  have h : w' = (serve w c).2 := congrArg Prod.snd ((serves_false ..).mp h)
  have hread (hr : (serve w c).2 = w) : Left u o w' := by
    rw [h, hr]
    exact ⟨hindexes, s, hw, hann⟩
  cases c with
  | update => exact hc.elim
  | httpDeleteIndex => exact hc.elim
  | patch original modified =>
    have hc : modified.annotations = original.annotations := hc
    simp only [serve, hw] at h
    subst h
    exact ⟨hindexes, _, rfl, by simpa [mergeMain, mergeAnnotations, hc] using hann⟩
  | patchStatus original modified =>
    simp only [serve, hw] at h
    split at h
    · subst h
      exact ⟨hindexes, s, hw, hann⟩
    · subst h
      exact ⟨hindexes, _, rfl, by simpa [AutoIndexer.withStatus] using hann⟩
  | createJob name template =>
    subst h
    exact ⟨hindexes, s, hw, hann⟩
  | createChild child =>
    subst h
    exact ⟨hindexes, s, hw, hann⟩
  | updateChild child =>
    subst h
    exact ⟨hindexes, s, hw, hann⟩
  | get => exact hread (by simp [serve, hw])
  | getChild kind name => exact hread (by simp only [serve]; split <;> rfl)
  | getJob name => exact hread (by simp only [serve]; split <;> rfl)
  | httpGetDocumentCount e i a => exact hread (by simp only [serve]; split <;> rfl)
  | _ => exact hread rfl

/-- A patch of the annotations has nothing to do with the indexes. -/
lemma updateAnnotations_indexes (m existing : AutoIndexer) (w : World) :
    Runs (Serves False) (fun _ w' => w'.indexes = w.indexes) (updateAnnotations m existing) w := by
  unfold updateAnnotations
  split
  · simp only [ask_bind, runs_ask, serves_false]
    intro r w1 h
    have h : w1 = _ := congrArg Prod.snd h
    have hindexes : w1.indexes = w.indexes := by
      rw [h]
      simp only [serve]
      split <;> rfl
    cases r <;> exact hindexes
  · rfl

lemma finishRemediation_indexes (m : AutoIndexer) (w : World) :
    Runs (Serves False) (fun _ w' => w'.indexes = w.indexes) (finishRemediation m) w := by
  simp only [finishRemediation, ask_bind, runs_ask, serves_now]
  rintro t w1 ⟨rfl, rfl⟩
  exact updateAnnotations_indexes _ _ _

/-- No index is left where the object names it, unless a Job is active. -/
lemma remediate_removes (hidle : (scanJobs w.jobs).running = 0) : Runs (Serves False)
    (fun _ w' => w'.indexes = (withoutIndex m w).indexes) (remediate m) w := by
  refine (getJobStatus_runs w).bind ?_
  rintro _ w1 ⟨rfl, -, hr⟩
  obtain rfl := hr not_false
  dsimp only
  rw [if_neg (by omega)]
  refine (listIndexes_runs _ _ w1).bind ?_
  rintro r w2 ⟨rfl, hnames, hr⟩
  obtain ⟨names, rfl⟩ := hr not_false
  obtain rfl := hnames names rfl
  dsimp only
  split
  · refine (deleteIndex_runs _ _ _ w2).bind ?_
    rintro e w3 ⟨-, hdeleted, he⟩
    obtain rfl := he not_false
    obtain rfl := hdeleted rfl
    exact finishRemediation_indexes m _
  · rename_i hnone
    refine (finishRemediation_indexes m w2).mono fun _ w3 h => h.trans ?_
    symm
    refine List.filter_eq_self.mpr fun i hi => ?_
    by_contra hat
    obtain ⟨he, hn⟩ : i.endpoint = endpoint m ∧ i.name = m.spec.indexName := by
      simpa [Index.at] using hat
    refine hnone (List.any_eq_true.mpr ⟨i.name, ?_, by simp [hn, equalFold]⟩)
    refine List.mem_map.mpr ⟨i, List.mem_filter.mpr ⟨hi, ?_⟩, rfl⟩
    rw [he]
    exact beq_self_eq_true _

/-- What a handler makes of the index and the annotations. -/
structure Settled (o : AutoIndexer) (u : World) (s : AutoIndexer) (w : World) : Prop where
  left : ¬ Removes o → s.annotations = o.annotations ∧ w.indexes = u.indexes
  removed : Removes o → w.indexes = (withoutIndex o u).indexes

lemma removes_withResources {t : Time} : Removes (withResources o t) ↔ Removes o :=
  ⟨fun ⟨h1, h2, h3, h4, h5⟩ => ⟨h1, h2, h3, h4, h5⟩, fun ⟨h1, h2, h3, h4, h5⟩ => ⟨h1, h2, h3, h4, h5⟩⟩

lemma handlePhase_of_removes (h : Removes m) : handlePhase m = remediate m := by
  unfold handlePhase
  rw [h.phase]
  dsimp only
  unfold handleDriftRemediationPhase
  simp [h.policy, h.detected, h.suspended, h.fresh]

lemma handlePhase_settled {t : Time} (hw : w.stored = some o)
    (hidle : (scanJobs w.jobs).running = 0) : Runs (Serves False)
    (fun _ w' => ∀ s, w'.stored = some s → Settled o w s w') (handlePhase (withResources o t)) w := by
  by_cases hr : Removes o
  · rw [handlePhase_of_removes (removes_withResources.mpr hr)]
    exact (remediate_removes hidle).mono fun _ w' h s _ => ⟨fun hn => absurd hr hn, fun _ => h⟩
  · have hleaves := leaves_handlePhase (removes_withResources (t := t).not.mpr hr)
    refine (hleaves.runs (J := Left w o) (fun _ _ _ _ hc hs h => left_of_serves hc hs h)
      ⟨rfl, o, hw, rfl⟩).mono ?_
    rintro r w' ⟨-, hindexes, s', hs', hann⟩ s hs
    obtain rfl : s = s' := Option.some.inj (hs.symm.trans hs')
    exact ⟨fun _ => ⟨hann, hindexes⟩, fun h => absurd h hr⟩

lemma Removes.congr {o' : AutoIndexer} (hspec : o'.spec = o.spec) (hstatus : o'.status = o.status)
    (hann : o'.annotations = o.annotations) : Removes o' ↔ Removes o := by
  constructor
  · rintro ⟨h1, h2, h3, h4, h5⟩
    exact ⟨hstatus ▸ h1, by rwa [AutoIndexer.driftDetected, ← hann], hspec ▸ h3, hspec ▸ h4, hann ▸ h5⟩
  · rintro ⟨h1, h2, h3, h4, h5⟩
    exact ⟨hstatus ▸ h1, by rwa [AutoIndexer.driftDetected, hann], hspec ▸ h3, hspec ▸ h4, hann ▸ h5⟩

lemma reconcile_settled (h : Stands x v w o) (hidle : v.busy = false) : Runs (Serves False)
    (fun _ w' => ∃ s, Stands x v.next w' s ∧ Settled o w s w') reconcile w := by
  have hrunning : (scanJobs w.jobs).running = 0 := by
    rw [← h.situation] at hidle
    simpa [situation] using hidle
  refine ((reconcile_runs (R := fun _ s w' => Settled o w s w') h.stored h.live ?_).and
    (reconcile_turns ⟨o, h⟩)).mono ?_
  · rintro o1 w1 ho1 ⟨cs, rfl⟩
    have hhandled := (handlePhase_turned (t := w.clock)
      (w := { w with stored := some o1, children := cs }) rfl).and
      (handlePhase_settled (t := w.clock) (w := { w with stored := some o1, children := cs }) rfl hrunning)
    refine hhandled.mono ?_
    rintro ⟨m, e⟩ w' ⟨⟨he, s, hs, hstatus, hrv, -⟩, hsettled⟩
    have hcongr := Removes.congr ho1.spec ho1.status ho1.annotations
    refine ⟨fun _ => ⟨s, hs, hstatus, hrv, ?_, ?_⟩, fun _ => he⟩
    · intro hn
      rw [← ho1.annotations]
      exact (hsettled s hs).left (hcongr.not.mpr hn)
    · intro hr
      have hgone := (hsettled s hs).removed (hcongr.mpr hr)
      rw [withoutIndex, endpoint, ho1.spec, ho1.namespace_] at hgone
      exact hgone
  · rintro e w' ⟨⟨hreconciled, -⟩, hnone, s, hs⟩
    obtain ⟨m, s1, s2, w1, hsettled, -, -, hann, -, -, rfl⟩ := hreconciled hnone
    obtain rfl : s2 = s := Option.some.inj hs.stored
    refine ⟨s2, hs, fun hn => ?_, hsettled.removed⟩
    rw [hann]
    exact hsettled.left hn

/-! ### Reconciles in a row -/

lemma iterate_busy (v : Situation) (n : ℕ) : (Situation.next^[n] v).busy = v.busy := by
  induction n with
  | zero => rfl
  | succ n ih => rwa [Function.iterate_succ_apply']

/-- A drift is marked, and nothing is in the way of its remediation. -/
structure Marked (v : Situation) : Prop where
  phase : v.phase = .scheduled
  resumed : v.suspended = false
  detected : v.detected = true
  policy : v.policy = some .auto
  idle : v.busy = false

lemma next_of_marked (h : Marked v) : v.next = { v with phase := .driftRemediation } := by
  obtain ⟨hp, hs, hd, hpol, hb⟩ := h
  simp [Situation.next, Situation.turn, hp, hs, hd, hpol, hb]

lemma next_of_remediating (hp : v.phase = .driftRemediation) (hd : v.detected = true)
    (hpol : v.policy = some .auto) : v.next = { v with suspend := some true } := by
  by_cases hs : v.suspend = some true
  · simp [Situation.next, Situation.turn, Situation.suspended, hp, hd, hpol, hs]
  · simp [Situation.next, Situation.turn, Situation.suspended, hp, hd, hpol, hs]

/-- The phase is Drift Remediation from the first reconcile on, and `suspend` is set from the
second. -/
lemma iterate_of_marked (h : Marked v) (n : ℕ) : Situation.next^[n + 1] v =
    { v with phase := .driftRemediation, suspend := if n = 0 then v.suspend else some true } := by
  induction n with
  | zero => exact next_of_marked h
  | succ n ih =>
    rw [Function.iterate_succ_apply', ih]
    exact next_of_remediating rfl h.detected h.policy

lemma suspended_of_removes (h : Stands x v w o) (hr : Removes o) :
    v.phase = .driftRemediation ∧ v.suspended = true := by
  rw [← h.situation]
  refine ⟨hr.phase, ?_⟩
  simpa [Situation.suspended, situation, Spec.suspended] using hr.suspended

lemma withoutIndex_congr (h : Stands x v w o) (u : World) : withoutIndex o u = withoutIndex x u := by
  simp only [withoutIndex, endpoint, h.namespace_]
  rw [h.spec]

lemma withoutIndex_withoutIndex {u : World} (h : w.indexes = (withoutIndex o u).indexes) :
    (withoutIndex o w).indexes = w.indexes := by
  rw [h]
  simp only [withoutIndex, World.deleteIndex] at h ⊢
  rw [h, List.filter_filter]
  simp

/-- The third reconcile deletes the index. -/
lemma row_settled {n : ℕ} (hrow : InARow n w w') (h : Stands x v w o) (hv : Marked v)
    (hfresh : driftRemediated o.annotations = false) :
    ∃ s, Stands x (Situation.next^[n] v) w' s ∧ (n < 3 → s.annotations = o.annotations) ∧
      w'.indexes = if 3 ≤ n then (withoutIndex x w).indexes else w.indexes := by
  induction hrow with
  | none => exact ⟨o, h, fun _ => rfl, rfl⟩
  | @reconcile n u w1 w2 t e hrow hends ih =>
    obtain ⟨s, hs, hann, hindexes⟩ := ih h
    have hidle : (Situation.next^[n] v).busy = false := (iterate_busy v n).trans hv.idle
    obtain ⟨hw, hd, hrag, hsit, hname, hns, hx⟩ := hs
    have hs : Stands x (Situation.next^[n] v) { w1 with clock := t } s :=
      ⟨hw, hd, hrag, hsit, hname, hns, hx⟩
    obtain ⟨s', hs', hsettled⟩ := (reconcile_settled hs hidle).ends hends
    rw [Function.iterate_succ_apply']
    rcases Nat.lt_trichotomy n 2 with hn | rfl | hn
    · have hnot : ¬ Removes s := by
        intro hr
        obtain ⟨hp, hsus⟩ := suspended_of_removes hs hr
        obtain rfl | rfl : n = 0 ∨ n = 1 := by omega
        · rw [Function.iterate_zero_apply, hv.phase] at hp
          cases hp
        · rw [iterate_of_marked hv 0] at hsus
          exact absurd hsus (by simpa [Situation.suspended] using hv.resumed)
      obtain ⟨hann', hindexes'⟩ := hsettled.left hnot
      rw [if_neg (by omega)] at hindexes ⊢
      exact ⟨s', hs', fun _ => hann'.trans (hann (by omega)), hindexes'.trans hindexes⟩
    · have hremoves : Removes s := by
        have hsit' := iterate_of_marked hv 1
        rw [← hsit] at hsit'
        have hphase := congrArg Situation.phase hsit'
        have hsuspend : s.spec.suspend = some true := congrArg Situation.suspend hsit'
        refine ⟨hphase, ?_, ?_, by simp [Spec.suspended, hsuspend], ?_⟩
        · exact (congrArg Situation.detected hsit').trans hv.detected
        · exact (congrArg Situation.policy hsit').trans hv.policy
        · rw [hann (by omega), hfresh]
      have hgone := hsettled.removed hremoves
      rw [withoutIndex_congr hs] at hgone
      rw [if_neg (by omega)] at hindexes
      refine ⟨s', hs', fun hn => absurd hn (by omega), ?_⟩
      rw [if_pos (by omega), hgone]
      simp only [withoutIndex, World.deleteIndex, hindexes]
    · rw [if_pos (by omega)] at hindexes ⊢
      refine ⟨s', hs', fun hn => absurd hn (by omega), ?_⟩
      by_cases hr : Removes s
      · rw [hsettled.removed hr, withoutIndex_congr hs]
        exact (withoutIndex_withoutIndex hindexes).trans hindexes
      · exact (hsettled.left hr).2.trans hindexes

/-! ### A check -/

/-- The detector writes the annotations. -/
lemma marks {a : Annotations} {r : Except ApiError Unit} (h : Stands x v w o)
    (hr : Serves False w (.update { o with annotations := a }) r w') :
    ∃ s, Stands x { v with detected := a.driftDetected == some "true" } w' s ∧ s.annotations = a ∧
      w'.indexes = w.indexes := by
  obtain ⟨hw, hd, hrag, hv, hname, hns, hx⟩ := h
  have hlive : o.deletionTimestamp.isSome = false := by simp [hd]
  have hr := (serves_false ..).mp hr
  simp only [serve, hw, AutoIndexer.deleting, hlive, ne_eq, not_true_eq_false, if_false,
    Bool.false_eq_true, false_and] at hr
  obtain ⟨rfl, rfl⟩ := Prod.mk.inj hr
  refine ⟨_, ⟨rfl, ?_, ?_, ?_, ?_, ?_, ?_⟩, ?_, rfl⟩
  · simpa using hd
  · simpa using hrag
  · rw [← hv]
    simp [situation, AutoIndexer.driftDetected]
  · simpa using hname
  · simpa using hns
  · simpa using hx
  · simp

lemma checks_one {Q : Unit → World → Prop} (hw : w.stored = some o)
    (h : Runs (Serves False) Q (checkAndMark o) w) : Runs (Serves False) Q performDriftCheck w := by
  simp only [performDriftCheck, ask_bind, runs_ask, serves_false]
  intro r w1 hr
  simp only [serve, hw] at hr
  obtain ⟨rfl, rfl⟩ := Prod.mk.inj hr
  change Runs _ _ (checkAndMark o >>= fun _ => pure ()) w1
  exact h.bind fun _ _ h => h

lemma checkAutoIndexerDrift_unstable (hp : o.status.indexingPhase ≠ .scheduled) :
    checkAutoIndexerDrift o = pure ⟨false, int32 o.status.numOfDocumentInIndex, 0, none⟩ := by
  have hunstable : isAutoIndexerInStableState o = false := by
    unfold isAutoIndexerInStableState
    split <;> first | rfl | contradiction
  unfold checkAutoIndexerDrift
  simp [hunstable]

/-- A check does not count outside of the phase Scheduled, and takes a mark away. -/
lemma check_unmarks (h : Stands x v w o) (hp : v.phase ≠ .scheduled) (hd : v.detected = true) :
    Runs (Serves False) (fun _ w' => ∃ s, Stands x { v with detected := false } w' s ∧
      w'.indexes = w.indexes) performDriftCheck w := by
  refine checks_one h.stored ?_
  have hp : o.status.indexingPhase ≠ .scheduled := by rwa [← h.situation] at hp
  have hmarked : o.annotations.driftDetected = some "true" := by
    rw [← h.situation] at hd
    simpa [situation, AutoIndexer.driftDetected] using hd
  unfold checkAndMark
  rw [checkAutoIndexerDrift_unstable hp]
  change Runs _ _ (setDriftRemediated o >>= fun _ => pure ()) w
  unfold setDriftRemediated
  rw [if_neg (by simp [hmarked])]
  intro r w1 hr
  obtain ⟨s, hs, -, hindexes⟩ := marks h hr
  exact ⟨s, hs, hindexes⟩

/-- The documents of an object that its index holds. -/
def held (o : AutoIndexer) (w : World) : ℕ :=
  ((w.store (endpoint o) o.spec.indexName).filter (·.doc.owner == some o.tag)).length

/-- The index is there, and holds another number of documents than the status says, in the 32 bits
that the detector compares. -/
structure Drifted (o : AutoIndexer) (w : World) : Prop where
  index : w.indexes.any (Index.at (endpoint o) o.spec.indexName) = true
  counted : o.status.numOfDocumentInIndex ≠ 0
  drift : int32 o.status.numOfDocumentInIndex ≠ int32 (held o w)

lemma getDocumentCount_runs (h : w.indexes.any (Index.at (endpoint o) o.spec.indexName) = true) :
    Runs (Serves False) (fun r w' => r = .ok (int32 (held o w)) ∧ w' = w)
      (getDocumentCount o.spec.ragEngine o.spec.indexName o.name o.namespace_) w := by
  unfold getDocumentCount
  refine Runs.bind (Q := fun r w' => r = .ok (held o w) ∧ w' = w) ?_ ?_
  · simp only [maxRetries, retry, ask_bind, runs_ask, serves_false]
    intro r w1 hr
    rw [endpoint] at h
    simp only [serve, h, if_true] at hr
    obtain ⟨rfl, rfl⟩ := Prod.mk.inj hr
    exact ⟨rfl, rfl⟩
  · rintro r w1 ⟨rfl, rfl⟩
    exact ⟨rfl, rfl⟩

/-- A check that finds a drift marks it. -/
lemma check_marks (h : Stands x v w o) (hp : v.phase = .scheduled) (hs : v.suspended = false)
    (hpol : v.policy ≠ some .ignore) (hdrift : Drifted o w) :
    Runs (Serves False) (fun _ w' => ∃ s, Stands x { v with detected := true } w' s ∧
      s.annotations = { o.annotations with
        driftDetected := some "true", lastDriftDetected := some (Stamp.format w.clock) } ∧
      w'.indexes = w.indexes) performDriftCheck w := by
  refine checks_one h.stored ?_
  have hp : o.status.indexingPhase = .scheduled := by rwa [← h.situation] at hp
  have hpol : o.spec.driftRemediationPolicy ≠ some .ignore := by rwa [← h.situation] at hpol
  have hs : o.spec.suspended = false := by
    rw [← h.situation] at hs
    simpa [situation, Situation.suspended, Spec.suspended] using hs
  unfold checkAndMark checkAutoIndexerDrift
  simp only [hpol, hs, isAutoIndexerInStableState, hp, hdrift.counted, if_false, not_true_eq_false,
    Bool.false_eq_true]
  refine Runs.bind (Q := fun result w' => result.driftDetected = true ∧ w' = w) ?_ ?_
  · refine (getDocumentCount_runs hdrift.index).bind ?_
    rintro r w1 ⟨rfl, rfl⟩
    exact ⟨by simpa using hdrift.drift, rfl⟩
  · rintro result w1 ⟨hresult, rfl⟩
    rw [if_pos hresult]
    intro t w2 ht
    obtain ⟨rfl, rfl⟩ := serves_now.mp ht
    intro r w3 hr
    obtain ⟨s, hs', hann, hindexes⟩ := marks h hr
    exact ⟨s, hs', hann, hindexes⟩

/-! ### From one check to the next -/

lemma iterate_detected (v : Situation) (n : ℕ) : (Situation.next^[n] v).detected = v.detected := by
  induction n with
  | zero => rfl
  | succ n ih => rwa [Function.iterate_succ_apply']

/-- Without a mark no reconcile deletes the index. -/
lemma row_leaves {n : ℕ} (hrow : InARow n w w') (h : Stands x v w o) (hd : v.detected = false)
    (hb : v.busy = false) : (∃ s, Stands x (Situation.next^[n] v) w' s) ∧ w'.indexes = w.indexes := by
  induction hrow with
  | none => exact ⟨⟨o, h⟩, rfl⟩
  | @reconcile n u w1 w2 t e hrow hends ih =>
    obtain ⟨⟨s, hw, hdel, hrag, hsit, hname, hns, hx⟩, hindexes⟩ := ih h
    have hs : Stands x (Situation.next^[n] v) { w1 with clock := t } s :=
      ⟨hw, hdel, hrag, hsit, hname, hns, hx⟩
    have hidle : (Situation.next^[n] v).busy = false := (iterate_busy v n).trans hb
    have hnot : ¬ Removes s := by
      intro hr
      have hdetected := (congrArg Situation.detected hsit).trans ((iterate_detected v n).trans hd)
      exact Bool.false_ne_true (hdetected.symm.trans hr.detected)
    obtain ⟨s', hs', hsettled⟩ := (reconcile_settled hs hidle).ends hends
    rw [Function.iterate_succ_apply']
    exact ⟨⟨s', hs'⟩, (hsettled.left hnot).2.trans hindexes⟩

/-- Drift Remediation is left when the mark is gone, and `suspend` is taken back before. -/
lemma iterate_of_unmarked {n : ℕ} (hp : v.phase = .driftRemediation) (hd : v.detected = false)
    (hpol : v.policy = some .auto) (hc : v.scheduled = true) (hb : v.busy = false) (hn : 3 ≤ n) :
    Situation.next^[n] v = { v with
      phase := .scheduled, suspend := if v.suspended then some false else v.suspend } := by
  induction n, hn using Nat.le_induction with
  | base =>
    by_cases hs : v.suspend = some true
    · simp [Situation.next, Situation.turn, Situation.suspended, hp, hd, hpol, hc, hs]
    · simp [Situation.next, Situation.turn, Situation.suspended, hp, hd, hpol, hc, hs, hb]
  | succ n hn ih =>
    rw [Function.iterate_succ_apply', ih]
    by_cases hs : v.suspend = some true
    · simp [Situation.next, Situation.turn, Situation.suspended, hd, hs, hb]
    · simp [Situation.next, Situation.turn, Situation.suspended, hd, hs, hb]

/-- What the reconciles before and after the second check make of a situation. -/
lemma iterate_checked {i k : ℕ} (h : Marked v) (hc : v.scheduled = true) (hk : 3 ≤ k) :
    Situation.next^[k] { Situation.next^[i + 1] v with detected := false } =
      { v with detected := false, suspend := if i = 0 then v.suspend else some false } := by
  have hs : v.suspend ≠ some true := by simpa [Situation.suspended] using h.resumed
  rw [iterate_of_marked h i]
  refine Eq.trans (iterate_of_unmarked rfl rfl ?_ hc h.idle hk) ?_
  · exact h.policy
  by_cases hi : i = 0
  · simp [Situation.suspended, hi, hs, h.phase]
  · simp [Situation.suspended, hi, h.phase]

/-- A drift is there to be found and remediated: the AutoIndexer is scheduled, with the strategy
Auto, none of its Jobs is active, and no remediation is dated after `w`. -/
structure Repairable (o : AutoIndexer) (w : World) : Prop where
  stored : w.stored = some o
  live : o.deletionTimestamp = none
  engine : o.spec.ragEngine ∈ w.ragEngines
  phase : o.status.indexingPhase = .scheduled
  schedule : o.spec.schedule.isSome = true
  policy : o.spec.driftRemediationPolicy = some .auto
  resumed : o.spec.suspended = false
  idle : (scanJobs w.jobs).running = 0
  drifted : Drifted o w
  past : ∀ second, o.annotations.lastDriftRemediated.bind Stamp.parse = some second →
    second ≤ w.clock / 1000000

/-- A drift that a check has found is dated after the remediations so far. -/
lemma driftRemediated_marked (h : Repairable o w) : driftRemediated { o.annotations with
    driftDetected := some "true", lastDriftDetected := some (Stamp.format w.clock) } = false := by
  unfold driftRemediated
  dsimp only
  split
  · rename_i tDetect tRemediate hdetect hremediate
    obtain rfl : w.clock / 1000000 = tDetect := Option.some.inj hdetect
    have hle := h.past tRemediate hremediate
    simpa using hle
  · rfl

/-- A drift is remediated by the time of the next check if and only if three reconciles come before
that check. If it is not, no index is deleted. Either way the AutoIndexer is back in the phase
Scheduled after three more reconciles, as it was before but for `suspend`, which is `false` then
where it was absent, unless there was one reconcile only. -/
theorem repaired_iff {n k : ℕ} {t : Time} {a b : Unit} (h : Repairable o w)
    (hcheck : Ends (Serves False) performDriftCheck w a w1) (hrow : InARow n w1 w2) (hn : 1 ≤ n)
    (hcheck' : Ends (Serves False) performDriftCheck { w2 with clock := t } b w3)
    (hrow' : InARow k w3 w4) (hk : 3 ≤ k) :
    w4.indexes = (if 3 ≤ n then (withoutIndex o w).indexes else w.indexes) ∧
      ∃ s, Stands o { situation o w.jobs with
        detected := false, suspend := if n = 1 then o.spec.suspend else some false } w4 s := by
  have hresumed : (situation o w.jobs).suspended = false := by
    simpa [situation, Situation.suspended, Spec.suspended] using h.resumed
  have hidle : (situation o w.jobs).busy = false := by simp [situation, h.idle]
  have hstands : Stands o (situation o w.jobs) w o :=
    ⟨h.stored, h.live, h.engine, rfl, rfl, rfl, rfl⟩
  have hpolicy : (situation o w.jobs).policy ≠ some .ignore := by simp [situation, h.policy]
  obtain ⟨o1, h1, hann1, hindexes1⟩ :=
    (check_marks hstands h.phase hresumed hpolicy h.drifted).ends hcheck
  have hmarked : Marked { situation o w.jobs with detected := true } :=
    ⟨h.phase, hresumed, rfl, h.policy, hidle⟩
  have hfresh : driftRemediated o1.annotations = false := by
    rw [hann1]
    exact driftRemediated_marked h
  obtain ⟨o2, ⟨hw, hd, hrag, hsit, hname, hns, hx⟩, -, hindexes2⟩ :=
    row_settled hrow h1 hmarked hfresh
  obtain ⟨i, rfl⟩ : ∃ i, n = i + 1 := ⟨n - 1, by omega⟩
  have hremediating := iterate_of_marked hmarked i
  obtain ⟨o3, h3, hindexes3⟩ := (check_unmarks (w := { w2 with clock := t })
    ⟨hw, hd, hrag, hsit, hname, hns, hx⟩ (by simp [hremediating]) (by simp [hremediating])).ends hcheck'
  have hidle3 := (iterate_busy { situation o w.jobs with detected := true } (i + 1)).trans hidle
  obtain ⟨⟨o4, h4⟩, hindexes4⟩ := row_leaves hrow' h3 rfl hidle3
  rw [iterate_checked hmarked h.schedule hk] at h4
  have hindexes : w4.indexes = w2.indexes := hindexes4.trans hindexes3
  refine ⟨?_, o4, ?_⟩
  · rw [hindexes, hindexes2]
    simp only [withoutIndex, World.deleteIndex, hindexes1]
  · simpa [situation] using h4

/-- A scheduled AutoIndexer whose documents are gone. -/
def emptied : AutoIndexer :=
  { demo with
    spec := { demo.spec with schedule := some "@daily", driftRemediationPolicy := some .auto }
    status := { demo.status with indexingPhase := .scheduled, numOfDocumentInIndex := 3 } }

def emptiedWorld : World :=
  { demoWorld with stored := some emptied, indexes := [⟨endpoint emptied, "index", []⟩] }

/-- The world after a check in which nothing goes wrong. -/
def checked (w : World) : World := (performDriftCheck.exec serve w).2

lemma ends_checked (w : World) : Ends (Serves False) performDriftCheck w () (checked w) :=
  Ends.exec performDriftCheck w (serves_serve False)

lemma repairable_emptied : Repairable emptied emptiedWorld where
  stored := rfl
  live := rfl
  engine := by simp [emptied, emptiedWorld, demo, demoWorld]
  phase := rfl
  schedule := rfl
  policy := rfl
  resumed := rfl
  idle := rfl
  drifted := by
    have hheld : held emptied emptiedWorld = 0 := by
      simp [held, World.store, emptiedWorld, Index.at, emptied, demo]
    refine ⟨by simp [emptiedWorld, Index.at, emptied, demo], by decide, ?_⟩
    rw [hheld]
    decide
  past := by simp [emptied, demo]

/-- The world of `emptied` after a check, `n` reconciles, a check and three more reconciles. -/
def emptiedAfter (n : ℕ) : World := reconciled^[3] (checked (reconciled^[n] (checked emptiedWorld)))

theorem repaired_emptied :
    ((emptiedAfter 3).indexes = if 3 ≤ 3 then (withoutIndex emptied emptiedWorld).indexes
      else emptiedWorld.indexes) ∧
      ∃ s, Stands emptied { situation emptied emptiedWorld.jobs with
        detected := false, suspend := if 3 = 1 then none else some false } (emptiedAfter 3) s :=
  repaired_iff repairable_emptied (ends_checked _) (inARow_iterate 3 _) (by omega)
    (ends_checked _) (inARow_iterate 3 _) (by omega)

end KaitoAutoIndexer.Repairs
