import KaitoAutoIndexer.ControllerSpec
import KaitoAutoIndexer.SystemSteps

/-!
What a reconcile that fails leaves for the next one.
-/

namespace KaitoAutoIndexer.Retries

open KaitoAutoIndexer.Lib KaitoAutoIndexer.Types KaitoAutoIndexer.Conditions
open KaitoAutoIndexer.Cluster KaitoAutoIndexer.Controller
open KaitoAutoIndexer.ControllerSpec KaitoAutoIndexer.ControllerCalls
open KaitoAutoIndexer.SystemSteps (stored_of_serves)

/-- Which of the calls failed so far. -/
structure Heard where
  /-- The Job could not be looked up, or not be created. -/
  jobFailed : Bool
  /-- A patch of the status was accepted. -/
  patched : Bool

def hear (n : Heard) : (c : Call) → Answer c → Heard
  | .getJob _, .error .notFound => n
  | .getJob _, .error _ => { n with jobFailed := true }
  | .createJob _ _, .error _ => { n with jobFailed := true }
  | .patchStatus _ _, .ok _ => { n with patched := true }
  | _, _ => n

/-- The services of the cluster, any of which may fail, with the failures noted. -/
abbrev Fallible : Service (World × Heard) Call Answer := noted (Serves True) hear

/-- The stored object is in the phase of `o`, and has its name and its schedule. -/
def Kept (o : AutoIndexer) (w : World) : Prop :=
  ∃ s, w.stored = some s ∧ s.status.indexingPhase = o.status.indexingPhase ∧ s.name = o.name ∧
    s.deletionTimestamp = o.deletionTimestamp ∧ s.spec.schedule = o.spec.schedule

variable {o m : AutoIndexer} {w w' : World} {x y : World × Heard}

lemma kept_of_stored (hw : w.stored = some o) : Kept o w := ⟨o, hw, rfl, rfl, rfl, rfl⟩

lemma Kept.congr (hk : Kept o w) (h : w'.stored = w.stored) : Kept o w' := by
  obtain ⟨s, hs, hrest⟩ := hk
  exact ⟨s, h.trans hs, hrest⟩

/-! ### What keeps the phase -/

/-- The call leaves the phase and the schedule alone, and is no patch of the status. -/
def Keeps : Call → Prop
  | .patchStatus _ _ | .update _ => False
  | .patch original modified => original.spec.schedule = modified.spec.schedule
  | _ => True

lemma Keeps.of_prepares {c : Call} (h : Prepares c) : Keeps c := by
  cases c <;> first | exact h.elim | trivial

lemma kept_of_serves {c : Call} {r : Answer c} (h : Serves True w c r w') (hc : Keeps c)
    (hk : Kept o w) : Kept o w' := by
  rcases stored_of_serves h with ⟨hs, -⟩ | ⟨s, hs, hw⟩
  · exact hk.congr hs
  · obtain ⟨s', hs', hphase, hname, hdel, hsched⟩ := hk
    obtain rfl : s = s' := Option.some.inj (hs.symm.trans hs')
    generalize hv : w'.stored = v at hw
    cases hw with
    | patch =>
      have hc : _ = _ := hc
      exact ⟨_, hv, by simpa [mergeMain] using hphase, by simpa [mergeMain] using hname,
        by simpa [mergeMain] using hdel, by simpa [mergeMain, mergeSpec, hc] using hsched⟩
    | patchStatus => exact hc.elim
    | update => exact hc.elim
    | remove => exact hc.elim

lemma hear_patched {c : Call} (hc : Keeps c) (n : Heard) (r : Answer c) :
    (hear n c r).patched = n.patched := by
  cases c <;> first | exact hc.elim | rfl | skip
  · rcases r with (_ | _ | _) | _ <;> rfl
  · rcases r with _ | _ <;> rfl

lemma hear_of_prepares {c : Call} (hc : Prepares c) (n : Heard) (r : Answer c) : hear n c r = n := by
  cases c <;> first | exact hc.elim | rfl

/-- A program whose calls keep the phase. -/
lemma runs_of_keeps {α : Type} {P : α → Prop} {p : Go α} (h : Obeys Keeps P p) (hx : Kept o x.1) :
    Runs Fallible (fun a y => P a ∧ Kept o y.1 ∧ y.2.patched = x.2.patched) p x := by
  refine h.runs (J := fun y : World × Heard => Kept o y.1 ∧ y.2.patched = x.2.patched) ?_ ⟨hx, rfl⟩
  rintro y c r z hc ⟨hk, hp⟩ ⟨hs, hn⟩
  exact ⟨kept_of_serves hs hc hk, by rw [hn, hear_patched hc, hp]⟩

lemma runs_of_prepares {α : Type} {P : α → Prop} {p : Go α} (h : Obeys Prepares P p)
    (hx : Kept o x.1) : Runs Fallible (fun a y => P a ∧ Kept o y.1 ∧ y.2 = x.2) p x := by
  refine h.runs (J := fun y : World × Heard => Kept o y.1 ∧ y.2 = x.2) ?_ ⟨hx, rfl⟩
  rintro y c r z hc ⟨hk, hp⟩ ⟨hs, hn⟩
  exact ⟨kept_of_serves hs (.of_prepares hc) hk, by rw [hn, hear_of_prepares hc, hp]⟩

/-! ### Phases -/

/-- The call is one that a handler makes for a phase other than Pending. -/
def Handles : Call → Prop
  | .get | .patchStatus _ _ | .update _ | .createJob _ _ => False
  | .patch original modified =>
    original.spec.schedule = modified.spec.schedule ∧ modified.finalizers = original.finalizers
  | _ => True

lemma Keeps.of_handles {c : Call} (h : Handles c) : Keeps c := by
  cases c <;> first | exact h.elim | exact h.1 | trivial

/-- If it fails, the phase in memory is the one that was handled. -/
def SamePhase (m : AutoIndexer) (r : AutoIndexer × Err) : Prop :=
  r.2 ≠ none → r.1.status.indexingPhase = m.status.indexingPhase

lemma handles_ask {c : Call} (hc : Handles c) : Obeys Handles (fun _ => True) (ask c) :=
  ⟨hc, fun _ => trivial⟩

lemma handles_getJobStatus : Obeys Handles (fun _ => True) getJobStatus :=
  (handles_ask (by trivial)).bind fun r _ => by cases r <;> trivial

lemma handles_listIndexes (ragEngine ns : String) :
    Obeys Handles (fun _ => True) (listIndexes ragEngine ns) := by
  have hattempt : Obeys Handles (fun _ => True)
      (ask (.httpGetIndexes (generateRAGEngineEndpoint ragEngine ns))) := handles_ask (by trivial)
  exact (obeys_retry hattempt _).bind fun r _ => by cases r <;> trivial

lemma handles_deleteIndex (ragEngine index ns : String) :
    Obeys Handles (fun _ => True) (deleteIndex ragEngine index ns) := by
  have hattempt : Obeys Handles (fun _ => True)
      (deleteIndexAttempt (generateRAGEngineEndpoint ragEngine ns) index) := by
    refine (handles_ask (by trivial)).bind fun r _ => ?_
    cases r with
    | error e => trivial
    | ok status => dsimp only; split <;> trivial
  exact (obeys_retry hattempt _).bind fun r _ => by cases r <;> trivial

lemma handles_updateAnnotations (m : AutoIndexer) (a : Annotations) :
    Obeys Handles (SamePhase m) (updateAnnotations { m with annotations := a } m) := by
  unfold updateAnnotations
  split
  · refine ⟨⟨rfl, rfl⟩, fun r => ?_⟩
    cases r with
    | error e => exact fun _ => rfl
    | ok o' => exact fun h => absurd rfl h
  · exact fun h => absurd rfl h

lemma handles_setSuspendedState (m : AutoIndexer) (suspend : Bool) :
    Obeys Handles (SamePhase m) (setSuspendedState m suspend) := by
  unfold setSuspendedState
  extract_lets existing o'
  split
  · refine ⟨⟨rfl, rfl⟩, fun r => ?_⟩
    cases r with
    | error e => exact fun _ => rfl
    | ok o' => exact fun h => absurd rfl h
  · exact fun h => absurd rfl h

lemma handles_finishRemediation (m : AutoIndexer) :
    Obeys Handles (SamePhase m) (finishRemediation m) := by
  refine ⟨trivial, fun t => ?_⟩
  refine (handles_updateAnnotations (resetStatus m) _).mono (fun _ h => h) fun r hr hne => ?_
  rw [hr hne, resetStatus]
  split <;> rfl

lemma handles_remediate (m : AutoIndexer) : Obeys Handles (SamePhase m) (remediate m) := by
  refine handles_getJobStatus.bind fun r _ => ?_
  cases r with
  | error e => exact fun _ => rfl
  | ok jobs =>
    dsimp only
    split
    · exact fun _ => rfl
    · refine (handles_listIndexes _ _).bind fun r _ => ?_
      cases r with
      | error e => exact fun _ => rfl
      | ok indexes =>
        dsimp only
        split
        · refine (handles_deleteIndex _ _ _).bind fun e _ => ?_
          cases e with
          | some e => exact fun _ => rfl
          | none => exact handles_finishRemediation m
        · exact handles_finishRemediation m

/-- No handler fails with another phase in memory, but for that of the phase Pending. -/
lemma handles_handlePhase (hm : ¬ (m.status.indexingPhase = .pending ∧ m.spec.schedule = none)) :
    Obeys Handles (SamePhase m) (handlePhase m) := by
  have hret : ∀ m' : AutoIndexer, Obeys Handles (SamePhase m) (pure (m', none) : Go (AutoIndexer × Err)) :=
    fun m' h => absurd rfl h
  have hkept : ∀ e : Err, Obeys Handles (SamePhase m) (pure (m, e) : Go (AutoIndexer × Err)) :=
    fun e _ => rfl
  unfold handlePhase
  split
  · rename_i hp
    have hs : m.spec.schedule.isSome := Option.isSome_iff_ne_none.mpr fun hs => hm ⟨hp, hs⟩
    unfold handlePendingPhase
    rw [if_pos hs]
    split <;> exact hret _
  · unfold handleScheduledPhase
    split
    · exact hret _
    · refine handles_getJobStatus.bind fun r _ => ?_
      cases r with
      | error e => exact hkept _
      | ok jobs => dsimp only; repeat' split <;> try exact hret _
  · unfold handleSuspendedPhase
    split <;> exact hret _
  · refine handles_getJobStatus.bind fun r _ => ?_
    cases r with
    | error e => exact hkept _
    | ok jobs => dsimp only; repeat' split <;> try exact hret _
  · exact hret _
  · exact hret _
  · unfold handleDriftRemediationPhase
    split
    · exact hret _
    · split
      · split
        · exact handles_setSuspendedState m false
        · exact hret _
      · split
        · exact hret _
        · split
          · exact handles_setSuspendedState m true
          · split
            · exact hret _
            · exact handles_remediate m
  · exact hret _

lemma keeps_of_plainly {α : Type} {p : Go α} (h : Plainly p) : Obeys Keeps (fun _ => True) p := by
  refine h.mono (fun c hc => ?_) fun _ h => h
  cases c <;> first | exact hc.elim | trivial

/-- The Job is not made because a call for it failed. -/
lemma ensureJob_runs (hx : Kept o x.1) : Runs Fallible (fun e y => (e ≠ none → y.2.jobFailed = true) ∧
    Kept o y.1 ∧ y.2.patched = x.2.patched) (ensureJob m) x := by
  have hfails : Runs Fallible (fun e y => e ≠ none → y.2.jobFailed = true) (ensureJob m) x := by
    rintro image y1 ⟨-, h1⟩ r y2 ⟨-, h2⟩
    match r with
    | .ok j => exact fun h => absurd rfl h
    | .error .notFound =>
      rintro r y3 ⟨-, h3⟩
      cases r with
      | ok u => exact fun h => absurd rfl h
      | error e => exact fun _ => by rw [h3]; rfl
    | .error .conflict => exact fun _ => by rw [h2]; rfl
    | .error (.other e) => exact fun _ => by rw [h2]; rfl
  have hkeeps := runs_of_keeps (keeps_of_plainly (plainly_ensureJob m)) hx
  exact (hfails.and hkeeps).mono fun e y h => ⟨h.1, h.2.2⟩

/-- The Job of a one-time AutoIndexer is to be created. -/
def Starting (o : AutoIndexer) : Prop :=
  o.status.indexingPhase = .pending ∧ o.spec.schedule = none

/-- How a handler ends: if it fails, then with the phase it handles in memory, or as Failed without
the Job of a one-time AutoIndexer. -/
structure Ended (o : AutoIndexer) (r : AutoIndexer × Err) (y : World × Heard) : Prop where
  kept : Kept o y.1
  patched : y.2.patched = false
  fails : r.2 ≠ none → r.1.status.indexingPhase = o.status.indexingPhase ∧ ¬ Starting o ∨
    r.1.status.indexingPhase = .failed ∧ Starting o ∧ y.2.jobFailed = true

lemma phase_of_sameButConditions (h : SameButConditions o m) :
    m.status.indexingPhase = o.status.indexingPhase ∧ m.spec = o.spec := by
  obtain ⟨cs, -, rfl⟩ := h
  exact ⟨rfl, rfl⟩

lemma handlePhase_runs (hm : SameButConditions o m) (hx : Kept o x.1) (hp : x.2.patched = false) :
    Runs Fallible (Ended o) (handlePhase m) x := by
  obtain ⟨hphase, hspec⟩ := phase_of_sameButConditions hm
  by_cases hs : Starting o
  · have hpending : handlePhase m = handlePendingPhase m := by
      unfold handlePhase
      rw [hphase, hs.1]
    have hsched : ¬ m.spec.schedule.isSome = true := by simp [hspec, hs.2]
    rw [hpending, handlePendingPhase, if_neg hsched]
    refine (ensureJob_runs hx).bind fun e y ⟨hfails, hk, hy⟩ => ?_
    cases e with
    | none => exact ⟨hk, hy.trans hp, fun h => absurd rfl h⟩
    | some e =>
      rintro t y1 ⟨h1, hn1⟩ t' y2 ⟨h2, hn2⟩
      have hn : y2.2 = y.2 := hn2.trans hn1
      refine ⟨kept_of_serves h2 trivial (kept_of_serves h1 trivial hk), by rw [hn, hy, hp], ?_⟩
      exact fun _ => .inr ⟨rfl, hs, by rw [hn, hfails (by simp)]⟩
  · have hm : ¬ (m.status.indexingPhase = .pending ∧ m.spec.schedule = none) := by
      rwa [hphase, hspec]
    have hkeeps : Obeys Keeps (SamePhase m) (handlePhase m) :=
      (handles_handlePhase hm).mono (fun _ => .of_handles) fun _ h => h
    refine (runs_of_keeps hkeeps hx).mono fun r y ⟨hr, hk, hy⟩ => ?_
    exact ⟨hk, hy.trans hp, fun hne => .inl ⟨(hr hne).trans hphase, hs⟩⟩

/-! ### The closing patch -/

/-- The status in memory is merged into what is stored. -/
def Merged (o m : AutoIndexer) (w w' : World) : Prop :=
  ∃ s, w.stored = some s ∧
    w'.stored = some (accept s (s.withStatus (mergeStatus o.status m.status s.status)))

lemma patchAndReturn_runs (hx : Kept o x.1) (hp : x.2.patched = false) (err : Err) :
    Runs Fallible (fun r y => y.2.jobFailed = x.2.jobFailed ∧
      (y.2.patched = false ∧ Kept o y.1 ∨ y.2.patched = true ∧ r = err ∧ Merged o m x.1 y.1))
      (patchAndReturn m o err) x := by
  unfold patchAndReturn
  split
  · rintro r y ⟨hs, hn⟩
    cases r with
    | error e =>
      have hsame : y.1.stored = x.1.stored := by
        rcases stored_of_serves hs with ⟨hsame, -⟩ | ⟨s, -, hw⟩
        · exact hsame
        · generalize y.1.stored = v at hw
          cases hw
      exact ⟨by rw [hn]; rfl, .inl ⟨by rw [hn]; exact hp, hx.congr hsame⟩⟩
    | ok u =>
      refine ⟨by rw [hn]; rfl, .inr ⟨by rw [hn]; rfl, rfl, ?_⟩⟩
      rcases stored_of_serves hs with ⟨-, hacc⟩ | ⟨s, hstored, hw⟩
      · cases hacc
      · generalize hv : y.1.stored = v at hw
        cases hw
        exact ⟨s, hstored, hv⟩
  · exact ⟨rfl, .inl ⟨hp, hx⟩⟩

lemma kept_of_merged (hk : Kept o w) (h : Merged o m w w')
    (hm : m.status.indexingPhase = o.status.indexingPhase) : Kept o w' := by
  obtain ⟨s, hs, hs'⟩ := h
  obtain ⟨s1, hs1, hphase, hname, hdel, hsched⟩ := hk
  obtain rfl : s = s1 := Option.some.inj (hs.symm.trans hs1)
  refine ⟨_, hs', ?_, ?_, ?_, ?_⟩
  · simpa [AutoIndexer.withStatus, mergeStatus, hm] using hphase
  · simpa [AutoIndexer.withStatus] using hname
  · simpa [AutoIndexer.withStatus] using hdel
  · simpa [AutoIndexer.withStatus] using hsched

lemma phase_of_merged (h : Merged o m w w')
    (hm : m.status.indexingPhase ≠ o.status.indexingPhase) :
    ∃ s, w'.stored = some s ∧ s.status.indexingPhase = m.status.indexingPhase := by
  obtain ⟨s, -, hs'⟩ := h
  exact ⟨_, hs', by simp [AutoIndexer.withStatus, mergeStatus, pick, hm.symm]⟩

/-! ### The next reconcile -/

/-- The phase is what it was before, and if the Job of a one-time AutoIndexer is to be created, the
next reconcile does so, once the calls work. -/
structure Retryable (o : AutoIndexer) (w : World) : Prop where
  phase : ∃ s, w.stored = some s ∧ s.status.indexingPhase = o.status.indexingPhase
  job : Starting o → o.deletionTimestamp = none →
    (∀ s, w.stored = some s → s.spec.ragEngine ∈ w.ragEngines) →
    Runs (Serves False) (fun _ w' => ∃ j ∈ w'.jobs, j.name = o.name ++ "-job") reconcile w

/-- If no call fails, there is a Job afterwards. -/
lemma ensureJob_makes (m : AutoIndexer) (w : World) : Runs (Serves False) (fun e w' => e = none ∧
    w'.stored = w.stored ∧ ∃ j ∈ w'.jobs, j.name = m.name ++ "-job") (ensureJob m) w := by
  intro image w1 h1
  obtain ⟨rfl, rfl⟩ := Prod.mk.inj ((serves_false ..).mp h1)
  intro r w2 h2
  have h2 := (serves_false ..).mp h2
  simp only [serve] at h2
  split at h2
  · rename_i j hj
    obtain ⟨rfl, rfl⟩ := Prod.mk.inj h2
    exact ⟨rfl, rfl, j, List.mem_of_find?_eq_some hj, by simpa using List.find?_some hj⟩
  · obtain ⟨rfl, rfl⟩ := Prod.mk.inj h2
    intro r w3 h3
    obtain ⟨rfl, rfl⟩ := Prod.mk.inj ((serves_false ..).mp h3)
    exact ⟨rfl, rfl, _, List.mem_append_right _ (List.mem_singleton_self _), rfl⟩

/-- The Job of a one-time AutoIndexer in the phase Pending is created. -/
lemma reconcile_makes {s : AutoIndexer} (hw : w.stored = some s) (hs : Starting s)
    (hd : s.deletionTimestamp = none) (hrag : s.spec.ragEngine ∈ w.ragEngines) :
    Runs (Serves False) (fun _ w' => ∃ j ∈ w'.jobs, j.name = s.name ++ "-job") reconcile w := by
  refine (reconcile_runs (R := fun _ _ w' => ∃ j ∈ w'.jobs, j.name = s.name ++ "-job") hw hd ?_).mono ?_
  · rintro o1 w1 ho1 ⟨cs, rfl⟩
    have hpending : handlePhase (withResources o1 w.clock) =
        handlePendingPhase (withResources o1 w.clock) := by
      have hphase : (withResources o1 w.clock).status.indexingPhase = .pending := by
        simp [withResources, withCondition, AutoIndexer.withStatus, ho1.status, hs.1]
      unfold handlePhase
      rw [hphase]
    have hsched : ¬ (withResources o1 w.clock).spec.schedule.isSome = true := by
      simp [withResources, withCondition, AutoIndexer.withStatus, ho1.spec, hs.2]
    rw [hpending, handlePendingPhase, if_neg hsched]
    refine (ensureJob_makes _ _).bind ?_
    rintro e w2 ⟨rfl, hstored, hjob⟩
    refine ⟨fun _ => ⟨o1, hstored, rfl, .inl rfl, ?_⟩, fun _ => rfl⟩
    have hname : (withResources o1 w.clock).name = s.name := ho1.name
    rwa [hname] at hjob
  · rintro e w' ⟨h1, h2⟩
    obtain ⟨m, s1, s2, w1, hjob, -, -, -, -, -, rfl⟩ := h1 (h2 (by simp) hrag)
    exact hjob

lemma retryable_of_kept (hk : Kept o w) : Retryable o w := by
  obtain ⟨s, hs, hphase, hname, hdel, hsched⟩ := hk
  refine ⟨⟨s, hs, hphase⟩, fun hstart hd hrag => ?_⟩
  rw [← hname]
  exact reconcile_makes hs ⟨hphase.trans hstart.1, hsched.trans hstart.2⟩ (hdel.trans hd) (hrag s hs)

/-- The failure that is not retried: the call that makes the Job of a one-time AutoIndexer failed,
and the status was stored. -/
def GivenUp (o : AutoIndexer) (n : Heard) : Prop :=
  Starting o ∧ n.jobFailed = true ∧ n.patched = true

/-- A reconcile that fails can be retried, unless the Job of a one-time AutoIndexer could not be
created and the status was stored. -/
theorem retryable_iff (hw : w.stored = some o) :
    Runs Fallible (fun err y => err ≠ none → (Retryable o y.1 ↔ ¬ GivenUp o y.2))
      (syncAutoIndexer o) (w, ⟨false, false⟩) := by
  refine (runs_of_prepares (x := (w, ⟨false, false⟩)) (prepares_ensureRequiredResources o)
    (kept_of_stored hw)).bind ?_
  rintro ⟨m, e⟩ y ⟨hm, hk, hy⟩
  have hpatched : y.2.patched = false := by rw [hy]
  cases e with
  | some e =>
    refine (patchAndReturn_runs hk hpatched _).mono fun r z ⟨hjob, hz⟩ _ => ?_
    have hkept : Kept o z.1 := by
      rcases hz with ⟨-, hkept⟩ | ⟨-, -, hmerged⟩
      · exact hkept
      · exact kept_of_merged hk hmerged (phase_of_sameButConditions hm).1
    refine iff_of_true (retryable_of_kept hkept) fun hgiven => ?_
    have hfalse := hgiven.2.1
    rw [hjob, hy] at hfalse
    cases hfalse
  | none =>
    refine (handlePhase_runs hm hk hpatched).bind ?_
    rintro ⟨m, e⟩ y ⟨hk, hpatched, hfails⟩
    cases e with
    | none =>
      rintro t y1 ⟨h1, hn1⟩ t' y2 ⟨h2, hn2⟩
      have hk2 : Kept o y2.1 := kept_of_serves h2 trivial (kept_of_serves h1 trivial hk)
      have hn : y2.2 = y.2 := hn2.trans hn1
      refine (patchAndReturn_runs hk2 (by rw [hn, hpatched]) _).mono fun r z ⟨_, hz⟩ hne => ?_
      rcases hz with ⟨hz, hkept⟩ | ⟨-, hr, -⟩
      · refine iff_of_true (retryable_of_kept hkept) fun hgiven => ?_
        rw [hgiven.2.2] at hz
        cases hz
      · exact absurd hr hne
    | some e =>
      rintro t y1 ⟨h1, hn1⟩
      have hk1 : Kept o y1.1 := kept_of_serves h1 trivial hk
      have hn : y1.2 = y.2 := hn1
      refine (patchAndReturn_runs hk1 (by rw [hn, hpatched]) _).mono fun r z ⟨hjob, hz⟩ _ => ?_
      rcases hfails (by simp) with ⟨hphase, hstart⟩ | ⟨hphase, hstart, hfailed⟩
      · have hkept : Kept o z.1 := by
          rcases hz with ⟨-, hkept⟩ | ⟨-, -, hmerged⟩
          · exact hkept
          · exact kept_of_merged hk1 hmerged hphase
        exact iff_of_true (retryable_of_kept hkept) fun hgiven => hstart hgiven.1
      · rcases hz with ⟨hz, hkept⟩ | ⟨hz, -, hmerged⟩
        · refine iff_of_true (retryable_of_kept hkept) fun hgiven => ?_
          rw [hgiven.2.2] at hz
          cases hz
        · refine iff_of_false (fun hretry => ?_) fun hgiven => ?_
          · have hne : m.status.indexingPhase ≠ o.status.indexingPhase := by
              rw [hphase, hstart.1]
              decide
            obtain ⟨s, hs, hfailed⟩ := phase_of_merged hmerged hne
            obtain ⟨s', hs', hkept⟩ := hretry.phase
            obtain rfl : s = s' := Option.some.inj (hs.symm.trans hs')
            exact hne (hfailed.symm.trans hkept)
          · exact hgiven ⟨hstart, by rw [hjob, hn, hfailed], hz⟩

/-- A one-time AutoIndexer whose Job is to be created. -/
def starting : AutoIndexer := demo.withStatus { demo.status with indexingPhase := .pending }

def startingWorld : World := { demoWorld with stored := some starting }

theorem retryable_iff_starting :
    Runs Fallible (fun err y => err ≠ none → (Retryable starting y.1 ↔ ¬ GivenUp starting y.2))
      (syncAutoIndexer starting) (startingWorld, ⟨false, false⟩) :=
  retryable_iff rfl

/-- Nothing fails, but for the creation of Jobs. -/
def serveNoJob (w : World) (c : Call) : Answer c × World :=
  match c with
  | .createJob _ _ => (.error (.other "timeout"), w)
  | c => serve w c

lemma serves_serveNoJob (w : World) (c : Call) :
    Serves True w c (serveNoJob w c).1 (serveNoJob w c).2 := by
  cases c with
  | createJob name template => exact .inr ⟨trivial, ⟨"timeout", rfl⟩, .inl rfl⟩
  | _ => exact .inl rfl

/-- A Job that could not be created is not created later. -/
theorem not_retryable : ¬ ∀ (o : AutoIndexer) (w : World), w.stored = some o →
    Runs (Serves True) (fun err w' => err ≠ none → Retryable o w') (syncAutoIndexer o) w := by
  intro hall
  have hexec := (hall starting startingWorld rfl).exec serves_serveNoJob
  have herr : ((syncAutoIndexer starting).exec serveNoJob startingWorld).1 ≠ none := by
    decide +kernel
  have hfailed : ((syncAutoIndexer starting).exec serveNoJob startingWorld).2.stored.map
      (·.status.indexingPhase) = some .failed := by decide +kernel
  obtain ⟨s, hs, hphase⟩ := (hexec herr).phase
  rw [hs, Option.map_some, hphase] at hfailed
  cases hfailed

end KaitoAutoIndexer.Retries
