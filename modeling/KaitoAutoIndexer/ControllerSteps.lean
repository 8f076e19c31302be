import KaitoAutoIndexer.ControllerCalls
import KaitoAutoIndexer.JobStatus

/-!
What a reconcile does, call by call: each write it makes is one of a few, with what it has been
told before as its reason. Nothing is assumed of the answers.
-/

namespace KaitoAutoIndexer.ControllerSteps

open KaitoAutoIndexer.Lib KaitoAutoIndexer.Types KaitoAutoIndexer.Conditions
open KaitoAutoIndexer.Cluster KaitoAutoIndexer.Controller KaitoAutoIndexer.ControllerCalls
open KaitoAutoIndexer.JobStatus (scanJobs_counts)

/-! ### What a reconcile is told -/

structure Knows where
  /-- The object that the reconcile got at its start. -/
  got : Option AutoIndexer
  /-- The object, as the API server gave it last. -/
  read : Option AutoIndexer
  /-- The object whose phase is handled: the one that was got, or the one that came back from
  the patch that adds the finalizer. -/
  base : Option AutoIndexer
  listing : Option (List Job)
  /-- The clock, as it was read last. -/
  clock : Option Time
  /-- The patch of the status was sent. -/
  sent : Bool
  /-- The last deletion of an index was reported as done. -/
  deleted : Bool
  /-- The update that takes the finalizer away was accepted. -/
  released : Bool

/-- Before the first call of a reconcile. -/
def fresh : Knows := ⟨none, none, none, none, none, false, false, false⟩

/-- What an answer adds. -/
def note (g : Knows) : (c : Call) → Answer c → Knows
  | .get, .ok o => { g with got := some o, read := some o, base := some o }
  | .patch original modified, .ok o =>
    if modified.finalizers = original.finalizers then { g with read := some o }
    else { g with read := some o, base := some o }
  | .patchStatus _ _, _ => { g with sent := true }
  | .listJobs, .ok jobs => { g with listing := some jobs }
  | .now, t => { g with clock := some t }
  | .httpDeleteIndex _ _, .ok n => { g with deleted := n == 200 || n == 404 }
  | .httpDeleteIndex _ _, .error _ => { g with deleted := false }
  | .update _, .ok _ => { g with released := true }
  | _, _ => g

/-- The object that was got is not being deleted. -/
def Knows.Live (g : Knows) : Prop := ∃ o, g.got = some o ∧ o.deleting = false

/-! ### Phases -/

/-- The phases to which the handler of the object's phase may turn. -/
inductive PhaseStep (o : AutoIndexer) (listing : Option (List Job)) : Phase → Prop
  | start (h : o.status.indexingPhase = .unset) : PhaseStep o listing .pending
  | pendingSuspended (h : o.status.indexingPhase = .pending) (hs : o.spec.suspended = true)
      (hc : o.spec.schedule.isSome = true) : PhaseStep o listing .suspended
  | pendingScheduled (h : o.status.indexingPhase = .pending) (hs : o.spec.suspended = false)
      (hc : o.spec.schedule.isSome = true) : PhaseStep o listing .scheduled
  | pendingFailed (h : o.status.indexingPhase = .pending) : PhaseStep o listing .failed
  | pendingRunning (h : o.status.indexingPhase = .pending) : PhaseStep o listing .running
  | scheduledSuspended (h : o.status.indexingPhase = .scheduled) (hs : o.spec.suspended = true) :
      PhaseStep o listing .suspended
  | scheduledRunning (h : o.status.indexingPhase = .scheduled) : PhaseStep o listing .running
  | drifted {js : List Job} (h : o.status.indexingPhase = .scheduled)
      (hs : o.spec.suspended = false) (hl : listing = some js) (hj : (scanJobs js).running = 0)
      (hd : o.driftDetected = true) (hp : o.spec.driftRemediationPolicy ≠ none)
      (hi : o.spec.driftRemediationPolicy ≠ some .ignore) : PhaseStep o listing .driftRemediation
  | unsuspended (h : o.status.indexingPhase = .suspended) (hs : o.spec.suspended = false) :
      PhaseStep o listing .scheduled
  | runningFailed (h : o.status.indexingPhase = .running) : PhaseStep o listing .failed
  | runningScheduled (h : o.status.indexingPhase = .running) (hc : o.spec.schedule.isSome = true) :
      PhaseStep o listing .scheduled
  | runningCompleted (h : o.status.indexingPhase = .running) : PhaseStep o listing .completed
  | driftIgnored (h : o.status.indexingPhase = .driftRemediation)
      (hi : o.spec.driftRemediationPolicy = some .ignore) : PhaseStep o listing .pending
  | driftOver (h : o.status.indexingPhase = .driftRemediation)
      (hi : o.spec.driftRemediationPolicy ≠ some .ignore) (hd : o.driftDetected = false)
      (hs : o.spec.suspended = false) : PhaseStep o listing .pending

/-- The remediation of the object has come to its index. -/
structure Remediating (o : AutoIndexer) (listing : Option (List Job)) : Prop where
  phase : o.status.indexingPhase = .driftRemediation
  detected : o.driftDetected = true
  policy : o.spec.driftRemediationPolicy = some .auto
  suspended : o.spec.suspended = true
  remediated : driftRemediated o.annotations = false
  idle : ∃ js, listing = some js ∧ (scanJobs js).running = 0

/-! ### Writes -/

/-- What a reconcile makes of the status: `o` is the object whose phase it handles, `r` the
object it got last. -/
inductive Worked (listing : Option (List Job)) (o r : AutoIndexer) : Status → Prop
  | same {cs : List Condition} (hc : ControllerWrites r.status.conditions cs) :
      Worked listing o r { r.status with conditions := cs }
  | phase {p : Phase} {cs : List Condition} (hr : r = o) (hp : PhaseStep o listing p)
      (hc : ControllerWrites o.status.conditions cs) :
      Worked listing o r { o.status with indexingPhase := p, conditions := cs }
  | reset {cs : List Condition} (hr : r = o) (h : Remediating o listing)
      (hc : ControllerWrites o.status.conditions cs) :
      Worked listing o r { (resetStatus o).status with conditions := cs }

/-- The phase is that of the object read last, or one that the handler turns to. -/
lemma phase_of_worked {listing : Option (List Job)} {x r : AutoIndexer} {s : Status}
    (h : Worked listing x r s) :
    s.indexingPhase = r.status.indexingPhase ∨
      r = x ∧ PhaseStep x listing s.indexingPhase := by
  cases h with
  | same => exact .inl rfl
  | phase hr hp => exact .inr ⟨hr, hp⟩
  | reset hr h =>
    subst hr
    refine .inl ?_
    unfold resetStatus
    split <;> rfl

/-- The calls of a reconcile, and the reasons for its writes. -/
inductive Lawful (g : Knows) : Call → Prop
  | plain {c : Call} (h : Plain c) : Lawful g c
  | get (h : g.got = none) : Lawful g .get
  | addFinalizer {o : AutoIndexer} (hr : g.read = some o) (hb : g.base = some o) (hd : g.Live)
      (hf : autoIndexerFinalizer ∉ o.finalizers) :
      Lawful g (.patch o { o with finalizers := o.finalizers ++ [autoIndexerFinalizer] })
  | suspend {o m : AutoIndexer} (hr : g.read = some o) (hb : g.base = some o)
      (hd : g.Live) (hm : SameButConditions o m)
      (hp : o.status.indexingPhase = .driftRemediation) (ht : o.driftDetected = true)
      (ha : o.spec.driftRemediationPolicy = some .auto) (hs : o.spec.suspended = false) :
      Lawful g (.patch m (m.withSpec { m.spec with suspend := some true }))
  | resume {o m : AutoIndexer} (hr : g.read = some o) (hb : g.base = some o)
      (hd : g.Live) (hm : SameButConditions o m)
      (hp : o.status.indexingPhase = .driftRemediation) (ht : o.driftDetected = false)
      (hi : o.spec.driftRemediationPolicy ≠ some .ignore) (hs : o.spec.suspended = true) :
      Lawful g (.patch m (m.withSpec { m.spec with suspend := some false }))
  | mark {o m : AutoIndexer} {t : Time} (hr : g.read = some o) (hb : g.base = some o)
      (hd : g.Live) (hm : SameButConditions o m) (hrem : Remediating o g.listing)
      (ht : g.clock = some t) : Lawful g (.patch (resetStatus m) { resetStatus m with
        annotations := { m.annotations with lastDriftRemediated := some (Stamp.format t) } })
  | status {o r m : AutoIndexer} (hr : g.read = some r) (hb : g.base = some o)
      (hd : g.Live) (hs : g.sent = false) (hv : m.resourceVersion = r.resourceVersion)
      (hw : Worked g.listing o r m.status) : Lawful g (.patchStatus o m)
  | remediate {o : AutoIndexer} {e i : String} (hr : g.read = some o) (hb : g.base = some o)
      (hd : g.Live) (hi : ownIndex o e i) (hrem : Remediating o g.listing) :
      Lawful g (.httpDeleteIndex e i)
  | collect {o : AutoIndexer} {js : List Job} {e i : String} (hg : g.got = some o)
      (hd : o.deleting = true) (hi : ownIndex o e i) (hl : g.listing = some js)
      (hj : ∀ j ∈ js, j.active = 0) : Lawful g (.httpDeleteIndex e i)
  | release {o : AutoIndexer} {js : List Job} (hg : g.got = some o) (hd : o.deleting = true)
      (hl : g.listing = some js) (hj : ∀ j ∈ js, j.active = 0) (hdel : g.deleted = true)
      (hf : autoIndexerFinalizer ∈ o.finalizers) :
      Lawful g (.update { o with finalizers := o.finalizers.filter (· ≠ autoIndexerFinalizer) })

/-- Whatever a program is told, it makes lawful calls only. -/
abbrev Steps {α : Type} (Q : α → Knows → Prop) (p : Go α) (g : Knows) : Prop :=
  Tells note Lawful Q p g

variable {α : Type} {Q : α → Knows → Prop} {g : Knows}

/-- What plain calls leave as it is. -/
structure Same (g g' : Knows) : Prop where
  got : g'.got = g.got
  read : g'.read = g.read
  base : g'.base = g.base
  sent : g'.sent = g.sent
  deleted : g'.deleted = g.deleted
  released : g'.released = g.released

lemma Same.refl (g : Knows) : Same g g := ⟨rfl, rfl, rfl, rfl, rfl, rfl⟩

lemma Same.trans {g g' g'' : Knows} (h : Same g g') (h' : Same g' g'') : Same g g'' :=
  ⟨h'.got.trans h.got, h'.read.trans h.read, h'.base.trans h.base, h'.sent.trans h.sent,
    h'.deleted.trans h.deleted, h'.released.trans h.released⟩

lemma same_note {c : Call} (h : Plain c) (r : Answer c) : Same g (note g c r) := by
  cases c <;> first | exact h.elim | exact .refl g | skip
  · cases r <;> exact ⟨rfl, rfl, rfl, rfl, rfl, rfl⟩
  · exact ⟨rfl, rfl, rfl, rfl, rfl, rfl⟩

/-- A program of plain calls. -/
lemma steps_of_plain {P : α → Prop} {p : Go α} (h : Obeys Plain P p) (g : Knows) :
    Steps (fun a g' => P a ∧ Same g g') p g := by
  exact h.tells (fun _ _ _ hc => .plain hc) (fun _ _ r hc h1 => h1.trans (same_note hc r)) (.refl g)

/-! ### Jobs and the status -/

lemma getJobStatus_steps (g : Knows) :
    Steps (fun r g' => Same g g' ∧ ∀ s, r = .ok s → ∃ js, g'.listing = some js ∧ s = scanJobs js)
      getJobStatus g := by
  unfold getJobStatus
  refine tells_ask (.plain trivial) fun r => ?_
  cases r with
  | error e => exact tells_ret ⟨.refl g, by simp⟩
  | ok jobs => exact tells_ret ⟨⟨rfl, rfl, rfl, rfl, rfl, rfl⟩, fun s hs => ⟨jobs, rfl, by cases hs; rfl⟩⟩

/-- No Job of the listing counts as running: none has an active pod. -/
lemma active_eq_zero_of_running {js : List Job} (h : (scanJobs js).running = 0) :
    ∀ j ∈ js, j.active = 0 := by
  intro j hj
  rw [(scanJobs_counts js).1, List.countP_eq_zero] at h
  have hidle := h j hj
  rw [decide_eq_true_eq, JobStatus.Running] at hidle
  omega

/-- The conditions may be set once more. -/
lemma Worked.conditions {listing : Option (List Job)} {o r : AutoIndexer} {s : Status}
    {cs : List Condition} (h : Worked listing o r s) (hc : ControllerWrites s.conditions cs) :
    Worked listing o r { s with conditions := cs } := by
  cases h with
  | same h => exact .same (h.trans hc)
  | phase hr hp h => exact .phase hr hp (h.trans hc)
  | reset hr hrem h => exact .reset hr hrem (h.trans hc)

/-- Between two phases: the object `o` whose phase is handled, and what is in memory. -/
structure Handling (o m : AutoIndexer) (g : Knows) : Prop where
  live : g.Live
  base : g.base = some o
  sent : g.sent = false
  released : g.released = false
  memory : ∃ r, g.read = some r ∧ m.resourceVersion = r.resourceVersion ∧
    Worked g.listing o r m.status

lemma Handling.lawful {o m : AutoIndexer} (h : Handling o m g) : Lawful g (.patchStatus o m) := by
  obtain ⟨r, hr, hv, hw⟩ := h.memory
  exact .status hr h.base h.live h.sent hv hw

lemma patchAndReturn_steps {o m : AutoIndexer} (h : Handling o m g) (err : Err) :
    Steps (fun _ g' => g'.Live ∧ g'.released = false) (patchAndReturn m o err) g := by
  unfold patchAndReturn
  split
  · refine tells_ask h.lawful fun r => ?_
    cases r <;> exact tells_ret ⟨h.live, h.released⟩
  · exact tells_ret ⟨h.live, h.released⟩

lemma setAutoIndexerCondition_steps {o m : AutoIndexer} (h : Handling o m g) {type : String}
    (ht : type = errorType ∨ type = resourceType) (status : ConditionStatus)
    (reason message : String) :
    Steps (fun m' g' => Handling o m' g') (setAutoIndexerCondition m type status reason message)
      g := by
  obtain ⟨r, hr, hv, hw⟩ := h.memory
  refine tells_ask (.plain trivial) fun t => ?_
  refine tells_ret ⟨h.live, h.base, h.sent, h.released, r, hr, hv, ?_⟩
  exact hw.conditions (controllerWrites_setCondition _ ht)

/-! ### Phase handlers -/

/-- A handler begins: the object in memory is the one read, with conditions set. -/
structure Beginning (o m : AutoIndexer) (g : Knows) : Prop where
  live : g.Live
  read : g.read = some o
  base : g.base = some o
  sent : g.sent = false
  released : g.released = false
  memory : SameButConditions o m

variable {o m : AutoIndexer}

lemma Beginning.same {g' : Knows} (h : Beginning o m g) (hg : Same g g') : Beginning o m g' :=
  ⟨by simpa [Knows.Live, hg.got] using h.live, hg.read.trans h.read, hg.base.trans h.base,
    hg.sent.trans h.sent, hg.released.trans h.released, h.memory⟩

lemma Beginning.ticked (h : Beginning o m g) (t : Time) : Beginning o m (note g .now t) :=
  ⟨h.live, h.read, h.base, h.sent, h.released, h.memory⟩

/-- The object is left as it is in memory, or with a changed spec or annotation that was not
accepted. -/
lemma Beginning.handling {m' : AutoIndexer} (h : Beginning o m g) (hs : m'.status = m.status)
    (hv : m'.resourceVersion = m.resourceVersion) : Handling o m' g := by
  obtain ⟨cs, hc, rfl⟩ := h.memory
  refine ⟨h.live, h.base, h.sent, h.released, o, h.read, hv, ?_⟩
  rw [hs]
  exact .same hc

/-- The handler turns to another phase. -/
lemma Beginning.turn {p : Phase} {new : List Condition} (h : Beginning o m g)
    (hp : PhaseStep o g.listing p) (hn : ∀ c ∈ new, c.type = errorType ∨ c.type = resourceType) :
    Handling o (updateStatus m p new) g := by
  obtain ⟨cs, hc, rfl⟩ := h.memory
  have hwrites : ∀ cs', ControllerWrites o.status.conditions cs' →
      ControllerWrites o.status.conditions (new.foldl (fun cs c => replaceCondition c cs) cs') := by
    clear h
    induction new with
    | nil => exact fun _ h => h
    | cons c new ih =>
      intro cs' h
      have hc : c.type = errorType ∨ c.type = resourceType := hn c List.mem_cons_self
      refine ih (fun c' hc' => hn c' (List.mem_cons_of_mem _ hc')) _ ?_
      exact h.trans (controllerWrites_replaceCondition _ hc)
  exact ⟨h.live, h.base, h.sent, h.released, o, h.read, rfl, .phase rfl hp (hwrites _ hc)⟩

/-- What every handler leaves. -/
abbrev Leaves (o : AutoIndexer) (r : AutoIndexer × Err) (g : Knows) : Prop := Handling o r.1 g

lemma phase_of (h : Beginning o m g) : m.status.indexingPhase = o.status.indexingPhase := by
  obtain ⟨cs, -, rfl⟩ := h.memory
  rfl

lemma spec_of (h : Beginning o m g) : m.spec = o.spec := by
  obtain ⟨cs, -, rfl⟩ := h.memory
  rfl

lemma annotations_of (h : Beginning o m g) : m.annotations = o.annotations := by
  obtain ⟨cs, -, rfl⟩ := h.memory
  rfl

lemma handlePendingPhase_steps (h : Beginning o m g) (hp : o.status.indexingPhase = .pending) :
    Steps (Leaves o) (handlePendingPhase m) g := by
  unfold handlePendingPhase
  rw [spec_of h]
  split
  · rename_i hc
    split
    · rename_i hs
      exact tells_ret (h.turn (.pendingSuspended hp hs hc) (by simp))
    · rename_i hs
      exact tells_ret (h.turn (.pendingScheduled hp (by simpa using hs) hc) (by simp))
  · refine (steps_of_plain (plainly_ensureJob m) g).bind ?_
    rintro e g1 ⟨-, hg⟩
    have h1 := h.same hg
    cases e with
    | some e =>
      refine tells_ask (.plain trivial) fun t => tells_ask (.plain trivial) fun t' => tells_ret ?_
      exact ((h1.ticked t).ticked t').turn (.pendingFailed hp) (by simp)
    | none => exact tells_ret (h1.turn (.pendingRunning hp) (by simp))

lemma handleScheduledPhase_steps (h : Beginning o m g) (hp : o.status.indexingPhase = .scheduled) :
    Steps (Leaves o) (handleScheduledPhase m) g := by
  unfold handleScheduledPhase
  have hdetected : m.driftDetected = o.driftDetected := by
    unfold AutoIndexer.driftDetected
    rw [annotations_of h]
  rw [spec_of h, hdetected]
  split
  · rename_i hs
    exact tells_ret (h.turn (.scheduledSuspended hp hs) (by simp))
  · rename_i hs
    refine (getJobStatus_steps g).bind ?_
    rintro r g1 ⟨hg, hr⟩
    have h1 := h.same hg
    cases r with
    | error e => exact tells_ret (h1.handling rfl rfl)
    | ok jobs =>
      obtain ⟨js, hl, rfl⟩ := hr jobs rfl
      dsimp only
      split
      · exact tells_ret (h1.turn (.scheduledRunning hp) (by simp))
      · rename_i hj
        split
        · rename_i hd
          split
          · exact tells_ret (h1.handling rfl rfl)
          · rename_i hpolicy
            rw [not_or] at hpolicy
            refine tells_ret (h1.turn (.drifted hp (by simpa using hs) hl (by omega) hd hpolicy.1
              hpolicy.2) (by simp))
        · exact tells_ret (h1.handling rfl rfl)

lemma handleSuspendedPhase_steps (h : Beginning o m g) (hp : o.status.indexingPhase = .suspended) :
    Steps (Leaves o) (handleSuspendedPhase m) g := by
  unfold handleSuspendedPhase
  rw [spec_of h]
  split
  · rename_i hs
    exact tells_ret (h.turn (.unsuspended hp (by simpa using hs)) (by simp))
  · exact tells_ret (h.handling rfl rfl)

lemma handleRunningPhase_steps (h : Beginning o m g) (hp : o.status.indexingPhase = .running) :
    Steps (Leaves o) (handleRunningPhase m) g := by
  unfold handleRunningPhase
  rw [spec_of h]
  refine (getJobStatus_steps g).bind ?_
  rintro r g1 ⟨hg, -⟩
  have h1 := h.same hg
  cases r with
  | error e => exact tells_ret (h1.handling rfl rfl)
  | ok jobs =>
    dsimp only
    split
    · split
      · exact tells_ret (h1.turn (.runningFailed hp) (by simp))
      · split
        · split
          · rename_i hc
            exact tells_ret (h1.turn (.runningScheduled hp hc) (by simp))
          · exact tells_ret (h1.turn (.runningCompleted hp) (by simp))
        · exact tells_ret (h1.handling rfl rfl)
    · exact tells_ret (h1.handling rfl rfl)

/-! ### Drift remediation -/

/-- A patch that leaves the finalizers alone was accepted: what came back is the object in
memory. -/
lemma Handling.patched {m' original o' : AutoIndexer} (h : Handling o m' g)
    (hf : m'.finalizers = original.finalizers) :
    Handling o o' (note g (.patch original m') (.ok o')) := by
  refine ⟨?_, ?_, ?_, ?_, o', ?_, rfl, .same (.refl _)⟩
  · simpa [note, hf, Knows.Live] using h.live
  · simpa [note, hf] using h.base
  · simpa [note, hf] using h.sent
  · simpa [note, hf] using h.released
  · simp [note, hf]

lemma setSuspendedState_steps {b : Bool} (h : Beginning o m g)
    (hl : Lawful g (.patch m (m.withSpec { m.spec with suspend := some b }))) :
    Steps (Leaves o) (setSuspendedState m b) g := by
  have hm : Handling o (m.withSpec { m.spec with suspend := some b }) g := h.handling rfl rfl
  unfold setSuspendedState
  extract_lets existing m'
  split
  · refine tells_ask hl fun r => ?_
    cases r with
    | error e => exact tells_ret hm
    | ok o' => exact tells_ret (hm.patched rfl)
  · exact tells_ret hm

lemma finishRemediation_steps (h : Beginning o m g) (hrem : Remediating o g.listing) :
    Steps (Leaves o) (finishRemediation m) g := by
  refine tells_ask (.plain trivial) fun t => ?_
  have ht := h.ticked t
  set g1 := note g .now t with hg1
  have hrem1 : Remediating o g1.listing := hrem
  have hmemory : ∀ m', m'.status = (resetStatus m).status →
      m'.resourceVersion = m.resourceVersion → Handling o m' g1 := by
    intro m' hs hv
    refine ⟨ht.live, ht.base, ht.sent, ht.released, o, ht.read, ?_, ?_⟩
    · obtain ⟨cs, -, rfl⟩ := h.memory
      exact hv
    · rw [hs]
      obtain ⟨cs, hc, rfl⟩ := h.memory
      have hreset : (resetStatus (o.withStatus { o.status with conditions := cs })).status =
          { (resetStatus o).status with conditions := cs } := by
        unfold resetStatus
        by_cases hg : o.spec.dataSource.type = .git <;> simp [hg, AutoIndexer.withStatus]
      rw [hreset]
      exact .reset rfl hrem1 hc
  change Steps _ (updateAnnotations { resetStatus m with annotations :=
    { (resetStatus m).annotations with lastDriftRemediated := some (Stamp.format t) } }
    (resetStatus m)) g1
  unfold updateAnnotations
  split
  · have hmark := hmemory { resetStatus m with annotations :=
        { (resetStatus m).annotations with lastDriftRemediated := some (Stamp.format t) } } rfl
      (resetStatus_resourceVersion m)
    refine tells_ask ?_ fun r => ?_
    · rw [resetStatus_annotations]
      exact .mark ht.read ht.base ht.live ht.memory hrem1 rfl
    · cases r with
      | error e => exact tells_ret hmark
      | ok o' => exact tells_ret (hmark.patched rfl)
  · exact tells_ret (hmemory _ rfl (resetStatus_resourceVersion m))

/-- What an attempt to delete an index leaves of what has been told. -/
structure Untouched (g g' : Knows) : Prop where
  got : g'.got = g.got
  read : g'.read = g.read
  base : g'.base = g.base
  listing : g'.listing = g.listing
  sent : g'.sent = g.sent
  released : g'.released = g.released

lemma deleteIndex_steps {ragEngine index ns : String} (hl : ∀ g', Untouched g g' →
      Lawful g' (.httpDeleteIndex (generateRAGEngineEndpoint ragEngine ns) index)) :
    Steps (fun e g' => Untouched g g' ∧ (e = none → g'.deleted = true))
      (deleteIndex ragEngine index ns) g := by
  have hattempt : ∀ g', Untouched g g' →
      Steps (fun r g'' => Untouched g g'' ∧ (r = .ok () → g''.deleted = true))
        (deleteIndexAttempt (generateRAGEngineEndpoint ragEngine ns) index) g' := by
    intro g' hg
    simp only [deleteIndexAttempt, ask_bind]
    refine tells_ask (hl g' hg) fun r => ?_
    cases r with
    | error e => exact tells_ret ⟨⟨hg.got, hg.read, hg.base, hg.listing, hg.sent, hg.released⟩, by simp⟩
    | ok n =>
      dsimp only
      split
      · exact tells_ret ⟨⟨hg.got, hg.read, hg.base, hg.listing, hg.sent, hg.released⟩, by simp⟩
      · rename_i hn
        refine tells_ret ⟨⟨hg.got, hg.read, hg.base, hg.listing, hg.sent, hg.released⟩, fun _ => ?_⟩
        have hn : n = 200 ∨ n = 404 := by tauto
        simpa [note] using hn
  have hretry : ∀ n, ∀ g', Untouched g g' →
      Steps (fun r g'' => Untouched g g'' ∧ (r = .ok () → g''.deleted = true))
        (retry (deleteIndexAttempt (generateRAGEngineEndpoint ragEngine ns) index) n) g' := by
    intro n
    induction n with
    | zero => exact hattempt
    | succ n ih =>
      intro g' hg
      refine (hattempt g' hg).bind ?_
      rintro r g'' ⟨hg, hr⟩
      cases r with
      | ok u => exact tells_ret ⟨hg, hr⟩
      | error e => exact ih g'' hg
  refine (hretry maxRetries g ⟨rfl, rfl, rfl, rfl, rfl, rfl⟩).bind ?_
  rintro r g' ⟨hg, hr⟩
  cases r with
  | ok u => exact tells_ret ⟨hg, fun _ => hr rfl⟩
  | error e => exact tells_ret ⟨hg, by simp⟩

lemma listIndexes_steps (ragEngine ns : String) (g : Knows) :
    Steps (fun _ g' => g' = g) (listIndexes ragEngine ns) g := by
  have hcalls : Obeys (fun c => ∃ e, c = .httpGetIndexes e) (fun _ => True)
      (listIndexes ragEngine ns) := by
    have hattempt : Obeys (fun c => ∃ e, c = .httpGetIndexes e) (fun _ => True)
        (ask (.httpGetIndexes (generateRAGEngineEndpoint ragEngine ns))) :=
      ⟨⟨_, rfl⟩, fun _ => trivial⟩
    refine Obeys.bind (obeys_retry hattempt _) fun r _ => ?_
    cases r <;> trivial
  refine (hcalls.tells (J := (· = g)) ?_ ?_ rfl).mono (fun _ _ h => h) fun _ _ h => h.2
  · rintro g1 _ - ⟨e, rfl⟩
    exact .plain trivial
  · rintro g1 _ r ⟨e, rfl⟩ rfl
    rfl

lemma remediate_steps (h : Beginning o m g) (hp : o.status.indexingPhase = .driftRemediation)
    (ht : o.driftDetected = true) (ha : o.spec.driftRemediationPolicy = some .auto)
    (hs : o.spec.suspended = true) (hr : driftRemediated o.annotations = false) :
    Steps (Leaves o) (remediate m) g := by
  unfold remediate
  refine (getJobStatus_steps g).bind ?_
  rintro r g1 ⟨hg, hr1⟩
  have h1 := h.same hg
  cases r with
  | error e => exact tells_ret (h1.handling rfl rfl)
  | ok jobs =>
    obtain ⟨js, hl, rfl⟩ := hr1 jobs rfl
    dsimp only
    split
    · exact tells_ret (h1.handling rfl rfl)
    · rename_i hj
      have hrem : ∀ g' : Knows, g'.listing = g1.listing → Remediating o g'.listing := fun g' hg' =>
        ⟨hp, ht, ha, hs, hr, js, hg'.trans hl, by omega⟩
      refine (listIndexes_steps _ _ g1).bind ?_
      rintro r _ rfl
      cases r with
      | error e => exact tells_ret (h1.handling rfl rfl)
      | ok indexes =>
        dsimp only
        split
        · refine (deleteIndex_steps fun g' hg' => ?_).bind ?_
          · refine .remediate (hg'.read.trans h1.read) (hg'.base.trans h1.base)
              (by simpa [Knows.Live, hg'.got] using h1.live) ⟨?_, ?_⟩ (hrem g' hg'.listing)
            · obtain ⟨cs, -, rfl⟩ := h.memory
              rfl
            · rw [spec_of h]
          · rintro e g' ⟨hg', -⟩
            have h' : Beginning o m g' :=
              ⟨by simpa [Knows.Live, hg'.got] using h1.live, hg'.read.trans h1.read,
                hg'.base.trans h1.base, hg'.sent.trans h1.sent, hg'.released.trans h1.released,
                h1.memory⟩
            cases e with
            | some e => exact tells_ret (h'.handling rfl rfl)
            | none => exact finishRemediation_steps h' (hrem g' hg'.listing)
        · exact finishRemediation_steps h1 (hrem _ rfl)

lemma handleDriftRemediationPhase_steps (h : Beginning o m g)
    (hp : o.status.indexingPhase = .driftRemediation) :
    Steps (Leaves o) (handleDriftRemediationPhase m) g := by
  unfold handleDriftRemediationPhase
  have hdetected : m.driftDetected = o.driftDetected := by
    unfold AutoIndexer.driftDetected
    rw [annotations_of h]
  rw [spec_of h, hdetected, annotations_of h]
  split
  · rename_i hi
    exact tells_ret (h.turn (.driftIgnored hp hi) (by simp))
  · rename_i hi
    split
    · rename_i hd
      have hd : o.driftDetected = false := by simpa using hd
      split
      · rename_i hs
        exact setSuspendedState_steps h (.resume h.read h.base h.live h.memory hp hd hi hs)
      · rename_i hs
        exact tells_ret (h.turn (.driftOver hp hi hd (by simpa using hs)) (by simp))
    · rename_i hd
      have hd : o.driftDetected = true := by simpa using hd
      split
      · exact tells_ret (h.handling rfl rfl)
      · rename_i hpolicy
        have ha : o.spec.driftRemediationPolicy = some .auto := by
          rw [not_or] at hpolicy
          cases hpol : o.spec.driftRemediationPolicy with
          | none => exact absurd hpol hpolicy.1
          | some s => cases s <;> simp_all
        split
        · rename_i hs
          have hs : o.spec.suspended = false := by simpa using hs
          exact setSuspendedState_steps h (.suspend h.read h.base h.live h.memory hp hd ha hs)
        · rename_i hs
          split
          · exact tells_ret (h.handling rfl rfl)
          · rename_i hr
            exact remediate_steps h hp hd ha (by simpa using hs) (by simpa using hr)

/-! ### A reconcile -/

lemma handlePhase_steps (h : Beginning o m g) : Steps (Leaves o) (handlePhase m) g := by
  unfold handlePhase
  rw [phase_of h]
  split
  · rename_i hp
    exact handlePendingPhase_steps h hp
  · rename_i hp
    exact handleScheduledPhase_steps h hp
  · rename_i hp
    exact handleSuspendedPhase_steps h hp
  · rename_i hp
    exact handleRunningPhase_steps h hp
  · exact tells_ret (h.handling rfl rfl)
  · exact tells_ret (h.handling rfl rfl)
  · rename_i hp
    exact handleDriftRemediationPhase_steps h hp
  · rename_i hp
    exact tells_ret (h.turn (.start hp) (by simp))

lemma syncAutoIndexer_steps (hr : g.read = some o) (hb : g.base = some o) (hd : g.Live)
    (hs : g.sent = false) (hf : g.released = false) :
    Steps (fun _ g' => g'.Live ∧ g'.released = false) (syncAutoIndexer o) g := by
  refine (steps_of_plain (plain_ensureRequiredResources o) g).bind ?_
  rintro ⟨m, e⟩ g1 ⟨hm, hg⟩
  have h1 : Beginning o m g1 :=
    ⟨by simpa [Knows.Live, hg.got] using hd, hg.read.trans hr, hg.base.trans hb,
      hg.sent.trans hs, hg.released.trans hf, hm⟩
  cases e with
  | some e => exact patchAndReturn_steps (h1.handling rfl rfl) _
  | none =>
    refine (handlePhase_steps h1).bind ?_
    rintro ⟨m1, e⟩ g2 h2
    cases e with
    | some e =>
      refine (setAutoIndexerCondition_steps h2 (.inl rfl) _ _ _).bind fun m2 g3 h3 => ?_
      exact patchAndReturn_steps h3 _
    | none =>
      refine (setAutoIndexerCondition_steps h2 (.inl rfl) _ _ _).bind fun m2 g3 h3 => ?_
      refine (setAutoIndexerCondition_steps h3 (.inr rfl) _ _ _).bind fun m3 g4 h4 => ?_
      exact patchAndReturn_steps h4 _

lemma ensureFinalizer_steps (hr : g.read = some o) (hb : g.base = some o) (hd : g.Live)
    (hs : g.sent = false) (hf : g.released = false) :
    Steps (fun r g' => g'.Live ∧ g'.sent = false ∧ g'.released = false ∧
      (r.2 = none → g'.read = some r.1 ∧ g'.base = some r.1)) (ensureFinalizer o) g := by
  unfold ensureFinalizer
  split
  · exact tells_ret ⟨hd, hs, hf, fun _ => ⟨hr, hb⟩⟩
  · rename_i hfin
    refine tells_ask (.addFinalizer hr hb hd hfin) fun r => ?_
    cases r with
    | error e => exact tells_ret ⟨hd, hs, hf, by simp⟩
    | ok o' =>
      exact tells_ret ⟨by simpa [note, Knows.Live] using hd, by simpa [note] using hs,
        by simpa [note] using hf⟩

/-- What is known when a reconcile returns. -/
structure Ends (e : Err) (g : Knows) : Prop where
  released : g.released = true → e = none
  idle : g.released = true → ∃ js, g.listing = some js ∧ ∀ j ∈ js, j.active = 0
  /-- Once the index is gone the finalizer is taken away, or an error returned. -/
  collected : ∀ o, g.got = some o → o.deleting = true → autoIndexerFinalizer ∈ o.finalizers →
    g.deleted = true → e = none → g.released = true

lemma ends_of_live {e : Err} (hd : g.Live) (hf : g.released = false) : Ends e g := by
  refine ⟨by simp [hf], by simp [hf], fun o ho hdel => ?_⟩
  obtain ⟨x, hx, hlive⟩ := hd
  rw [ho] at hx
  cases hx
  rw [hdel] at hlive
  cases hlive

lemma garbageCollectAutoIndexer_steps (hr : g.got = some o) (hd : o.deleting = true)
    (hf : g.released = false) (hn : g.deleted = false) :
    Steps Ends (garbageCollectAutoIndexer o) g := by
  unfold garbageCollectAutoIndexer
  refine tells_ask (.plain trivial) fun r => ?_
  cases r with
  | error e => exact tells_ret ⟨by simp [note, hf], by simp [note, hf], by simp [note, hn]⟩
  | ok jobs =>
    set g1 := note g .listJobs (.ok jobs) with hg1
    change Steps _ (if (jobs.any fun j => j.active ≠ 0) = true then _ else _) g1
    split
    · exact tells_ret ⟨by simp [hg1, note, hf], by simp [hg1, note, hf], by simp [hg1, note, hn]⟩
    · rename_i hj
      have hj : ∀ j ∈ jobs, j.active = 0 := by simpa using hj
      refine (deleteIndex_steps fun g' hg' => ?_).bind ?_
      · exact .collect (hg'.got.trans hr) hd ⟨rfl, rfl⟩ hg'.listing hj
      · rintro e g' ⟨hg', hdel⟩
        have hf' : g'.released = false := hg'.released.trans hf
        have hgot : g'.got = some o := hg'.got.trans hr
        cases e with
        | some e => exact tells_ret ⟨by simp [hf'], by simp [hf'], by simp⟩
        | none =>
          dsimp only
          split
          · rename_i hfin
            refine tells_ask (.release hgot hd hg'.listing hj (hdel rfl) hfin) fun r => ?_
            cases r with
            | error e => exact tells_ret ⟨by simp [note, hf'], by simp [note, hf'], by simp [errOf]⟩
            | ok u =>
              exact tells_ret ⟨fun _ => rfl, fun _ => ⟨jobs, hg'.listing, hj⟩, fun _ _ _ _ _ _ => rfl⟩
          · rename_i hfin
            refine tells_ret ⟨by simp [hf'], by simp [hf'], fun x hx _ hmem => ?_⟩
            rw [hgot] at hx
            cases hx
            exact absurd hmem hfin

/-- **Every call of a reconcile is lawful**, and when it takes the finalizer away it returns no
error. -/
theorem reconcile_steps : Steps Ends reconcile fresh := by
  have hfail : ∀ e r, Ends e (note fresh .get (.error r)) :=
    fun e r => ⟨by simp [note, fresh], by simp [note, fresh], by simp [note, fresh]⟩
  refine tells_ask (.get rfl) fun r => ?_
  match r with
  | .error .notFound => exact tells_ret (hfail _ _)
  | .error .conflict => exact tells_ret (hfail _ _)
  | .error (.other m) => exact tells_ret (hfail _ _)
  | .ok o =>
    set g := note fresh .get (.ok o) with hg
    change Steps _ (reconcileObject o) g
    unfold reconcileObject
    split
    · rename_i hd
      exact garbageCollectAutoIndexer_steps rfl hd rfl rfl
    · rename_i hd
      have hlive : g.Live := ⟨o, rfl, by simpa using hd⟩
      refine (ensureFinalizer_steps rfl rfl hlive rfl rfl).bind ?_
      rintro ⟨o1, e⟩ g1 ⟨hlive, hs, hf, h1⟩
      cases e with
      | some e => exact tells_ret (ends_of_live hlive hf)
      | none =>
        obtain ⟨hr, hb⟩ := h1 rfl
        refine (syncAutoIndexer_steps hr hb hlive hs hf).mono (fun _ _ h => h) ?_
        rintro e g' ⟨hlive', hf'⟩
        exact ends_of_live hlive' hf'

end KaitoAutoIndexer.ControllerSteps
