import KaitoAutoIndexer.SystemSteps
import KaitoAutoIndexer.GitSpec

/-!
Whether writes of the status get lost between the job and the controller: each reads the object,
changes what it means to set, and writes.
-/

namespace KaitoAutoIndexer.LostUpdates

open KaitoAutoIndexer.Lib KaitoAutoIndexer.Types KaitoAutoIndexer.Conditions
open KaitoAutoIndexer.Cluster KaitoAutoIndexer.Controller KaitoAutoIndexer.JobClient
open KaitoAutoIndexer.System KaitoAutoIndexer.SystemSteps
open KaitoAutoIndexer.JobSteps (Told)
open KaitoAutoIndexer.ControllerSpec (demo demoWorld)
open KaitoAutoIndexer.GitSpec (demoRemote)

/-! ### What was meant to be written -/

/-- The status that an operation started from, and the one that it writes: it means to set what is
different in them. -/
structure Write where
  before : Status
  after : Status
  deriving DecidableEq

/-- The value of the last write that meant to set it; the writes are listed backwards. -/
def lastSet {β : Type} [DecidableEq β] (f : Status → β) (initial : Status) : List Write → β
  | [] => f initial
  | x :: writes => pick (f x.before) (f x.after) (lastSet f initial writes)

/-- The entries of a condition type. -/
def entries (t : String) (s : Status) : List Condition := ofType t s.conditions

/-- Each field, and the entries of each condition type, are as they were last meant to be. -/
structure Kept (initial : Status) (writes : List Write) (s : Status) : Prop where
  conditions : ∀ t, entries t s = lastSet (entries t) initial writes
  timestamp : s.lastIndexingTimestamp = lastSet Status.lastIndexingTimestamp initial writes
  commit : s.lastIndexedCommit = lastSet Status.lastIndexedCommit initial writes
  duration : s.lastIndexingDurationSeconds = lastSet Status.lastIndexingDurationSeconds initial writes
  phase : s.indexingPhase = lastSet Status.indexingPhase initial writes
  successes : s.successfulIndexingCount = lastSet Status.successfulIndexingCount initial writes
  errors : s.errorIndexingCount = lastSet Status.errorIndexingCount initial writes
  documents : s.numOfDocumentInIndex = lastSet Status.numOfDocumentInIndex initial writes

/-- The conditions that the write does not set are those that are stored. -/
def Write.Fits (x : Write) (s : Status) : Prop :=
  ∀ t, entries t x.before = entries t x.after → entries t s = entries t x.before

variable {initial s : Status} {writes : List Write} {x : Write}

/-- A field of a status that the API server merges alone. -/
lemma lastSet_merge {β : Type} [DecidableEq β] {f : Status → β}
    (hf : ∀ a b c, f (mergeStatus a b c) = pick (f a) (f b) (f c))
    (h : f s = lastSet f initial writes) :
    f (mergeStatus x.before x.after s) = lastSet f initial (x :: writes) := by
  rw [hf, h]
  rfl

/-- The list of the conditions is replaced as a whole: what the write does not set has to fit. -/
lemma entries_replace_iff (h : ∀ t, entries t s = lastSet (entries t) initial writes) :
    (∀ t, entries t x.after = lastSet (entries t) initial (x :: writes)) ↔ x.Fits s := by
  have hlast : ∀ t, lastSet (entries t) initial (x :: writes) =
      if entries t x.before = entries t x.after then entries t s else entries t x.after := by
    intro t
    rw [h t]
    rfl
  constructor
  · intro hnext t hsame
    have hset := hnext t
    rw [hlast, if_pos hsame] at hset
    rw [← hset, hsame]
  · intro hx t
    rw [hlast]
    split
    · rename_i hsame
      rw [hx t hsame, hsame]
    · rfl

/-- A merge keeps what was meant to be written if and only if it leaves the list of the conditions
or what it does not set fits. -/
lemma Kept.merge_iff (h : Kept initial writes s) :
    Kept initial (x :: writes) (mergeStatus x.before x.after s) ↔
      x.before.conditions = x.after.conditions ∨ x.Fits s := by
  have hfields : (∀ t, entries t (mergeStatus x.before x.after s) =
      lastSet (entries t) initial (x :: writes)) →
      Kept initial (x :: writes) (mergeStatus x.before x.after s) := fun hconditions =>
    ⟨hconditions, lastSet_merge (fun _ _ _ => rfl) h.timestamp,
      lastSet_merge (fun _ _ _ => rfl) h.commit, lastSet_merge (fun _ _ _ => rfl) h.duration,
      lastSet_merge (fun _ _ _ => rfl) h.phase, lastSet_merge (fun _ _ _ => rfl) h.successes,
      lastSet_merge (fun _ _ _ => rfl) h.errors, lastSet_merge (fun _ _ _ => rfl) h.documents⟩
  by_cases hsame : x.before.conditions = x.after.conditions
  · refine ⟨fun _ => .inl hsame, fun _ => hfields fun t => ?_⟩
    have hstored : entries t (mergeStatus x.before x.after s) = entries t s := by
      simp [entries, mergeStatus, hsame]
    have hunset : entries t x.before = entries t x.after := congrArg (ofType t) hsame
    rw [hstored, h.conditions t]
    simp [lastSet, hunset]
  · have hreplaced : ∀ t, entries t (mergeStatus x.before x.after s) = entries t x.after := by
      intro t
      simp [entries, mergeStatus, pick, hsame]
    refine ⟨fun hnext => .inr ((entries_replace_iff h.conditions).mp fun t => ?_), fun hx => hfields fun t => ?_⟩
    · rw [← hreplaced t]
      exact hnext.conditions t
    · rw [hreplaced t]
      exact (entries_replace_iff h.conditions).mpr (hx.resolve_left hsame) t

/-- A write of the whole status keeps it as well, if it was made of the status that is stored, but
for the conditions. -/
lemma Kept.replace (h : Kept initial writes s)
    (hs : x.before = { s with conditions := x.before.conditions }) (hx : x.Fits s) :
    Kept initial (x :: writes) x.after := by
  have hfield : ∀ {β : Type} [DecidableEq β] {f : Status → β}, f x.before = f s →
      f s = lastSet f initial writes → f x.after = lastSet f initial (x :: writes) := by
    intro β _ f hb hf
    change f x.after = pick (f x.before) (f x.after) (lastSet f initial writes)
    rw [hb, ← hf, pick_original]
  refine ⟨(entries_replace_iff h.conditions).mpr hx, hfield ?_ h.timestamp, hfield ?_ h.commit,
    hfield ?_ h.duration, hfield ?_ h.phase, hfield ?_ h.successes, hfield ?_ h.errors,
    hfield ?_ h.documents⟩ <;> rw [hs]

/-! ### The record -/

/-- What is kept of a run of the system. -/
structure Record where
  /-- The status at the start. -/
  initial : Status
  /-- The writes of the status that were accepted, and those of the job that were stale. -/
  writes : List Write
  /-- How many writes of the job were stale. -/
  dropped : ℕ

/-- What the job has made its write of: the object it has read last, but in the update of a handler
the conditions of the object it read before. -/
def origin (g : Told) (body : AutoIndexer) : Status :=
  match g.reads, g.got with
  | 1, .ok r :: .ok b :: _ => { r.status with conditions := b.status.conditions }
  | _, .ok r :: _ => r.status
  | _, _ => body.status

def jobWrite (g : Told) (body : AutoIndexer) : Write := ⟨origin g body, body.status⟩

def Record.add (g : Record) (x : Write) : Record := { g with writes := x :: g.writes }

def keep (x : World × account.Notes × Record) : system.Event → Record
  | .call .controller (.patchStatus a b) (.ok _) => x.2.2.add ⟨a.status, b.status⟩
  | .call .job (.patchStatus body) (.ok _) => x.2.2.add (jobWrite (x.2.1 .job) body)
  | .call .job (.patchStatus body) (.error .conflict) =>
    { x.2.2.add (jobWrite (x.2.1 .job) body) with dropped := x.2.2.dropped + 1 }
  | _ => x.2.2

/-- The version of the object that the job has read last. -/
def readVersion (g : Told) : Option ℕ :=
  match g.got with
  | .ok r :: _ => some r.resourceVersion
  | _ => none

/-- Between the reads of an operation and its write, nobody else writes: what the job has read last
is still stored, and a list of conditions that is replaced holds what was read of the types that the
operation does not set. -/
def Undisturbed (x : World × account.Notes × Record) : system.Event → Prop
  | .call .controller (.patchStatus a b) (.ok _) => ∀ o, x.1.stored = some o →
      a.status.conditions = b.status.conditions ∨ Write.Fits ⟨a.status, b.status⟩ o.status
  | .call .job (.patchStatus _) (.error (.other _)) => True
  | .call .job (.patchStatus body) _ => ∀ o, x.1.stored = some o →
      readVersion (x.2.1 .job) = some o.resourceVersion ∧ (jobWrite (x.2.1 .job) body).Fits o.status
  | _ => True

/-- No operation is under way, and nothing was written. -/
def Opening (s : System.Config system (account.Notes × Record)) : Prop :=
  Start s ∧ s.record.2.writes = [] ∧ s.record.2.dropped = 0 ∧
    ∀ o, s.world.stored = some o → o.status = s.record.2.initial

variable {cond : World × account.Notes × Record → system.Event → Prop}
  {s : System.Config system (account.Notes × Record)} {w w' : World} {k : account.Notes}
  {g : Record} {e : system.Event} {body : AutoIndexer}

/-- The job sends the version that it has read. -/
lemma readVersion_of_lawful {g : Told} (h : JobSteps.Lawful g (.patchStatus body)) :
    readVersion g = some body.resourceVersion := by
  cases h with
  | condition hn hr => simp [readVersion, hr, AutoIndexer.withStatus]
  | base hn hr => simp [readVersion, hr, AutoIndexer.withStatus]
  | completion _ hn hr => simp [readVersion, hr, AutoIndexer.withStatus]

/-- The job writes what it has read last, with the conditions of its operation. -/
lemma origin_of_lawful {o : AutoIndexer} (hk : Snapshots w k) (ho : w.stored = some o)
    (hl : JobSteps.Lawful (k .job : Told) (.patchStatus body))
    (hv : o.resourceVersion = body.resourceVersion) :
    origin (k .job) body = { o.status with conditions := (origin (k .job) body).conditions } := by
  have hread : ∀ r rest, (k .job : Told).got = .ok r :: rest →
      body.resourceVersion = r.resourceVersion → o = r :=
    fun r rest hgot hr => eq_of_read hk ho hgot (hv.trans hr)
  cases hl with
  | condition hn hr =>
    obtain rfl := hread _ _ hr rfl
    simp [origin, hn, hr]
  | base hn hr =>
    obtain rfl := hread _ _ hr rfl
    simp [origin, hn, hr]
  | completion _ hn hr =>
    obtain rfl := hread _ _ hr rfl
    simp [origin, hn, hr]

/-! ### The invariant -/

structure Inv (w : World) (g : Record) : Prop where
  kept : ∀ o, w.stored = some o → Kept g.initial g.writes o.status
  dropped : g.dropped = 0

/-- Whatever does not write the status. -/
lemma inv_other (hk : Sound w k) (hl : account.Allows k e) (h : system.Happens w e w')
    (hc : ∀ a b u, e ≠ .call .controller (.patchStatus a b) (.ok u))
    (hj : ∀ body u, e ≠ .call .job (.patchStatus body) (.ok u)) (hinv : Inv w g) : Inv w' g := by
  refine ⟨fun o' ho' => ?_, hinv.dropped⟩
  obtain ⟨o, ho, hrestated⟩ := restated_of_happens hk.snapshots hl h ho'
  generalize o'.status = st at hrestated
  cases hrestated with
  | merged => exact absurd rfl (hc _ _ ())
  | sent => exact absurd rfl (hj _ ())
  | kept => exact hinv.kept o ho

lemma inv_merge {a b : AutoIndexer} (hk : Sound w k)
    (hl : account.Allows k (.call .controller (.patchStatus a b) (.ok ())))
    (h : system.Happens w (.call .controller (.patchStatus a b) (.ok ())) w')
    (hc : Undisturbed (w, k, g) (.call .controller (.patchStatus a b) (.ok ()))) (hinv : Inv w g) :
    Inv w' (g.add ⟨a.status, b.status⟩) := by
  refine ⟨fun o' ho' => ?_, hinv.dropped⟩
  obtain ⟨o, ho, hrestated⟩ := restated_of_happens hk.snapshots hl h ho'
  generalize o'.status = st at hrestated
  cases hrestated with
  | merged => exact (Kept.merge_iff (x := ⟨a.status, b.status⟩) (hinv.kept o ho)).mpr (hc o ho)
  | kept hn => exact absurd rfl (hn a b ())

lemma inv_sent (hk : Sound w k) (hl : account.Allows k (.call .job (.patchStatus body) (.ok ())))
    (h : system.Happens w (.call .job (.patchStatus body) (.ok ())) w')
    (hc : Undisturbed (w, k, g) (.call .job (.patchStatus body) (.ok ()))) (hinv : Inv w g) :
    Inv w' (g.add (jobWrite (k .job) body)) := by
  refine ⟨fun o' ho' => ?_, hinv.dropped⟩
  obtain ⟨o, ho, hrestated⟩ := restated_of_happens hk.snapshots hl h ho'
  generalize o'.status = st at hrestated
  cases hrestated with
  | sent hv =>
    exact (hinv.kept o ho).replace (x := jobWrite (k .job) body)
      (origin_of_lawful hk.snapshots ho hl hv) (hc o ho).2
  | kept _ hn => exact absurd rfl (hn body ())

/-- A write of what is stored is not stale. -/
lemma not_conflict (hl : account.Allows k (.call .job (.patchStatus body) (.error .conflict)))
    (hc : Undisturbed (w, k, g) (.call .job (.patchStatus body) (.error .conflict)))
    (h : system.Happens w (.call .job (.patchStatus body) (.error .conflict)) w') : False := by
  rcases h with h | ⟨-, -, m, hm⟩
  · unfold patchJobStatus at h
    split at h
    · rename_i o ho
      have hversion : o.resourceVersion = body.resourceVersion :=
        Option.some.inj ((hc o ho).1.symm.trans (readVersion_of_lawful hl))
      rw [if_neg (not_not.mpr hversion)] at h
      cases h
    · cases h
  · cases hm

lemma inv_controller {c : Call} {r : Answer c} (hk : Sound w k) (hinv : Inv w g)
    (hc : Undisturbed (w, k, g) (.call .controller c r)) (hl : account.Allows k (.call .controller c r))
    (h : system.Happens w (.call .controller c r) w') :
    Inv w' (keep (w, k, g) (.call .controller c r)) := by
  cases c with
  | patchStatus a b =>
    cases r with
    | ok u => exact inv_merge hk hl h hc hinv
    | error e => exact inv_other hk hl h (by simp) (by simp) hinv
  | _ => exact inv_other hk hl h (by simp) (by simp) hinv

lemma inv_job {c : JobCall} {r : JobAnswer c} (hk : Sound w k) (hinv : Inv w g)
    (hc : Undisturbed (w, k, g) (.call .job c r)) (hl : account.Allows k (.call .job c r))
    (h : system.Happens w (.call .job c r) w') : Inv w' (keep (w, k, g) (.call .job c r)) := by
  cases c with
  | patchStatus body =>
    cases r with
    | ok u => exact inv_sent hk hl h hc hinv
    | error e =>
      cases e with
      | conflict => exact (not_conflict hl hc h).elim
      | notFound => exact inv_other hk hl h (by simp) (by simp) hinv
      | other m => exact inv_other hk hl h (by simp) (by simp) hinv
  | _ => exact inv_other hk hl h (by simp) (by simp) hinv

lemma inv_step (hk : Sound w k) (hinv : Inv w g) (hc : Undisturbed (w, k, g) e)
    (hl : account.Allows k e) (h : system.Happens w e w') : Inv w' (keep (w, k, g) e) := by
  match e with
  | .call .controller c r => exact inv_controller hk hinv hc hl h
  | .call .detector c r => exact inv_other hk hl h (by simp) (by simp) hinv
  | .call .job c r => exact inv_job hk hinv hc hl h
  | .begin i => exact inv_other hk hl h (by simp) (by simp) hinv
  | .finish i a => exact inv_other hk hl h (by simp) (by simp) hinv
  | .crash i => exact inv_other hk hl h (by simp) (by simp) hinv
  | .act a => exact inv_other hk hl h (by simp) (by simp) hinv

/-! ### Runs -/

/-- **No write of the status is lost**, in every run in which nobody else writes between the reads
of an operation and its write: each field, and the entries of each condition type, are those of the
last write that meant to set them, and no write of the job was dropped for its version. -/
theorem nothing_lost {o : AutoIndexer}
    (h : System.Reach (account.observer keep) Undisturbed Opening s) (ho : s.world.stored = some o) :
    Kept s.record.2.initial s.record.2.writes o.status ∧ s.record.2.dropped = 0 := by
  have hinv : Sound s.world s.record.1 ∧ Inv s.world s.record.2 := by
    refine invariant_of_reach (I := fun x => Inv x.1 x.2.2) ?_
      (fun w k g e w' hk hinv hc hl hw => inv_step hk hinv hc hl hw) h
    rintro s ⟨hstart, hwrites, hdropped, hinitial⟩
    refine ⟨hstart, fun o ho => ?_, hdropped⟩
    change Kept s.record.2.initial s.record.2.writes o.status
    rw [hwrites, hinitial o ho]
    exact ⟨fun _ => rfl, rfl, rfl, rfl, rfl, rfl, rfl, rfl⟩
  exact ⟨hinv.2.kept o ho, hinv.2.dropped⟩

/-! ### A reconcile while a job starts -/

/-- A test for `Undisturbed`: the conditions are those that were read. -/
def undisturbedTest (x : World × account.Notes × Record) : system.Event → Bool
  | .call .controller (.patchStatus a b) (.ok _) => x.1.stored.all fun o =>
      a.status.conditions == b.status.conditions || o.status.conditions == a.status.conditions
  | .call .job (.patchStatus body) _ => x.1.stored.all fun o =>
      readVersion (x.2.1 .job) == some o.resourceVersion &&
        o.status.conditions == (origin (x.2.1 .job) body).conditions
  | _ => true

lemma undisturbed_of_test {x : World × account.Notes × Record} (h : undisturbedTest x e = true) :
    Undisturbed x e := by
  unfold Undisturbed
  split
  · intro o ho
    simp only [undisturbedTest, ho, Option.all_some, Bool.or_eq_true, beq_iff_eq] at h
    exact h.imp id fun hsame t _ => congrArg (ofType t) hsame
  · trivial
  · intro o ho
    simp only [undisturbedTest, ho, Option.all_some, Bool.and_eq_true, beq_iff_eq] at h
    exact ⟨h.1, fun t _ => congrArg (ofType t) h.2⟩
  · trivial

abbrev Configuration := System.Config system (account.Notes × Record)

def opened : Configuration := before demoWorld ⟨demo.status, [], 0⟩

/-- A job begins. -/
def beginning (s : Configuration) : Configuration :=
  ⟨s.world, account.observer keep s.view (.begin .job),
    Function.update s.threads .job (some (Job.main (demoRemote [])))⟩

/-- The next `n` calls of a job that goes on with `p`. -/
def worked (test : World × account.Notes × Record → system.Event → Bool) (n : ℕ) (p : Py (Option Bool))
    (s : Configuration) : Configuration :=
  let y := working keep test n p s
  ⟨y.2.1.1, y.2.1.2, Function.update s.threads .job (some y.1)⟩

/-- What a job still has to do after its first `n` calls. -/
def resting (n : ℕ) : Py (Option Bool) :=
  (working keep undisturbedTest n (Job.main (demoRemote [])) (beginning opened)).1

/-- The job has made its first write. -/
def written : Configuration := worked undisturbedTest 5 (Job.main (demoRemote [])) (beginning opened)

/-- The controller reconciles the AutoIndexer then. -/
def visited : Configuration :=
  let y := calling keep undisturbedTest 60 written
  ⟨y.2.1.1, y.2.1.2, Function.update written.threads .controller (some y.1)⟩

/-- The job goes on to its end. -/
def untroubled : Configuration := worked undisturbedTest 40 (resting 5) visited

/-- The job has read the object for its first write. -/
def halfway : Configuration :=
  worked (fun _ _ => true) 4 (Job.main (demoRemote [])) (beginning opened)

/-- The controller has reconciled the AutoIndexer meanwhile, and the job writes. -/
def overtaken : Configuration := worked (fun _ _ => true) 1 (resting 4) (reconciling keep 60 halfway)

/-- The two runs, evaluated. -/
lemma two_runs :
    ((working keep undisturbedTest 5 (Job.main (demoRemote [])) (beginning opened)).2.2 = true ∧
      (calling keep undisturbedTest 60 written).2.2 = true ∧
      (working keep undisturbedTest 40 (resting 5) visited).2.2 = true ∧
      untroubled.world.stored.isSome = true ∧ untroubled.record.2.writes.length = 5) ∧
    (overtaken.world.stored.any fun o => decide (entries indexingType o.status ≠
      lastSet (entries indexingType) overtaken.record.2.initial overtaken.record.2.writes)) = true := by
  decide +kernel

variable {test : World × account.Notes × Record → system.Event → Bool}

lemma reach_beginning (hc : ∀ x, cond x (.begin .job)) :
    System.Reach (account.observer keep) cond Opening (beginning opened) := by
  have h0 : System.Reach (account.observer keep) cond Opening opened := by
    refine .init ⟨start_before demoWorld _, rfl, rfl, fun o ho => ?_⟩
    cases ho
    rfl
  exact reach_job h0 (demoRemote []) rfl (hc _)

/-- Four writes of a job, and one of a reconcile between two of them. -/
theorem nothing_lost_between : ∃ s o, System.Reach (account.observer keep) Undisturbed Opening s ∧
    s.world.stored = some o ∧ s.record.2.writes.length = 5 ∧
    Kept s.record.2.initial s.record.2.writes o.status ∧ s.record.2.dropped = 0 := by
  obtain ⟨⟨hfirst, hvisit, hrest, hstored, hwrites⟩, -⟩ := two_runs
  have hbegin : System.Reach (account.observer keep) Undisturbed Opening (beginning opened) :=
    reach_beginning fun _ => trivial
  have hwritten : System.Reach (account.observer keep) Undisturbed Opening written :=
    reach_working (fun _ _ => undisturbed_of_test) hbegin rfl 5 hfirst
  have hvisited : System.Reach (account.observer keep) Undisturbed Opening visited :=
    reach_calling (fun _ _ => undisturbed_of_test) hwritten rfl trivial 60 hvisit
  have hreach : System.Reach (account.observer keep) Undisturbed Opening untroubled :=
    reach_working (fun _ _ => undisturbed_of_test) hvisited rfl 40 hrest
  obtain ⟨o, ho⟩ := Option.isSome_iff_exists.mp hstored
  exact ⟨untroubled, o, hreach, ho, hwrites, nothing_lost hreach ho⟩

/-- A reconcile overtakes the first write of a job: it is stale, and nobody repeats it. -/
theorem not_nothing_lost :
    ¬ ∀ (s : Configuration) (o : AutoIndexer),
      System.Reach (account.observer keep) (fun _ _ => True) Opening s → s.world.stored = some o →
      Kept s.record.2.initial s.record.2.writes o.status ∧ s.record.2.dropped = 0 := by
  intro h
  obtain ⟨-, hlost⟩ := two_runs
  have h1 : System.Reach (account.observer keep) (fun _ _ => True) Opening halfway :=
    reach_working (fun _ _ _ => trivial) (reach_beginning fun _ => trivial) rfl 4
      (System.after_flag_eq_true _ _ _)
  have h2 := reach_reconciling h1 rfl 60
  have h3 : System.Reach (account.observer keep) (fun _ _ => True) Opening overtaken :=
    reach_working (fun _ _ _ => trivial) h2 rfl 1 (System.after_flag_eq_true _ _ _)
  cases ho : overtaken.world.stored with
  | none =>
    rw [ho] at hlost
    cases hlost
  | some o =>
    rw [ho, Option.any_some, decide_eq_true_eq] at hlost
    exact hlost ((h overtaken o h3 ho).1.conditions indexingType)

end KaitoAutoIndexer.LostUpdates
