import KaitoAutoIndexer.SystemSteps
import KaitoAutoIndexer.StatusUpdates
import KaitoAutoIndexer.FullPath

/-!
Whether a run that met errors is followed by a full one: the job records them in the condition
`AutoIndexerError`, which the controller writes as well.
-/

namespace KaitoAutoIndexer.Recovery

open KaitoAutoIndexer.Lib KaitoAutoIndexer.Types KaitoAutoIndexer.Conditions
open KaitoAutoIndexer.Rag KaitoAutoIndexer.Cluster KaitoAutoIndexer.Controller
open KaitoAutoIndexer.JobClient KaitoAutoIndexer.Git KaitoAutoIndexer.Kusto KaitoAutoIndexer.Job
open KaitoAutoIndexer.System KaitoAutoIndexer.SystemSteps
open KaitoAutoIndexer.FullPath (takesFullPath fullAnyway takesFullPath_iff)
open KaitoAutoIndexer.ControllerSteps (Knows)
open KaitoAutoIndexer.DetectorSteps (Seen)
open KaitoAutoIndexer.JobSteps (Told hear untold Works Working working_ask working_pure
  working_getAutoindexer working_updateIndex)
open KaitoAutoIndexer.ControllerSpec (demo demoWorld)
open KaitoAutoIndexer.GitSpec (demoRemote)
open KaitoAutoIndexer.StatusUpdates (outage jobServes_outage)

/-! ### The writes of a job -/

structure Course where
  /-- How often the job has written the status. -/
  writes : ℕ
  /-- A call to the API server has failed. -/
  refused : Bool
  /-- The third write records errors. -/
  marked : Bool

def begun : Course := ⟨0, false, false⟩

def follow (g : Course) : (c : JobCall) → JobAnswer c → Course
  | .getAutoIndexer, .error _ => { g with refused := true }
  | .patchStatus _, .error _ => { g with refused := true }
  | .patchStatus body, .ok _ =>
    { g with
      writes := g.writes + 1
      marked := if g.writes = 2 then hadErrors body.status.conditions else g.marked }
  | _, _ => g

def heed (g : Told × Course) (c : JobCall) (r : JobAnswer c) : Told × Course :=
  (hear g.1 c r, follow g.2 c r)

/-- A job writes the status four times at most, and the fourth time with the conditions it has read
last. -/
def Follows (g : Told × Course) : JobCall → Prop
  | .patchStatus body => ∃ r rest, g.1.got = .ok r :: rest ∧
      body.resourceVersion = r.resourceVersion ∧ (g.2.refused = false →
        g.2.writes ≤ 3 ∧ (g.2.writes = 3 → body.status.conditions = r.status.conditions))
  | _ => True

/-- A run with errors has written four times, and the third time it has recorded them. -/
def Leaves (a : Option Bool) (g : Told × Course) : Prop :=
  a = some false → g.2.refused = false → g.2.writes = 4 ∧ g.2.marked = true

/-- After `n` writes, unless a call has failed; the errors are recorded if `m`. -/
def At (n : ℕ) (m : Bool) (g : Told × Course) : Prop :=
  g.2.refused = true ∨ g.2.writes = n ∧ (m = true → g.2.marked = true)

abbrev Goes {α : Type} (Q : α → Told × Course → Prop) (p : Py α) (g : Told × Course) : Prop :=
  Tells heed Follows Q p g

section

variable {α : Type} {g : Told × Course} {n : ℕ} {m : Bool} {t : Target}

lemma At.heed {c : JobCall} (h : At n m g) (hc : Works True t c) (r : JobAnswer c) :
    At n m (heed g c r) := by
  cases c with
  | patchStatus body => exact hc.elim
  | getAutoIndexer =>
    cases r with
    | error e => exact .inl rfl
    | ok o => exact h
  | _ => exact h

lemma goes_of_working {P : α → Prop} {p : Py α} (hp : Obeys (Works True t) P p) (h : At n m g) :
    Goes (fun a g' => P a ∧ At n m g') p g := by
  refine hp.tells (fun g c _ hc => ?_) (fun g c r hc h => h.heed hc r) h
  cases c <;> first | exact hc.elim | trivial

/-- The object is read, or a call has failed. -/
lemma getAutoindexer_goes (g : Told × Course) :
    Goes (fun r g' => (∃ b, r = .ok (some b) ∧ g'.1.got = .ok b :: g.1.got ∧ g'.2 = g.2) ∨
      (∀ b, r ≠ .ok (some b)) ∧ g'.2.refused = true) getAutoindexer g := by
  refine tells_ask trivial fun r => ?_
  cases r with
  | ok o => exact tells_ret (.inl ⟨o, rfl, rfl, rfl⟩)
  | error e => cases e <;> exact tells_ret (.inr ⟨by simp, rfl⟩)

lemma hadErrors_added {c : Condition} (cs : List Condition) (ht : c.type = errorType)
    (hs : c.status = .true) : hadErrors (addCondition c cs) = true := by
  rw [hadErrors_addCondition _ ht, hs]
  rfl

/-- After a write, or an attempt of one. -/
lemma At.patch {m' : Bool} {body : AutoIndexer} (h : At n m g) (r : Except ApiError Unit)
    (hm : n ≠ 2 → m' = m) (hmark : n = 2 → m' = true → hadErrors body.status.conditions = true) :
    At (n + 1) m' (Recovery.heed g (.patchStatus body) r) := by
  cases r with
  | error e => exact .inl rfl
  | ok a =>
    rcases h with h | ⟨hn, h⟩
    · exact .inl h
    · refine .inr ⟨congrArg (· + 1) hn, fun hm' => ?_⟩
      change (if g.2.writes = 2 then hadErrors body.status.conditions else g.2.marked) = true
      rw [hn]
      by_cases h2 : n = 2
      · rw [if_pos h2]
        exact hmark h2 hm'
      · rw [if_neg h2]
        rw [hm h2] at hm'
        exact h hm'

lemma At.le (h : At n m g) (hn : n ≤ 3) (hr : g.2.refused = false) : g.2.writes ≤ 3 := by
  rcases h with h | ⟨h, -⟩
  · rw [hr] at h
    cases h
  · omega

lemma addStatusCondition_goes {type : String} {status : ConditionStatus} (m' : Bool)
    (reason message : String) (hn : n ≤ 2) (h : At n m g) (hm : n ≠ 2 → m' = m)
    (hmark : m' = true → n = 2 → type = errorType ∧ status = .true) :
    Goes (fun _ g' => At (n + 1) m' g') (addStatusCondition type status reason message) g := by
  refine (getAutoindexer_goes g).bind ?_
  rintro r g1 (⟨b, rfl, hgot, hcourse⟩ | ⟨hr, hrefused⟩)
  · have h1 : At n m g1 := by
      unfold At
      rw [hcourse]
      exact h
    refine tells_ask trivial fun t => tells_ask ?_ fun r => ?_
    · refine ⟨b, g.1.got, hgot, rfl, fun hfine => ⟨h1.le (by omega) hfine, fun h3 => ?_⟩⟩
      rcases h1 with h1 | ⟨h1, -⟩
      · exact absurd (hfine.symm.trans h1) (by simp)
      · exact absurd (h1.symm.trans h3) (by omega)
    · have hrecord : ∀ h2 : n = 2, m' = true → hadErrors (addCondition
          ⟨type, status, reason, message, t, b.generation⟩ b.status.conditions) = true :=
        fun h2 hm' => hadErrors_added _ (hmark hm' h2).1 (hmark hm' h2).2
      cases r <;> exact tells_ret (At.patch h1 _ hm hrecord)
  · cases r with
    | error e => exact tells_ret (.inl hrefused)
    | ok a =>
      cases a with
      | none => exact tells_ret (.inl hrefused)
      | some b => exact absurd rfl (hr b)

lemma updateAutoindexerStatus_goes {u : StatusUpdate} (hn : n = 1 ∨ n = 3 ∧ u.conditions = none)
    (h : At n m g) : Goes (fun _ g' => At (n + 1) m g') (JobClient.updateAutoindexerStatus u) g := by
  have hne : n ≠ 2 := by omega
  refine (getAutoindexer_goes g).bind ?_
  rintro r g1 (⟨b, rfl, hgot, hcourse⟩ | ⟨hr, hrefused⟩)
  · have h1 : At n m g1 := by
      unfold At
      rw [hcourse]
      exact h
    refine tells_ask ?_ fun r => ?_
    · refine ⟨b, g.1.got, hgot, rfl, fun hfine => ⟨h1.le (by omega) hfine, fun h3 => ?_⟩⟩
      rcases h1 with h1 | ⟨h1, -⟩
      · exact absurd (hfine.symm.trans h1) (by simp)
      · rcases hn with hn | ⟨-, hu⟩
        · omega
        · simp [AutoIndexer.withStatus, StatusUpdate.apply, hu]
    · cases r <;> exact tells_ret (At.patch h1 _ (fun _ => rfl) fun h2 => absurd h2 hne)
  · cases r with
    | error e => exact tells_ret (.inl hrefused)
    | ok a =>
      cases a with
      | none => exact tells_ret (.inl hrefused)
      | some b => exact absurd rfl (hr b)

lemma working_incrementCounter (counter : Status → ℕ) :
    Working True t (incrementCounter counter) := by
  refine working_getAutoindexer.bind fun r => ?_
  cases r with
  | error e => exact working_pure _
  | ok a => cases a <;> exact working_pure _

lemma updateIndexingCompletion_goes (success : Bool) (duration count : ℕ) (h : At 3 m g) :
    Goes (fun _ g' => At 4 m g') (updateIndexingCompletion success duration count) g := by
  refine tells_ask trivial fun t => ?_
  have hnow : At 3 m (heed g .now t) := h
  cases success with
  | true =>
    refine (goes_of_working (t := ⟨"", ""⟩) (working_incrementCounter _) hnow).bind ?_
    exact fun k g1 h1 => updateAutoindexerStatus_goes (.inr ⟨rfl, rfl⟩) h1.2
  | false =>
    refine (goes_of_working (t := ⟨"", ""⟩) (working_incrementCounter _) hnow).bind ?_
    exact fun k g1 h1 => updateAutoindexerStatus_goes (.inr ⟨rfl, rfl⟩) h1.2

lemma working_countDocuments (t : Target) (owner : String) :
    Working True t (countDocuments t owner) :=
  working_ask rfl fun r => by cases r <;> exact working_pure _

/-- The base of an update is made, or a call has failed. -/
lemma createBaseStatusUpdate_goes (owner : String) (errors : List String) (d : ℕ) (h : At n m g) :
    Goes (fun u g' => At n m g' ∧ (u = none → g'.2.refused = true))
      (createBaseStatusUpdate t owner errors d) g := by
  refine (getAutoindexer_goes g).bind ?_
  rintro r g1 (⟨b, rfl, hgot, hcourse⟩ | ⟨hr, hrefused⟩)
  · have h1 : At n m g1 := by
      unfold At
      rw [hcourse]
      exact h
    have hcount : Obeys (Works True t) (fun _ => True) (countDocuments t owner) :=
      working_countDocuments t owner
    have hcondition : ∀ type status reason message k,
        Obeys (Works True t) (fun _ => True) (createCondition type status reason message k) :=
      fun type status reason message k => ⟨trivial, fun _ => trivial⟩
    refine (goes_of_working (P := fun u => u ≠ none) (t := t) ?_ h1).mono (fun _ _ h => h)
      fun u g' h' => ⟨h'.2, fun hu => absurd hu h'.1⟩
    refine ⟨trivial, fun now => hcount.bind fun k _ => (hcondition _ _ _ _ _).bind fun succeeded _ => ?_⟩
    dsimp only
    split
    · refine (hcondition _ _ _ _ _).bind fun error _ => ?_
      exact (hcondition _ _ _ _ _).bind fun failed _ =>
        (hcondition _ _ _ _ _).bind fun indexing _ => by simp
    · refine (hcondition _ _ _ _ _).bind fun error _ => ?_
      exact (hcondition _ _ _ _ _).bind fun failed _ =>
        (hcondition _ _ _ _ _).bind fun indexing _ => by simp
  · cases r with
    | error e => exact tells_ret ⟨.inl hrefused, fun _ => hrefused⟩
    | ok a =>
      cases a with
      | none => exact tells_ret ⟨.inl hrefused, fun _ => hrefused⟩
      | some b => exact absurd rfl (hr b)

lemma handlerStatus_goes {h : Handler} (out : Outcome) (hg : At 1 m g) :
    Goes (fun _ g' => At 2 m g') (h.updateAutoindexerStatus out) g := by
  refine (createBaseStatusUpdate_goes _ _ _ hg).bind ?_
  rintro u g1 ⟨h1, hu⟩
  cases u with
  | none => exact tells_ret (.inl (hu rfl))
  | some u =>
    exact (updateAutoindexerStatus_goes (.inl rfl) h1).bind fun _ g2 h2 => tells_ret h2

/-! ### A job -/

lemma run_goes (r : Remote) (h : Handler) (hg : At 0 false g) :
    Goes (fun b g' => Leaves (some b) g') (run r h) g := by
  refine tells_ask trivial fun start => ?_
  have hstart : At 0 false (heed g .now start) := hg
  refine (addStatusCondition_goes false _ _ (by omega) hstart (fun _ => rfl) nofun).bind fun _ g1 h1 => ?_
  refine (goes_of_working (working_updateIndex r h) h1).bind ?_
  rintro out g2 ⟨-, h2⟩
  refine (handlerStatus_goes out h2).bind fun _ g3 h3 => tells_ask trivial fun stop => ?_
  have hstop : At 2 false (heed g3 .now stop) := h3
  refine (goes_of_working (working_countDocuments _ _) hstop).bind ?_
  rintro n g4 ⟨-, h4⟩
  split
  · refine (addStatusCondition_goes true _ _ le_rfl h4 (fun hne => absurd rfl hne)
      fun _ _ => ⟨rfl, rfl⟩).bind fun _ g5 h5 => ?_
    refine (updateIndexingCompletion_goes false _ _ h5).bind fun _ g6 h6 => tells_ret ?_
    intro _ hfine
    rcases h6 with h6 | h6
    · rw [hfine] at h6
      cases h6
    · exact ⟨h6.1, h6.2 rfl⟩
  · refine (addStatusCondition_goes false _ _ le_rfl h4 (fun hne => absurd rfl hne)
      nofun).bind fun _ g5 h5 => ?_
    exact (updateIndexingCompletion_goes true _ _ h5).bind fun _ g6 h6 => tells_ret nofun

/-- A job that returns with errors has recorded them. -/
lemma main_goes (r : Remote) : Goes Leaves (main r) (untold, begun) := by
  refine (getAutoindexer_goes _).bind ?_
  rintro a g1 (⟨b, rfl, -, hcourse⟩ | ⟨hr, -⟩)
  · have h1 : At 0 false g1 := by
      unfold At
      rw [hcourse]
      exact .inr ⟨rfl, nofun⟩
    dsimp only
    split
    · exact (run_goes r _ h1).bind fun _ _ hf => tells_ret hf
    · exact tells_ret nofun
  · cases a with
    | error e => exact tells_ret nofun
    | ok a =>
      cases a with
      | none => exact tells_ret nofun
      | some b => exact absurd rfl (hr b)

end

/-! ### The record -/

/-- What is kept of a run of the system. -/
structure Record where
  /-- The writes of the job. -/
  course : Course
  /-- The last run that ended has met errors, and no job has read the object since. -/
  owed : Bool
  /-- The controller has changed the conditions since a job recorded its errors, and what it wrote
  last shows none. -/
  erased : Bool

def started : Record := ⟨begun, false, false⟩

def Record.told (g : Record) : (c : JobCall) → JobAnswer c → Record
  | .getAutoIndexer, .ok _ => { g with owed := false }
  | .patchStatus _, .ok _ => if g.course.writes = 2 then { g with erased := false } else g
  | _, _ => g

def keep (x : World × account.Notes × Record) : system.Event → Record
  | .begin .job => { x.2.2 with course := begun }
  | .call .job c r => { x.2.2.told c r with course := follow x.2.2.course c r }
  | .call .controller (.patchStatus a b) (.ok _) =>
    if a.status.conditions = b.status.conditions then x.2.2
    else { x.2.2 with erased := !hadErrors b.status.conditions }
  | .finish .job (some success) => { x.2.2 with owed := !success }
  | _ => x.2.2

/-- The calls of the job to the API server succeed. -/
def Answered (_ : World × account.Notes × Record) : system.Event → Prop
  | .call .job .getAutoIndexer r => r.isOk = true
  | .call .job (.patchStatus _) r => r.isOk = true
  | _ => True

/-! ### The writes of a job in a run -/

abbrev Following : Actor → Type
  | .controller => Knows
  | .detector => Seen
  | .job => Told × Course

/-- Besides what the programs are told, the writes of the job. -/
abbrev following : System.Account system where
  Know := Following
  fresh
    | .controller => ControllerSteps.fresh
    | .detector => DetectorSteps.unseen
    | .job => (untold, begun)
  note
    | .controller => ControllerSteps.note
    | .detector => DetectorSteps.look
    | .job => heed
  lawful
    | .controller => ControllerSteps.Lawful
    | .detector => DetectorSteps.Lawful
    | .job => Follows
  ends
    | .controller => ControllerSteps.Ends
    | .detector => fun _ _ => True
    | .job => Leaves
  tells
    | .controller, _, hp => by
      cases hp
      exact ControllerSteps.reconcile_steps
    | .detector, _, hp => by
      cases hp
      exact DetectorSteps.performDriftCheck_steps
    | .job, _, hp => by
      obtain ⟨r, rfl⟩ := hp
      exact main_goes r

def known (x : account.Notes × Record) : following.Notes
  | .controller => x.1 .controller
  | .detector => x.1 .detector
  | .job => (x.1 .job, x.2.course)

lemma course_keep (x : World × account.Notes × Record) (e : system.Event) :
    (keep x e).course = (following.watch (known x.2) e .job : Told × Course).2 := by
  match e with
  | .begin .controller => rfl
  | .begin .detector => rfl
  | .begin .job => rfl
  | .call .controller c r =>
    change (keep x (.call .controller c r)).course = x.2.2.course
    unfold keep
    split <;> first | rfl | (split <;> rfl) | simp_all
  | .call .detector c r => rfl
  | .call .job c r => rfl
  | .finish .controller a => rfl
  | .finish .detector a => rfl
  | .finish .job none => rfl
  | .finish .job (some b) => rfl
  | .crash i => rfl
  | .act a => rfl

lemma known_keep (x : World × account.Notes × Record) (e : system.Event) :
    known (account.watch x.2.1 e, keep x e) = following.watch (known x.2) e := by
  funext i
  cases i with
  | controller =>
    match e with
    | .begin j => cases j <;> rfl
    | .call .controller c r => rfl
    | .call .detector c r => rfl
    | .call .job c r => rfl
    | .finish j a => rfl
    | .crash j => rfl
    | .act a => rfl
  | detector =>
    match e with
    | .begin j => cases j <;> rfl
    | .call .controller c r => rfl
    | .call .detector c r => rfl
    | .call .job c r => rfl
    | .finish j a => rfl
    | .crash j => rfl
    | .act a => rfl
  | job =>
    refine Prod.ext ?_ (course_keep x e)
    match e with
    | .begin j => cases j <;> rfl
    | .call .controller c r => rfl
    | .call .detector c r => rfl
    | .call .job c r => rfl
    | .finish j a => rfl
    | .crash j => rfl
    | .act a => rfl

variable {cond : World × account.Notes × Record → system.Event → Prop}
  {s s' : System.Config system (account.Notes × Record)} {w w' : World} {k : account.Notes}
  {g : Record} {e : system.Event}

/-- In every run, a job writes and ends as it does whatever it is told. -/
lemma follows_of_reach (h : System.Reach (account.observer keep) cond (StartWith started) s)
    (hs : System.Step (account.observer keep) s e s') : following.Allows (known s.record) e := by
  let obs : World × following.Notes × Unit → system.Event → Unit := fun _ _ => ()
  have hobs : ∀ x e, (known (account.observer keep x e), ()) =
      following.observer obs (x.1, known x.2, ()) e := by
    intro x e
    exact congrArg (·, ()) (known_keep x e)
  have hreach : System.Reach (following.observer obs) (fun _ _ => True) (fun s => ∀ i, s.threads i = none)
      ⟨s.world, (known s.record, ()), s.threads⟩ :=
    System.Reach.map (f := fun g => (known g, ())) hobs (fun _ _ _ => trivial) (fun s hs => hs.1.1) h
  have hstep : System.Step (following.observer obs) ⟨s.world, (known s.record, ()), s.threads⟩ e
      ⟨s'.world, (known s'.record, ()), s'.threads⟩ :=
    System.Step.map (f := fun g => (known g, ())) hobs hs
  exact (System.Account.allows (fun _ hs => hs) hreach hstep).1

/-! ### The invariant -/

structure Inv (w : World) (told : Told) (g : Record) : Prop where
  answered : g.course.refused = false
  /-- Until a job reads the object, none writes. -/
  waits : g.owed = true → g.course.writes = 4 ∨ told.got = []
  third : g.course.marked = true → 3 ≤ g.course.writes
  recorded : g.owed = true ∨ g.course.marked = true → ∀ o, w.stored = some o →
    hadErrors o.status.conditions = !g.erased

/-- The stored conditions stay the same, and the record does. -/
lemma Inv.same {told : Told} (h : Inv w told g) (hw : ∀ o', w'.stored = some o' →
    ∃ o, w.stored = some o ∧ o'.status.conditions = o.status.conditions) : Inv w' told g := by
  refine ⟨h.answered, h.waits, h.third, fun hg o' ho' => ?_⟩
  obtain ⟨o, ho, hconditions⟩ := hw o' ho'
  rw [hconditions]
  exact h.recorded hg o ho

/-- Whatever does not write the status. -/
lemma conditions_of_happens (hk : Sound w k) (hl : account.Allows k e) (h : system.Happens w e w')
    (hc : ∀ a b u, e ≠ .call .controller (.patchStatus a b) (.ok u))
    (hj : ∀ body u, e ≠ .call .job (.patchStatus body) (.ok u)) : ∀ o', w'.stored = some o' →
    ∃ o, w.stored = some o ∧ o'.status.conditions = o.status.conditions := by
  intro o' ho'
  obtain ⟨o, ho, hrestated⟩ := restated_of_happens hk.snapshots hl h ho'
  refine ⟨o, ho, ?_⟩
  generalize o'.status = st at hrestated
  cases hrestated with
  | merged => exact absurd rfl (hc _ _ ())
  | sent => exact absurd rfl (hj _ ())
  | kept => rfl

/-- The controller's patch of the status replaces the conditions, or leaves them. -/
lemma inv_patch {a b : AutoIndexer} (hk : Sound w k)
    (hl : account.Allows k (.call .controller (.patchStatus a b) (.ok ())))
    (h : system.Happens w (.call .controller (.patchStatus a b) (.ok ())) w') (hinv : Inv w (k .job) g) :
    Inv w' (k .job) (keep (w, k, g) (.call .controller (.patchStatus a b) (.ok ()))) := by
  have hmerged : ∀ o', w'.stored = some o' → ∃ o, w.stored = some o ∧
      o'.status.conditions = pick a.status.conditions b.status.conditions o.status.conditions := by
    intro o' ho'
    obtain ⟨o, ho, hrestated⟩ := restated_of_happens hk.snapshots hl h ho'
    refine ⟨o, ho, ?_⟩
    generalize o'.status = st at hrestated
    cases hrestated with
    | merged => rfl
    | kept hc => exact absurd rfl (hc a b ())
  have hkeep : keep (w, k, g) (.call .controller (.patchStatus a b) (.ok ())) =
      if a.status.conditions = b.status.conditions then g
      else { g with erased := !hadErrors b.status.conditions } := rfl
  rw [hkeep]
  by_cases hsame : a.status.conditions = b.status.conditions
  · rw [if_pos hsame]
    refine hinv.same fun o' ho' => ?_
    obtain ⟨o, ho, hconditions⟩ := hmerged o' ho'
    rw [hsame, pick_self] at hconditions
    exact ⟨o, ho, hconditions⟩
  · rw [if_neg hsame]
    refine ⟨hinv.answered, hinv.waits, hinv.third, fun _ o' ho' => ?_⟩
    obtain ⟨o, -, hconditions⟩ := hmerged o' ho'
    rw [hconditions, pick, if_neg hsame]
    simp

lemma inv_controller {c : Call} {r : Answer c} (hk : Sound w k)
    (hl : account.Allows k (.call .controller c r)) (h : system.Happens w (.call .controller c r) w')
    (hinv : Inv w (k .job) g) : Inv w' (k .job) (keep (w, k, g) (.call .controller c r)) := by
  cases c with
  | patchStatus a b =>
    cases r with
    | ok u => exact inv_patch hk hl h hinv
    | error e => exact hinv.same (conditions_of_happens hk hl h (by simp) (by simp))
  | _ => exact hinv.same (conditions_of_happens hk hl h (by simp) (by simp))

/-- The job writes: the errors of its run, or the conditions that are stored. -/
lemma inv_write {body : AutoIndexer} (hk : Sound w k)
    (hl : account.Allows k (.call .job (.patchStatus body) (.ok ())))
    (hf : Follows (k .job, g.course) (.patchStatus body))
    (h : system.Happens w (.call .job (.patchStatus body) (.ok ())) w') (hinv : Inv w (k .job) g) :
    Inv w' (hear (k .job) (.patchStatus body) (.ok ()))
      (keep (w, k, g) (.call .job (.patchStatus body) (.ok ()))) := by
  obtain ⟨r, rest, hgot, hversion, hwrites⟩ := hf
  obtain ⟨hle, hfourth⟩ := hwrites hinv.answered
  have hidle : g.owed = false := by
    cases howed : g.owed with
    | false => rfl
    | true =>
      rcases hinv.waits howed with h4 | hnone
      · exact absurd (h4.symm.trans_le hle) (by decide)
      · rw [hnone] at hgot
        cases hgot
  have hsent : ∀ o', w'.stored = some o' → ∃ o, w.stored = some o ∧
      o'.status.conditions = body.status.conditions ∧
      (g.course.writes = 3 → o'.status.conditions = o.status.conditions) := by
    intro o' ho'
    obtain ⟨o, ho, hrestated⟩ := restated_of_happens hk.snapshots hl h ho'
    refine ⟨o, ho, ?_⟩
    generalize o'.status = st at hrestated
    cases hrestated with
    | sent hv =>
      refine ⟨rfl, fun h3 => ?_⟩
      obtain rfl := eq_of_read hk.snapshots ho hgot (hv.trans hversion)
      exact hfourth h3
    | kept _ hj => exact absurd rfl (hj body ())
  have hgot' : (hear (k .job) (.patchStatus body) (.ok ())).got = (k .job : Told).got := rfl
  have hkeep : keep (w, k, g) (.call .job (.patchStatus body) (.ok ())) =
      { (if g.course.writes = 2 then { g with erased := false } else g) with
        course := follow g.course (.patchStatus body) (.ok ()) } := rfl
  have howed' : (keep (w, k, g) (.call .job (.patchStatus body) (.ok ()))).owed = false := by
    rw [hkeep]
    split <;> exact hidle
  by_cases h2 : g.course.writes = 2
  · have hnew : keep (w, k, g) (.call .job (.patchStatus body) (.ok ())) =
        ⟨⟨3, g.course.refused, hadErrors body.status.conditions⟩, g.owed, false⟩ := by
      rw [hkeep, if_pos h2]
      simp [follow, h2]
    rw [hnew]
    refine ⟨hinv.answered, fun ho => ?_, fun _ => le_rfl, fun hm o' ho' => ?_⟩
    · exact absurd (hidle.symm.trans ho) (by decide)
    · obtain ⟨o, -, hconditions, -⟩ := hsent o' ho'
      rw [hconditions]
      rcases hm with ho | hm
      · exact absurd (hidle.symm.trans ho) (by decide)
      · exact hm
  · have hnew : keep (w, k, g) (.call .job (.patchStatus body) (.ok ())) =
        ⟨⟨g.course.writes + 1, g.course.refused, g.course.marked⟩, g.owed, g.erased⟩ := by
      rw [hkeep, if_neg h2]
      simp [follow, h2]
    rw [hnew]
    refine ⟨hinv.answered, fun ho => ?_, fun hm => ?_, fun hm o' ho' => ?_⟩
    · exact absurd (hidle.symm.trans ho) (by decide)
    · exact (hinv.third hm).trans (Nat.le_succ _)
    · rcases hm with ho | hm
      · exact absurd (hidle.symm.trans ho) (by decide)
      · obtain ⟨o, ho, -, hconditions⟩ := hsent o' ho'
        rw [hconditions (le_antisymm hle (hinv.third hm))]
        exact hinv.recorded (.inr hm) o ho

lemma inv_job {c : JobCall} {r : JobAnswer c} (hk : Sound w k)
    (hl : account.Allows k (.call .job c r)) (hf : Follows (k .job, g.course) c)
    (hc : Answered (w, k, g) (.call .job c r)) (h : system.Happens w (.call .job c r) w')
    (hinv : Inv w (k .job) g) : Inv w' (hear (k .job) c r) (keep (w, k, g) (.call .job c r)) := by
  have hsame : (∀ body, c ≠ .patchStatus body) → ∀ o', w'.stored = some o' →
      ∃ o, w.stored = some o ∧ o'.status.conditions = o.status.conditions := by
    intro hne
    refine conditions_of_happens hk hl h (by simp) ?_
    rintro body u he
    cases he
    exact hne body rfl
  cases c with
  | patchStatus body =>
    cases r with
    | ok u => exact inv_write hk hl hf h hinv
    | error e => cases hc
  | getAutoIndexer =>
    cases r with
    | error e => cases hc
    | ok o =>
      have hnext := hinv.same (hsame (by simp))
      refine ⟨hnext.answered, fun ho => (by cases ho), hnext.third, fun hm => hnext.recorded ?_⟩
      rcases hm with ho | hm
      · cases ho
      · exact .inr hm
  | _ =>
    have hnext := hinv.same (hsame (by simp))
    refine ⟨hnext.answered, ?_, hnext.third, hnext.recorded⟩
    rw [JobSteps.hear_got (by simp)]
    exact hnext.waits

lemma inv_step (hk : Sound w k) (hinv : Inv w (k .job) g) (hc : Answered (w, k, g) e)
    (hl : account.Allows k e) (hf : following.Allows (known (k, g)) e) (h : system.Happens w e w') :
    Inv w' (account.watch k e .job) (keep (w, k, g) e) := by
  match e with
  | .begin .controller => exact hinv.same (conditions_of_happens hk hl h (by simp) (by simp))
  | .begin .detector => exact hinv.same (conditions_of_happens hk hl h (by simp) (by simp))
  | .begin .job =>
    have hnext := hinv.same (conditions_of_happens hk hl h (by simp) (by simp))
    rw [System.Account.watch_begin]
    refine ⟨rfl, fun _ => .inr rfl, fun hm => (by cases hm), fun hm => hnext.recorded ?_⟩
    rcases hm with ho | hm
    · exact .inl ho
    · cases hm
  | .call .controller c r =>
    have hnext := inv_controller hk hl h hinv
    exact hnext
  | .call .detector c r => exact hinv.same (conditions_of_happens hk hl h (by simp) (by simp))
  | .call .job c r =>
    rw [System.Account.watch_self]
    exact inv_job hk hl hf hc h hinv
  | .finish .controller a => exact hinv.same (conditions_of_happens hk hl h (by simp) (by simp))
  | .finish .detector a => exact hinv.same (conditions_of_happens hk hl h (by simp) (by simp))
  | .finish .job none => exact hinv.same (conditions_of_happens hk hl h (by simp) (by simp))
  | .finish .job (some true) =>
    have hnext := hinv.same (conditions_of_happens hk hl h (by simp) (by simp))
    refine ⟨hnext.answered, fun ho => (by cases ho), hnext.third, fun hm => hnext.recorded ?_⟩
    rcases hm with ho | hm
    · cases ho
    · exact .inr hm
  | .finish .job (some false) =>
    -- the run has recorded its errors
    have hnext := hinv.same (conditions_of_happens hk hl h (by simp) (by simp))
    obtain ⟨hwrites, hmarked⟩ : g.course.writes = 4 ∧ g.course.marked = true := hf rfl hinv.answered
    exact ⟨hnext.answered, fun _ => .inl hwrites, hnext.third, fun _ => hnext.recorded (.inr hmarked)⟩
  | .crash i => exact hinv.same (conditions_of_happens hk hl h (by simp) (by simp))
  | .act a => exact hinv.same (conditions_of_happens hk hl h (by simp) (by simp))

/-! ### Runs -/

lemma inv_started (hs : StartWith started s) : Inv s.world (s.record.1 .job) s.record.2 := by
  obtain ⟨-, hr⟩ := hs
  rw [hr]
  refine ⟨rfl, fun ho => (by cases ho), fun hm => (by cases hm), fun hm => ?_⟩
  rcases hm with ho | hm
  · cases ho
  · cases hm

lemma inv_of_reach (h : System.Reach (account.observer keep) Answered (StartWith started) s) :
    Inv s.world (s.record.1 .job) s.record.2 := by
  induction h with
  | init hs => exact inv_started hs
  | @step s e s' h hs hc ih =>
    have hsound := sound_of_reach (fun s hs => hs.1) h
    obtain ⟨hl, hw, hr⟩ := allows_of_reach (fun s hs => hs.1) h hs
    rw [hr]
    exact inv_step hsound ih hc hl (follows_of_reach h hs) hw

/-- **A run with errors is followed by a full one** if and only if the controller has not changed the
conditions since the run recorded its errors, or has left an error in them when it changed them last,
or nothing is there to go on from: in every run of the system in which the calls of the jobs to the
API server succeed. -/
theorem recovers_iff {o : AutoIndexer} {h : Handler} {last : Option Time}
    (hreach : System.Reach (account.observer keep) Answered (StartWith started) s)
    (hs : System.Step (account.observer keep) s (.call .job .getAutoIndexer (.ok o)) s')
    (howed : s.record.2.owed = true) (hh : createDataSourceHandler o = some h) :
    takesFullPath last h ↔ s.record.2.erased = false ∨ fullAnyway last h := by
  obtain ⟨-, hw, -⟩ := allows_of_reach (fun s hs => hs.1) hreach hs
  have hread : s.world.stored = some o := by
    obtain ⟨-, hr | ⟨-, m, hm⟩⟩ := hw
    · unfold readAutoIndexer at hr
      split at hr
      · rename_i o' ho
        rw [ho, Except.ok.inj hr]
      · cases hr
    · cases hm
  have herrors := (inv_of_reach hreach).recorded (.inl howed) o hread
  rw [takesFullPath_iff hh, herrors]
  simp

/-! ### A run during an outage -/

/-- The test of `Answered`. -/
def answeredTest (_ : World × account.Notes × Record) : system.Event → Bool
  | .call .job .getAutoIndexer r => r.isOk
  | .call .job (.patchStatus _) r => r.isOk
  | _ => true

lemma answered_of_test {x : World × account.Notes × Record} (h : answeredTest x e = true) :
    Answered x e := by
  unfold Answered
  split
  · exact h
  · exact h
  · trivial

abbrev Configuration := System.Config system (account.Notes × Record)

abbrev Reaches (s : Configuration) : Prop :=
  System.Reach (account.observer keep) Answered (StartWith started) s

/-- A job begins. -/
def beginning (s : Configuration) : Configuration :=
  ⟨s.world, account.observer keep s.view (.begin .job),
    Function.update s.threads .job (some (Job.main (demoRemote [])))⟩

/-- The calls of a job that has just begun, while the engine is out. -/
def failing (s : Configuration) : Py (Option Bool) × (World × account.Notes × Record) × Bool :=
  (Job.main (demoRemote [])).after (System.answer (account.observer keep) answeredTest Actor.job outage)
    40 (s.view, true)

def worked (s : Configuration) : Configuration :=
  let y := failing s
  ⟨y.2.1.1, y.2.1.2, Function.update s.threads .job (some y.1)⟩

def called (s : Configuration) : Configuration :=
  let y := calling keep answeredTest 60 s
  ⟨y.2.1.1, y.2.1.2, Function.update s.threads .controller (some y.1)⟩

def ended (i : Actor) (a : Actor.Result i) (s : Configuration) : Configuration :=
  ⟨s.world, account.observer keep s.view (.finish i a), Function.update s.threads i none⟩

def opened : Configuration := before demoWorld started

/-- The run has ended with an error. -/
def failed : Configuration := ended .job (some false) (worked (beginning opened))

/-- The controller has reconciled the AutoIndexer. -/
def reconciled : Configuration := ended .controller none (called failed)

/-- The program has returned `a`. -/
def returns {C : Type} {R : C → Type} {α : Type} [DecidableEq α] (a : α) : Prog C R α → Bool
  | .ret b => b == a
  | .ask _ _ => false

lemma eq_ret {C : Type} {R : C → Type} {α : Type} [DecidableEq α] {a : α} {p : Prog C R α}
    (h : returns a p = true) : p = .ret a := by
  cases p with
  | ret b => rw [beq_iff_eq.mp h]
  | ask c k => cases h

/-- What the next job reads: the errors of the last run, the commit, and whether it is to be told. -/
def reads (s : Configuration) (errors : Bool) : Bool :=
  s.record.2.owed && s.record.2.erased != errors && s.world.stored.any fun o =>
    hadErrors o.status.conditions == errors && o.status.lastIndexedCommit == some "decaf" &&
      o.spec == demo.spec

/-- The run that fails and the reconcile after it, evaluated. -/
lemma outage_run :
    ((failing (beginning opened)).2.2 = true ∧ returns (some false) (failing (beginning opened)).1 = true ∧
      reads failed true = true) ∧
    (calling keep answeredTest 60 failed).2.2 = true ∧
      returns none (calling keep answeredTest 60 failed).1 = true ∧ reads reconciled false = true := by
  decide +kernel

variable {s : Configuration}

lemma reaches_beginning (h : Reaches s) (hs : s.threads .job = none) :
    Reaches (beginning s) := reach_job h (demoRemote []) hs trivial

lemma reaches_worked (h : Reaches s) (hs : s.threads .job = some (Job.main (demoRemote [])))
    (hy : (failing s).2.2 = true) : Reaches (worked s) :=
  System.Reach.after (i := Actor.job) outage (fun w c => jobServes_outage w c)
    (fun _ _ => answered_of_test) h hs 40 rfl hy

lemma reaches_called (h : Reaches s) (hs : s.threads .controller = none)
    (hy : (calling keep answeredTest 60 s).2.2 = true) : Reaches (called s) :=
  reach_calling (fun _ _ => answered_of_test) h hs trivial 60 hy

lemma reaches_ended (h : Reaches s) {i : Actor} {a : Actor.Result i}
    (hs : s.threads i = some (.ret a)) : Reaches (ended i a s) := by
  have hstep : System.Step (account.observer keep) s (.finish i a) (ended i a s) := .finish hs
  exact .step h hstep trivial

lemma reaches_failed : Reaches failed := by
  have h0 : Reaches opened := .init ⟨start_before demoWorld _, rfl⟩
  have h1 : Reaches (worked (beginning opened)) :=
    reaches_worked (reaches_beginning h0 rfl) rfl outage_run.1.1
  exact reaches_ended h1 (congrArg some (eq_ret outage_run.1.2.1))

lemma reaches_reconciled : Reaches reconciled := by
  have h1 : Reaches (called failed) := reaches_called reaches_failed rfl outage_run.2.1
  exact reaches_ended h1 (congrArg some (eq_ret outage_run.2.2.1))

/-- The next job reads the object, and makes a Git handler that goes on from the last commit. -/
lemma exists_read (h : Reaches s) (hs : s.threads .job = none) {errors : Bool}
    (hr : reads s errors = true) : ∃ s₀ s' o h, Reaches s₀ ∧
      System.Step (account.observer keep) s₀ (.call .job .getAutoIndexer (.ok o)) s' ∧
      s₀.record.2.owed = true ∧ s₀.record.2.erased = !errors ∧
      hadErrors o.status.conditions = errors ∧ createDataSourceHandler o = some (.git h) ∧
      h.commit = none ∧ h.lastIndexedCommit = "decaf" := by
  unfold reads at hr
  cases ho : s.world.stored with
  | none => simp [ho] at hr
  | some o =>
    simp only [ho, Option.any_some, Bool.and_eq_true, beq_iff_eq, bne_iff_ne] at hr
    obtain ⟨⟨howed, herased⟩, ⟨herrors, hcommit⟩, hspec⟩ := hr
    have hread : jobServe s.world .getAutoIndexer = (.ok o, s.world) := by
      simp [jobServe, readAutoIndexer, ho]
    have hstep := step_job (reaches_beginning h hs) (c := JobCall.getAutoIndexer) rfl
    have hanswer : (jobServe (beginning s).world .getAutoIndexer).1 = .ok o := congrArg Prod.fst hread
    rw [hanswer] at hstep
    refine ⟨beginning s, _, o, gitHandler o ⟨"https://host/repo", "main", none, [], []⟩,
      reaches_beginning h hs, hstep, howed, ?_, herrors, ?_, rfl, ?_⟩
    · change s.record.2.erased = !errors
      cases herr : errors <;> simp_all
    · unfold createDataSourceHandler
      rw [hspec]
      rfl
    · simp [gitHandler, hcommit]

/-- The run after the failed one is full. -/
theorem recovers_at_once : ∃ s s' o h, Reaches s ∧
    System.Step (account.observer keep) s (.call .job .getAutoIndexer (.ok o)) s' ∧
    s.record.2.owed = true ∧ createDataSourceHandler o = some (.git h) ∧
    h.lastIndexedCommit = "decaf" ∧ h.path = .full := by
  obtain ⟨s, s', o, h, hreach, hstep, howed, herased, -, hh, -, hcommit⟩ :=
    exists_read reaches_failed rfl outage_run.1.2.2
  have hfull : takesFullPath none (.git h) := (recovers_iff hreach hstep howed hh).mpr (.inl herased)
  exact ⟨s, s', o, h, hreach, hstep, howed, hh, hcommit, hfull⟩

/-- A reconcile erases the errors, and the next run is incremental. -/
theorem not_recovers :
    ¬ ∀ (s s' : Configuration) (o : AutoIndexer) (h : Handler) (last : Option Time), Reaches s →
      System.Step (account.observer keep) s (.call .job .getAutoIndexer (.ok o)) s' →
      s.record.2.owed = true → createDataSourceHandler o = some h → takesFullPath last h := by
  intro hall
  obtain ⟨s, s', o, h, hreach, hstep, howed, -, herrors, hh, hnone, hcommit⟩ :=
    exists_read reaches_reconciled rfl outage_run.2.2.2
  have hfull : takesFullPath none (.git h) := hall s s' o _ none hreach hstep howed hh
  rcases (takesFullPath_iff hh none).mp hfull with herr | hforced
  · rw [herrors] at herr
    cases herr
  · simp [fullAnyway, hnone, hcommit] at hforced

end KaitoAutoIndexer.Recovery
