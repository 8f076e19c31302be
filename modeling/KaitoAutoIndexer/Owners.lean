import KaitoAutoIndexer.SystemSteps
import KaitoAutoIndexer.Phases

/-!
Who changes what in the stored object. The controller, the drift detector, the job and the users
write to it side by side, with patches and with whole objects; still every field is changed by its
owners only.
-/

namespace KaitoAutoIndexer.Owners

open KaitoAutoIndexer.Lib KaitoAutoIndexer.Types
open KaitoAutoIndexer.Cluster KaitoAutoIndexer.Controller
open KaitoAutoIndexer.System KaitoAutoIndexer.SystemSteps
open KaitoAutoIndexer.ControllerCalls (resetStatus)
open KaitoAutoIndexer.ControllerSteps (Knows Worked Remediating)
open KaitoAutoIndexer.Phases (createdWorld)

/-- A call of this program. -/
def By (i : Actor) : system.Event → Prop
  | .call j _ _ => j = i
  | _ => False

/-- The controller is remediating a drift. -/
def Resets (k : account.Notes) (e : system.Event) : Prop :=
  By .controller e ∧ ∃ x, (k .controller : Knows).base = some x ∧
    Remediating x (k .controller : Knows).listing

/-- Every field of the status is as it was, or one of its owners has written it. -/
structure StatusOwned (k : account.Notes) (s s' : Status) (e : system.Event) : Prop where
  phase : s'.indexingPhase = s.indexingPhase ∨ By .controller e
  timestamp : s'.lastIndexingTimestamp = s.lastIndexingTimestamp ∨ By .job e
  duration : s'.lastIndexingDurationSeconds = s.lastIndexingDurationSeconds ∨ By .job e
  successes : s'.successfulIndexingCount = s.successfulIndexingCount ∨ By .job e
  failures : s'.errorIndexingCount = s.errorIndexingCount ∨ By .job e
  commit : s'.lastIndexedCommit = s.lastIndexedCommit ∨ By .job e ∨
    Resets k e ∧ s'.lastIndexedCommit = some ""
  documents : s'.numOfDocumentInIndex = s.numOfDocumentInIndex ∨ By .job e ∨
    Resets k e ∧ s'.numOfDocumentInIndex = 0
  conditions : s'.conditions = s.conditions ∨ By .controller e ∨ By .job e

/-- Every field of the object is as it was, or one of its owners has written it. -/
structure Owned (k : account.Notes) (o o' : AutoIndexer) (e : system.Event) : Prop where
  identity : o'.name = o.name ∧ o'.namespace_ = o.namespace_ ∧ o'.uid = o.uid
  deletion : o'.deletionTimestamp = o.deletionTimestamp ∨
    e = .act .deletes ∧ o.deletionTimestamp = none
  finalizers : o'.finalizers = o.finalizers ∨ By .controller e
  detected : (o'.annotations.driftDetected = o.annotations.driftDetected ∧
    o'.annotations.lastDriftDetected = o.annotations.lastDriftDetected) ∨ By .detector e
  remediated : o'.annotations.lastDriftRemediated = o.annotations.lastDriftRemediated ∨ Resets k e
  spec : o'.spec = o.spec ∨ e = .act (.edits o'.spec) ∨
    By .controller e ∧ ∃ b, o'.spec = { o.spec with suspend := some b }
  status : StatusOwned k o.status o'.status e

variable {w : World} {k : account.Notes} {e : system.Event} {o o' x r m : AutoIndexer}
  {s : Status}

lemma StatusOwned.refl : StatusOwned k s s e :=
  ⟨.inl rfl, .inl rfl, .inl rfl, .inl rfl, .inl rfl, .inl rfl, .inl rfl, .inl rfl⟩

/-- Nothing but the named field is written. -/
lemma Owned.of_eq (h : o' = o) : Owned k o o' e := by
  subst h
  exact ⟨⟨rfl, rfl, rfl⟩, .inl rfl, .inl rfl, .inl ⟨rfl, rfl⟩, .inl rfl, .inl rfl, .refl⟩

/-- The server accepts an object whose fields are owned. -/
lemma Owned.accept (h : Owned k o x e) : Owned k o (accept o x) e where
  identity := by simpa using h.identity
  deletion := by simpa using h.deletion
  finalizers := by simpa using h.finalizers
  detected := by simpa using h.detected
  remediated := by simpa using h.remediated
  spec := by simpa using h.spec
  status := by simpa using h.status

/-! ### The status -/

lemma pick_cases {β : Type} [DecidableEq β] (a b c : β) : pick a b c = c ∨ pick a b c = b := by
  unfold pick
  split
  · exact .inl rfl
  · exact .inr rfl

/-- What a status patch of the controller makes of a field that no reconcile sets but the one that
resets the status. -/
lemma merged_or_reset {β : Type} [DecidableEq β] {f : Status → β} (hk : Sound w k)
    (ho : w.stored = some o) (hf : ∀ a b c, f (mergeStatus a b c) = pick (f a) (f b) (f c))
    (hphase : ∀ s p cs, f { s with indexingPhase := p, conditions := cs } = f s)
    (hr : (k .controller : Knows).read = some r) (hb : (k .controller : Knows).base = some x)
    (hv : m.resourceVersion = r.resourceVersion)
    (hw : Worked (k .controller : Knows).listing x r m.status)
    (hc : x.resourceVersion = m.resourceVersion ∨ o.resourceVersion = m.resourceVersion) :
    f (mergeStatus x.status m.status o.status) = f o.status ∨
      Remediating x (k .controller : Knows).listing ∧
        f (mergeStatus x.status m.status o.status) = f (resetStatus x).status := by
  have hkept : f m.status = f r.status →
      f (mergeStatus x.status m.status o.status) = f o.status :=
    merged_eq hk ho hf hr hb hv hc
  have hconditions : ∀ s cs, f { s with conditions := cs } = f s := fun s cs => hphase s _ cs
  generalize hms : m.status = ms at hw hkept
  cases hw with
  | same => exact .inl (hms ▸ hkept (hconditions _ _))
  | phase hrx =>
    subst hrx
    exact .inl (hms ▸ hkept (hphase _ _ _))
  | reset hrx hrem =>
    subst hrx
    rcases pick_cases (f r.status) (f m.status) (f o.status) with hp | hp
    · exact .inl (by rw [← hms, hf, hp])
    · refine .inr ⟨hrem, ?_⟩
      rw [← hms, hf, hp, hms]
      exact hconditions _ _

lemma statusOwned_of_patch (hk : Sound w k) (ho : w.stored = some o)
    (hr : (k .controller : Knows).read = some r) (hb : (k .controller : Knows).base = some x)
    (hv : m.resourceVersion = r.resourceVersion)
    (hw : Worked (k .controller : Knows).listing x r m.status)
    (hc : x.resourceVersion = m.resourceVersion ∨ o.resourceVersion = m.resourceVersion) :
    StatusOwned k o.status (mergeStatus x.status m.status o.status)
      (.call .controller (.patchStatus x m) (.ok ())) := by
  have hreset : ∀ {β : Type} [DecidableEq β] {f : Status → β},
      (∀ a b c, f (mergeStatus a b c) = pick (f a) (f b) (f c)) →
      (∀ s p cs, f { s with indexingPhase := p, conditions := cs } = f s) →
      f (mergeStatus x.status m.status o.status) = f o.status ∨
        Remediating x (k .controller : Knows).listing ∧
          f (mergeStatus x.status m.status o.status) = f (resetStatus x).status :=
    fun hf hphase => merged_or_reset hk ho hf hphase hr hb hv hw hc
  -- of the fields that no reconcile sets but a reset, it is two that a reset changes
  have hsame : ∀ {β : Type} [DecidableEq β] {f : Status → β},
      (∀ a b c, f (mergeStatus a b c) = pick (f a) (f b) (f c)) →
      (∀ s p cs, f { s with indexingPhase := p, conditions := cs } = f s) →
      f (resetStatus x).status = f x.status →
      f (mergeStatus x.status m.status o.status) = f o.status := by
    intro β _ f hf hphase hx
    rcases hreset hf hphase with h | ⟨hrem, h⟩
    · exact h
    · generalize hms : m.status = ms at hw
      have hkept := merged_eq (f := f) hk ho hf hr hb hv hc
      rw [hms] at hkept
      cases hw with
      | same => exact hkept (hphase _ _ _)
      | phase hrx => exact hkept (hrx ▸ hphase _ _ _)
      | reset hrx _ => exact hkept ((hphase _ _ _).trans (hrx ▸ hx))
  have hof : ∀ {β : Type} (f : Status → β),
      (∀ s c n, f { s with lastIndexedCommit := c, numOfDocumentInIndex := n } = f s) →
      f (resetStatus x).status = f x.status := by
    intro β f hf
    unfold resetStatus
    split
    · exact hf _ _ _
    · rfl
  refine ⟨.inr rfl, ?_, ?_, ?_, ?_, ?_, ?_, .inr (.inl rfl)⟩
  · exact .inl (hsame (f := Status.lastIndexingTimestamp) (fun _ _ _ => rfl) (fun _ _ _ => rfl)
      (hof _ fun _ _ _ => rfl))
  · exact .inl (hsame (f := Status.lastIndexingDurationSeconds) (fun _ _ _ => rfl)
      (fun _ _ _ => rfl) (hof _ fun _ _ _ => rfl))
  · exact .inl (hsame (f := Status.successfulIndexingCount) (fun _ _ _ => rfl) (fun _ _ _ => rfl)
      (hof _ fun _ _ _ => rfl))
  · exact .inl (hsame (f := Status.errorIndexingCount) (fun _ _ _ => rfl) (fun _ _ _ => rfl)
      (hof _ fun _ _ _ => rfl))
  · by_cases hg : x.spec.dataSource.type = .git
    · rcases hreset (f := Status.lastIndexedCommit) (fun _ _ _ => rfl) (fun _ _ _ => rfl)
        with h | ⟨hrem, h⟩
      · exact .inl h
      · refine .inr (.inr ⟨⟨rfl, x, hb, hrem⟩, h.trans ?_⟩)
        simp [resetStatus, hg, AutoIndexer.withStatus]
    · exact .inl (hsame (f := Status.lastIndexedCommit) (fun _ _ _ => rfl) (fun _ _ _ => rfl)
        (by simp [resetStatus, hg]))
  · by_cases hg : x.spec.dataSource.type = .git
    · rcases hreset (f := Status.numOfDocumentInIndex) (fun _ _ _ => rfl) (fun _ _ _ => rfl)
        with h | ⟨hrem, h⟩
      · exact .inl h
      · refine .inr (.inr ⟨⟨rfl, x, hb, hrem⟩, h.trans ?_⟩)
        simp [resetStatus, hg, AutoIndexer.withStatus]
    · exact .inl (hsame (f := Status.numOfDocumentInIndex) (fun _ _ _ => rfl) (fun _ _ _ => rfl)
        (by simp [resetStatus, hg]))

/-! ### The object -/

lemma owned_of_effect (hk : Sound w k) (ho : w.stored = some o) (h : Effect k o e (some o')) :
    Owned k o o' e := by
  have hrefl : ∀ e, Owned k o o e := fun e => .of_eq rfl
  generalize hs : some o' = s at h
  cases h with
  | addFinalizer _ _ ho' =>
    cases hs
    rw [ho']
    exact Owned.accept { hrefl _ with finalizers := .inr rfl }
  | suspend _ _ _ _ _ _ _ ho' =>
    cases hs
    rw [ho']
    exact Owned.accept { hrefl _ with spec := .inr (.inr ⟨rfl, true, rfl⟩) }
  | resume _ _ _ _ _ _ _ ho' =>
    cases hs
    rw [ho']
    exact Owned.accept { hrefl _ with spec := .inr (.inr ⟨rfl, false, rfl⟩) }
  | remediated _ hb _ hrem _ ho' =>
    cases hs
    rw [ho']
    exact Owned.accept { hrefl _ with remediated := .inr ⟨rfl, _, hb, hrem⟩ }
  | status hr hb _ hv hw hc =>
    cases hs
    exact Owned.accept { hrefl _ with status := statusOwned_of_patch hk ho hr hb hv hw hc }
  | release _ _ ho' =>
    rcases ho' with rfl | rfl
    · cases hs
    · cases hs
      exact Owned.accept { hrefl _ with finalizers := .inr rfl }
  | mark =>
    cases hs
    exact Owned.accept { hrefl _ with detected := .inr rfl }
  | clear =>
    cases hs
    exact Owned.accept { hrefl _ with detected := .inr rfl }
  | drop => cases hs
  | job hl hv =>
    cases hs
    have hphase := phase_of_job hk.snapshots ho hl hv
    refine Owned.accept { hrefl _ with status := ?_ }
    exact ⟨.inl hphase, .inr rfl, .inr rfl, .inr rfl, .inr rfl,
      .inr (.inl rfl), .inr (.inl rfl), .inr (.inr rfl)⟩
  | @edits spec =>
    cases hs
    have hspec : (accept o (o.withSpec spec)).spec = spec := accept_spec _ _
    refine { Owned.accept (x := o.withSpec spec) { hrefl _ with spec := .inr (.inl rfl) } with
      spec := .inr (.inl (by rw [hspec])) }
  | deletes =>
    unfold deleted at hs
    split at hs
    · cases hs
    · cases hs
      refine Owned.accept { hrefl _ with deletion := ?_ }
      cases hd : o.deletionTimestamp with
      | none => exact .inr ⟨rfl, rfl⟩
      | some t => exact .inl (by simp)

/-- **In every run, whatever happens, each field of the stored object is as it was, or one of its
owners has written it.** -/
theorem owned_of_reach {G : Type} {obs : World × account.Notes × G → system.Event → G}
    {cond : World × account.Notes × G → system.Event → Prop}
    {s s' : System.Config system (account.Notes × G)}
    (h : System.Reach (account.observer obs) cond Start s)
    (hs : System.Step (account.observer obs) s e s') (ho' : s'.world.stored = some o') :
    ∃ o, s.world.stored = some o ∧ Owned s.record.1 o o' e ∧
      (o' = o ∨ o.resourceVersion < o'.resourceVersion) := by
  have hk := sound_of_reach (fun _ h => h) h
  obtain ⟨hl, hhappens, -⟩ := allows_of_reach (fun _ h => h) h hs
  obtain ⟨o, ho, hlater⟩ := later_of_happens hhappens ho'
  refine ⟨o, ho, ?_, hlater.version⟩
  rcases effect_of_happens hk.snapshots hl hhappens with ⟨hsame, -⟩ | ⟨o₁, ho₁, heffect⟩
  · exact .of_eq (Option.some.inj ((hsame ▸ ho').symm.trans ho))
  · obtain rfl := Option.some.inj (ho.symm.trans ho₁)
    rw [ho'] at heffect
    exact owned_of_effect hk ho heffect

/-- The first reconcile of a new object has come to its patch of the status. -/
def aboutToTurn : System.Config system (account.Notes × Unit) :=
  reconciling (fun _ _ => ()) 12 (before createdWorld ())

theorem owned_of_reach_created : ∃ e o o', aboutToTurn.world.stored = some o ∧
    Owned aboutToTurn.record.1 o o' e ∧ o'.status.indexingPhase = .pending := by
  have hreach : System.Reach noted (fun _ _ => True) Start aboutToTurn :=
    reach_reconciling (.init (start_before createdWorld ())) rfl 12
  obtain ⟨o, ho, howned, -⟩ := owned_of_reach hreach (step_reconcile noted rfl) rfl
  exact ⟨_, o, _, ho, howned, by decide⟩

end KaitoAutoIndexer.Owners
