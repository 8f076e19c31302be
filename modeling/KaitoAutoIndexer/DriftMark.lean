import KaitoAutoIndexer.SystemSteps
import KaitoAutoIndexer.ControllerSpec

/-!
How long a detected drift is remembered: when the mark of the drift detector is taken away, and
when the phase DriftRemediation is left under the strategy Manual.
-/

namespace KaitoAutoIndexer.DriftMark

open KaitoAutoIndexer.Lib KaitoAutoIndexer.Types KaitoAutoIndexer.Cluster
open KaitoAutoIndexer.Controller KaitoAutoIndexer.Detector
open KaitoAutoIndexer.System KaitoAutoIndexer.SystemSteps
open KaitoAutoIndexer.ControllerSteps (Knows PhaseStep Remediating)

open KaitoAutoIndexer.DetectorSteps (Seen Skipped marked cleared)
open KaitoAutoIndexer.ControllerSpec (demo demoWorld)

/-! ### What is remembered of a run -/

/-- The first two since the last detection, the third since DriftRemediation was entered. -/
structure Memory where
  /-- The documents were counted, and as many as the status says. -/
  equal : Bool
  /-- The policy was set to Ignore. -/
  ignored : Bool
  /-- A user has edited the spec. -/
  acted : Bool

/-- The detector marks a drift. -/
def Detects : system.Event → Bool
  | .call .detector (.update obj) (.ok _) => obj.driftDetected
  | _ => false

/-- A count of the documents of the stored object that agrees with its status. -/
def Agrees (w : World) : system.Event → Bool
  | .call .detector (.httpGetDocumentCount e i a) (.ok n) =>
    w.stored.any fun o => e == generateRAGEngineEndpoint o.spec.ragEngine o.namespace_ &&
      i == o.spec.indexName && a == o.tag &&
        int32 n == int32 o.status.numOfDocumentInIndex
  | _ => false

/-- The policy is set to Ignore. -/
def Ignores : system.Event → Bool
  | .act (.edits spec) => spec.driftRemediationPolicy == some .ignore
  | _ => false

/-- The spec is edited. -/
def Edits : system.Event → Bool
  | .act (.edits _) => true
  | _ => false

/-- The phase is turned to DriftRemediation. -/
def Enters (w : World) : system.Event → Bool
  | .call .controller (.patchStatus _ b) (.ok _) => b.status.indexingPhase == .driftRemediation &&
      w.stored.any fun o => o.status.indexingPhase != .driftRemediation
  | _ => false

def remember (x : World × account.Notes × Memory) (e : system.Event) : Memory where
  equal := if Detects e then false else x.2.2.equal || Agrees x.1 e
  ignored := if Detects e then false else x.2.2.ignored || Ignores e
  acted := if Enters x.1 e then false else x.2.2.acted || Edits e

/-- The mark goes away. -/
def Forgets (w w' : World) : Prop :=
  ∃ o o', w.stored = some o ∧ w'.stored = some o' ∧ o.driftDetected = true ∧
    o'.driftDetected = false

/-- DriftRemediation is left under the strategy Manual. -/
def Leaves (w w' : World) : Prop :=
  ∃ o o', w.stored = some o ∧ w'.stored = some o' ∧
    o.status.indexingPhase = .driftRemediation ∧ o'.status.indexingPhase ≠ .driftRemediation ∧
    o.spec.driftRemediationPolicy = some .manual

/-- A drift that may be forgotten: the documents were counted again, or it was remediated, or it
is to be ignored. -/
def Settled (w : World) (m : Memory) : Prop :=
  m.equal = true ∨ m.ignored = true ∨
    ∀ o, w.stored = some o → driftRemediated o.annotations = true

/-! ### When the detector is right to clear the mark -/

/-- The object needs no count for its mark to be taken away. -/
def Excused (o : AutoIndexer) : Prop :=
  o.spec.driftRemediationPolicy = some .ignore ∨ driftRemediated o.annotations = true

/-- A marked object is listed only when its documents are to be counted, or when it needs no
count; the count does not fail; and DriftRemediation is entered under the strategy Manual only
for a drift that is still marked, and not remediated. -/
def Heeded (x : World × account.Notes × Memory) : system.Event → Prop
  | .call .detector .list (.ok os) =>
    ∀ o ∈ os, o.driftDetected = true → Excused o ∨ ¬ Skipped o
  | .call .detector (.update _) _ => ∀ o, x.1.stored = some o → o.driftDetected = true →
    ∀ m, (x.2.1 .detector : Seen).Counted o (.error m) → Excused o
  | .call .controller (.patchStatus _ b) _ => b.status.indexingPhase = .driftRemediation →
    ∀ o, x.1.stored = some o → o.status.indexingPhase ≠ .driftRemediation →
      o.spec.driftRemediationPolicy = some .manual →
        o.driftDetected = true ∧ driftRemediated o.annotations = false
  | _ => True

variable {w w' : World} {k : account.Notes} {m : Memory} {o o' x : AutoIndexer} {e : system.Event}

/-! ### What a write changes -/

/-- What the writes make of the mark, the phase and the policy. -/
inductive Change (k : account.Notes) (o o' : AutoIndexer) (e : system.Event) : Prop
  | same (hpolicy : o'.spec.driftRemediationPolicy = o.spec.driftRemediationPolicy)
      (hphase : o'.status.indexingPhase = o.status.indexingPhase)
      (hmark : o'.annotations = o.annotations)
  | phase {x : AutoIndexer} (hb : (k .controller : Knows).base = some x)
      (hsent : (k .controller : Knows).sent = false)
      (hspec : o'.spec = o.spec) (hmark : o'.annotations = o.annotations)
      (hx : x.status.indexingPhase = o.status.indexingPhase)
      (hstep : PhaseStep x (k .controller : Knows).listing o'.status.indexingPhase)
      {b : AutoIndexer} (he : e = .call .controller (.patchStatus x b) (.ok ()))
      (hp : o'.status.indexingPhase = o.status.indexingPhase ∨
        o'.status.indexingPhase = b.status.indexingPhase)
  | remediated {x : AutoIndexer} (hr : (k .controller : Knows).read = some x)
      (hrem : Remediating x (k .controller : Knows).listing) (hspec : o'.spec = o.spec)
      (hstatus : o'.status = o.status)
      (hmark : o'.annotations.driftDetected = o.annotations.driftDetected)
  | mark (hs : ¬ Skipped o) (hspec : o'.spec = o.spec) (hstatus : o'.status = o.status)
      (hmark : o'.driftDetected = true) (hd : Detects e = true)
  | clear (ho : o ∈ (k .detector : Seen).listed) (hspec : o'.spec = o.spec)
      (hstatus : o'.status = o.status)
      (hc : Skipped o ∨ (∃ m, (k .detector : Seen).Counted o (.error m)) ∨
        (k .detector : Seen).Agreed o)
      (he : ∃ obj, e = .call .detector (.update obj) (.ok ()))
      (hmark : o'.driftDetected = false)
      (hstamps : driftRemediated o'.annotations = driftRemediated o.annotations)
  | edits {spec : Spec} (he : e = .act (.edits spec)) (hspec : o'.spec = spec)
      (hstatus : o'.status = o.status) (hmark : o'.annotations = o.annotations)

lemma change_of_effect (hk : Sound w k) (ho : w.stored = some o) (h : Effect k o e (some o')) :
    Change k o o' e := by
  generalize hs : some o' = s at h
  cases h with
  | addFinalizer _ _ ho' =>
    cases hs
    exact .same (by rw [ho']; simp [finalizing]) (by rw [ho']; simp [finalizing])
      (by rw [ho']; simp [finalizing])
  | suspend _ _ _ _ _ _ _ ho' =>
    cases hs
    exact .same (by rw [ho']; simp [suspending, AutoIndexer.withSpec])
      (by rw [ho']; simp [suspending, AutoIndexer.withSpec])
      (by rw [ho']; simp [suspending, AutoIndexer.withSpec])
  | resume _ _ _ _ _ _ _ ho' =>
    cases hs
    exact .same (by rw [ho']; simp [suspending, AutoIndexer.withSpec])
      (by rw [ho']; simp [suspending, AutoIndexer.withSpec])
      (by rw [ho']; simp [suspending, AutoIndexer.withSpec])
  | remediated hr _ _ hrem _ ho' =>
    cases hs
    exact .remediated hr hrem (by rw [ho']; simp [remediatedAt]) (by rw [ho']; simp [remediatedAt])
      (by rw [ho']; simp [remediatedAt])
  | status hr hb hsent hv hw hc =>
    cases hs
    rcases phase_of_merge hk ho hr hb hsent hv hw hc with hp | ⟨hx, hstep⟩
    · exact .same (by simp [AutoIndexer.withStatus]) (by simpa [AutoIndexer.withStatus] using hp)
        (by simp [AutoIndexer.withStatus])
    · refine .phase hb hsent (by simp [AutoIndexer.withStatus]) (by simp [AutoIndexer.withStatus]) hx
        (by simpa [AutoIndexer.withStatus] using hstep) rfl ?_
      simp only [accept_status, AutoIndexer.withStatus, mergeStatus, pick]
      split
      · exact .inl rfl
      · exact .inr rfl
  | release _ _ ho' =>
    rcases ho' with rfl | rfl
    · cases hs
    · cases hs
      exact .same (by simp [finalizing]) (by simp [finalizing]) (by simp [finalizing])
  | mark _ hskip =>
    cases hs
    exact .mark hskip (by simp [marked]) (by simp [marked])
      (by simp [marked, AutoIndexer.driftDetected]) (by simp [Detects, marked, AutoIndexer.driftDetected])
  | clear ho' _ hc =>
    cases hs
    refine .clear ho' (by simp [cleared]) (by simp [cleared]) hc ⟨_, rfl⟩
      (by simp [cleared, AutoIndexer.driftDetected]) ?_
    simp [cleared, driftRemediated]
  | drop => cases hs
  | job hl hv =>
    cases hs
    exact .same (by simp [AutoIndexer.withStatus])
      (by simpa [AutoIndexer.withStatus] using phase_of_job hk.snapshots ho hl hv)
      (by simp [AutoIndexer.withStatus])
  | edits =>
    cases hs
    exact .edits rfl (by simp [AutoIndexer.withSpec]) (by simp [AutoIndexer.withSpec])
      (by simp [AutoIndexer.withSpec])
  | deletes =>
    unfold deleted at hs
    split at hs
    · cases hs
    · cases hs
      exact .same (by simp) (by simp) (by simp)

/-! ### The invariant -/

/-- The drift of an object waits for the user. -/
def Waiting (o : AutoIndexer) : Prop :=
  o.driftDetected = true ∧ driftRemediated o.annotations = false

/-- The object is in DriftRemediation under the strategy Manual. -/
def Manual (o : AutoIndexer) : Prop :=
  o.status.indexingPhase = .driftRemediation ∧ o.spec.driftRemediationPolicy = some .manual

structure Inv (w : World) (k : account.Notes) (m : Memory) : Prop where
  ignored : ∀ o, w.stored = some o → o.driftDetected = true →
    o.spec.driftRemediationPolicy = some .ignore → m.ignored = true
  equal : ∀ o, w.stored = some o → o ∈ (k .detector : Seen).listed →
    (k .detector : Seen).Agreed o → m.equal = true
  heeded : ∀ o ∈ (k .detector : Seen).listed, o.driftDetected = true → Excused o ∨ ¬ Skipped o
  waiting : m.acted = false → ∀ o, w.stored = some o → Manual o → Waiting o
  recalled : m.acted = false → ∀ o, w.stored = some o → Manual o → ∀ f x, Recalls f →
    f (k .controller) = some x → x.status.indexingPhase = .driftRemediation →
      x.spec.driftRemediationPolicy = some .manual ∧ x.driftDetected = true

/-- **What settles a drift before its mark goes away.** -/
lemma settled_of_forgets (hk : Sound w k) (hinv : Inv w k m) (hc : Heeded (w, k, m) e)
    (hl : account.Allows k e) (h : system.Happens w e w') (hf : Forgets w w') : Settled w m := by
  obtain ⟨o, o', ho, ho', hd, hd'⟩ := hf
  rcases effect_of_happens hk.snapshots hl h with ⟨hs, -⟩ | ⟨o1, ho1, heffect⟩
  · rw [hs, ho] at ho'
    cases ho'
    rw [hd] at hd'
    cases hd'
  obtain rfl := Option.some.inj (ho.symm.trans ho1)
  rw [ho'] at heffect
  have hsame : ∀ {a : Prop}, o'.annotations.driftDetected = o.annotations.driftDetected → a := by
    intro a hmark
    unfold AutoIndexer.driftDetected at hd hd'
    rw [hmark, hd] at hd'
    cases hd'
  cases change_of_effect hk ho heffect with
  | same _ _ hmark => exact hsame (by rw [hmark])
  | phase _ _ _ hmark => exact hsame (by rw [hmark])
  | remediated _ _ _ _ hmark => exact hsame hmark
  | mark _ _ _ hmark =>
    rw [hmark] at hd'
    cases hd'
  | edits _ _ _ hmark => exact hsame (by rw [hmark])
  | clear hlist _ _ hreason he _ _ =>
    have hexcused : Excused o → Settled w m := by
      rintro (hi | hr)
      · exact .inr (.inl (hinv.ignored o ho hd hi))
      · refine .inr (.inr fun y hy => ?_)
        obtain rfl := Option.some.inj (ho.symm.trans hy)
        exact hr
    rcases hreason with hskip | ⟨msg, hfail⟩ | hequal
    · exact hexcused ((hinv.heeded o hlist hd).resolve_right (not_not_intro hskip))
    · obtain ⟨obj, rfl⟩ := he
      exact hexcused (hc o ho hd msg hfail)
    · exact .inl (hinv.equal o ho hlist hequal)

/-- **The user acts before DriftRemediation is left under the strategy Manual.** -/
lemma acted_of_leaves (hk : Sound w k) (hinv : Inv w k m) (hl : account.Allows k e)
    (h : system.Happens w e w') (hf : Leaves w w') : m.acted = true := by
  obtain ⟨o, o', ho, ho', hp, hp', hm⟩ := hf
  by_contra hacted
  rw [Bool.not_eq_true] at hacted
  rcases effect_of_happens hk.snapshots hl h with ⟨hs, -⟩ | ⟨o1, ho1, heffect⟩
  · rw [hs, ho] at ho'
    cases ho'
    exact hp' hp
  obtain rfl := Option.some.inj (ho.symm.trans ho1)
  rw [ho'] at heffect
  cases change_of_effect hk ho heffect with
  | same _ hphase => exact hp' (hphase.trans hp)
  | remediated _ _ _ hstatus => exact hp' (by rw [hstatus]; exact hp)
  | mark _ _ hstatus => exact hp' (by rw [hstatus]; exact hp)
  | clear _ _ hstatus => exact hp' (by rw [hstatus]; exact hp)
  | edits _ _ hstatus => exact hp' (by rw [hstatus]; exact hp)
  | phase hb _ _ _ hx hstep =>
    obtain ⟨hpolicy, hdrift⟩ := hinv.recalled hacted o ho ⟨hp, hm⟩ _ _ (.inr (.inr rfl)) hb
      (hx.trans hp)
    generalize o'.status.indexingPhase = p at hstep
    cases hstep with
    | driftIgnored _ hi =>
      rw [hpolicy] at hi
      cases hi
    | driftOver _ _ hd =>
      rw [hdrift] at hd
      cases hd
    | start h | pendingSuspended h | pendingScheduled h | pendingFailed h
    | pendingRunning h | scheduledSuspended h | scheduledRunning h | drifted h
    | unsuspended h | runningFailed h | runningScheduled h | runningCompleted h =>
      rw [hx, hp] at h
      cases h

/-! ### One step -/

/-- A detection is a count that differs, of documents that are to be counted. -/
lemma effect_of_detects (h : Effect k o e (some o')) (hd : Detects e = true) :
    o ∈ (k .detector : Seen).listed ∧ ¬ Skipped o ∧ o'.spec = o.spec ∧
      ∃ n, (k .detector : Seen).Counted o (.ok n) ∧
        int32 o.status.numOfDocumentInIndex ≠ int32 n := by
  generalize hs : some o' = s at h
  cases h with
  | mark hlist hskip hc hn =>
    cases hs
    exact ⟨hlist, hskip, by simp [marked], _, hc, hn⟩
  | clear => simp [Detects, cleared, AutoIndexer.driftDetected] at hd
  | drop => cases hs
  | _ => cases hd

/-- Other writes do not mark a drift. -/
lemma driftDetected_of_effect (hk : Sound w k) (ho : w.stored = some o)
    (h : Effect k o e (some o')) (hd : Detects e = false) (hu : o.driftDetected = false) :
    o'.driftDetected = false := by
  have hsame : o'.annotations.driftDetected = o.annotations.driftDetected →
      o'.driftDetected = false := by
    intro hmark
    unfold AutoIndexer.driftDetected at hu ⊢
    rwa [hmark]
  cases change_of_effect hk ho h with
  | same _ _ hmark => exact hsame (by rw [hmark])
  | phase _ _ _ hmark => exact hsame (by rw [hmark])
  | remediated _ _ _ _ hmark => exact hsame hmark
  | mark _ _ _ _ hd' =>
    rw [hd] at hd'
    cases hd'
  | clear _ _ _ _ _ hmark => exact hmark
  | edits _ _ _ hmark => exact hsame (by rw [hmark])

lemma detects_of_not_accepts (h : Accepts e = false) : Detects e = false := by
  by_contra hd
  rw [Bool.not_eq_false] at hd
  unfold Detects at hd
  split at hd
  · cases h
  · cases hd

lemma enters_of_not_accepts (h : Accepts e = false) : Enters w e = false := by
  by_contra hd
  rw [Bool.not_eq_false] at hd
  unfold Enters at hd
  split at hd
  · cases h
  · cases hd

lemma enters_some (h : Enters w e = true) (ho : w.stored = some o) :
    (∃ a b, e = .call .controller (.patchStatus a b) (.ok ()) ∧
      b.status.indexingPhase = .driftRemediation) ∧ o.status.indexingPhase ≠ .driftRemediation := by
  unfold Enters at h
  split at h
  · rename_i a b u
    simp only [ho, Option.any_some, Bool.and_eq_true, beq_iff_eq, bne_iff_ne] at h
    exact ⟨⟨a, b, rfl, h.1⟩, h.2⟩
  · cases h

lemma ignored_step (hk : Sound w k) (hinv : Inv w k m) (hl : account.Allows k e)
    (h : system.Happens w e w') (ho' : w'.stored = some o') (hd : o'.driftDetected = true)
    (hi : o'.spec.driftRemediationPolicy = some .ignore) :
    (remember (w, k, m) e).ignored = true := by
  rcases effect_of_happens hk.snapshots hl h with ⟨hs, ha⟩ | ⟨o, ho, heffect⟩
  · rw [hs] at ho'
    simp [remember, detects_of_not_accepts ha, hinv.ignored o' ho' hd hi]
  rw [ho'] at heffect
  cases hdet : Detects e with
  | true =>
    obtain ⟨-, hskip, hspec, -⟩ := effect_of_detects heffect hdet
    exact absurd (.inl (hspec ▸ hi)) hskip
  | false =>
    have hbefore : o.driftDetected = true → o.spec.driftRemediationPolicy = some .ignore →
        (remember (w, k, m) e).ignored = true := by
      intro hd hi
      simp [remember, hdet, hinv.ignored o ho hd hi]
    cases change_of_effect hk ho heffect with
    | same hpolicy _ hmark =>
      refine hbefore ?_ (hpolicy ▸ hi)
      unfold AutoIndexer.driftDetected at hd ⊢
      rwa [hmark] at hd
    | phase _ _ hspec hmark =>
      refine hbefore ?_ (hspec ▸ hi)
      unfold AutoIndexer.driftDetected at hd ⊢
      rwa [hmark] at hd
    | remediated _ _ hspec _ hmark =>
      refine hbefore ?_ (hspec ▸ hi)
      unfold AutoIndexer.driftDetected at hd ⊢
      rwa [hmark] at hd
    | mark _ _ _ _ hd' =>
      rw [hdet] at hd'
      cases hd'
    | clear _ _ _ _ _ hmark =>
      rw [hmark] at hd
      cases hd
    | edits he hspec =>
      subst he hspec
      simp [remember, Ignores, Detects, hi]

lemma equal_step (hk : Sound w k) (hinv : Inv w k m) (hl : account.Allows k e)
    (h : system.Happens w e w') (ho' : w'.stored = some o')
    (hlist : o' ∈ (account.watch k e .detector : Seen).listed)
    (hc : (account.watch k e .detector : Seen).Agreed o') :
    (remember (w, k, m) e).equal = true := by
  rcases effect_of_happens hk.snapshots hl h with ⟨hs, ha⟩ | ⟨o, ho, heffect⟩
  · have hdet : Detects e = false := detects_of_not_accepts ha
    rw [hs] at ho'
    simp only [remember, hdet, Bool.false_eq_true, if_false, Bool.or_eq_true]
    obtain ⟨n, hc, hn⟩ := hc
    rcases counted_watch hc with hcounted | rfl
    · rcases listed_watch hlist with hlist | ⟨os, rfl, -⟩
      · exact .inl (hinv.equal o' ho' hlist ⟨n, hcounted, hn⟩)
      · -- a check lists once, and before it counts
        cases hl with
        | list hfresh =>
          rw [hfresh] at hcounted
          cases hcounted
    · right
      simp [Agrees, ho', hn]
  · have hlist' : o' ∈ (k .detector : Seen).listed := by
      rcases listed_watch hlist with hlist | ⟨os, rfl, -⟩
      · exact hlist
      · cases heffect
    obtain rfl : o' = o := eq_of_mentioned hk.snapshots h (.inr (.inl hlist')) ho ho'
    have hc' : (k .detector : Seen).Agreed o' := by
      obtain ⟨n, hc, hn⟩ := hc
      rcases counted_watch hc with hc | rfl
      · exact ⟨n, hc, hn⟩
      · generalize w'.stored = s at heffect
        cases heffect
    rw [ho'] at heffect
    have hdet : Detects e = false := by
      by_contra hd
      obtain ⟨-, -, -, n, hn, hne⟩ := effect_of_detects heffect (by simpa using hd)
      obtain ⟨n', hn', heq⟩ := hc'
      unfold Seen.Counted at hn' hn
      rw [hn'] at hn
      simp only [Option.some.injEq, Prod.mk.injEq, Except.ok.injEq, true_and] at hn
      exact hne (hn ▸ heq)
    simp [remember, hdet, hinv.equal o' ho hlist' hc']

lemma heeded_step (hinv : Inv w k m) (hc : Heeded (w, k, m) e)
    (hx : x ∈ (account.watch k e .detector : Seen).listed) (hd : x.driftDetected = true) :
    Excused x ∨ ¬ Skipped x := by
  rcases listed_watch hx with hx | ⟨os, rfl, hx⟩
  · exact hinv.heeded x hx hd
  · exact hc x hx hd

/-- The patch that enters DriftRemediation changes neither the mark nor the policy. -/
lemma Change.entered (h : Change k o o' e) (hp : o.status.indexingPhase ≠ .driftRemediation)
    (hp' : o'.status.indexingPhase = .driftRemediation) :
    (k .controller : Knows).sent = false ∧ o'.spec = o.spec ∧ o'.annotations = o.annotations := by
  cases h with
  | same _ hphase => exact absurd (hphase.symm.trans hp') hp
  | phase _ hsent hspec hmark => exact ⟨hsent, hspec, hmark⟩
  | remediated _ _ _ hstatus => exact absurd (by rwa [hstatus] at hp') hp
  | mark _ _ hstatus => exact absurd (by rwa [hstatus] at hp') hp
  | clear _ _ hstatus => exact absurd (by rwa [hstatus] at hp') hp
  | edits _ _ hstatus => exact absurd (by rwa [hstatus] at hp') hp

/-- Who is in DriftRemediation and has not just entered it was there before. -/
lemma Change.manual (h : Change k o o' e) (ho : w.stored = some o) (he : Enters w e = false)
    (hedit : Edits e = false) (hm : Manual o') : Manual o := by
  obtain ⟨hp, hpolicy⟩ := hm
  cases h with
  | same hpol hphase => exact ⟨hphase.symm.trans hp, hpol.symm.trans hpolicy⟩
  | @phase x _ _ hspec _ _ _ b heq hp' =>
    refine ⟨?_, by rwa [hspec] at hpolicy⟩
    by_contra hne
    have hb : b.status.indexingPhase = .driftRemediation := by
      rcases hp' with hp' | hp'
      · exact absurd (hp'.symm.trans hp) hne
      · exact hp'.symm.trans hp
    subst heq
    simp [Enters, hb, ho, hne] at he
  | remediated _ _ hspec hstatus => exact ⟨by rwa [hstatus] at hp, by rwa [hspec] at hpolicy⟩
  | mark _ hspec hstatus => exact ⟨by rwa [hstatus] at hp, by rwa [hspec] at hpolicy⟩
  | clear _ hspec hstatus => exact ⟨by rwa [hstatus] at hp, by rwa [hspec] at hpolicy⟩
  | edits heq =>
    subst heq
    cases hedit

lemma acted_of_remember (he : Enters w e = false) (ha : (remember (w, k, m) e).acted = false) :
    m.acted = false ∧ Edits e = false := by
  simpa [remember, he] using ha

lemma waiting_step (hk : Sound w k) (hinv : Inv w k m) (hc : Heeded (w, k, m) e)
    (hl : account.Allows k e) (h : system.Happens w e w')
    (ha : (remember (w, k, m) e).acted = false) (ho' : w'.stored = some o') (hm : Manual o') :
    Waiting o' := by
  rcases effect_of_happens hk.snapshots hl h with ⟨hs, hacc⟩ | ⟨o, ho, heffect⟩
  · rw [hs] at ho'
    exact hinv.waiting (acted_of_remember (enters_of_not_accepts hacc) ha).1 o' ho' hm
  rw [ho'] at heffect
  have hchange := change_of_effect hk ho heffect
  have hsame : o'.annotations = o.annotations → Waiting o → Waiting o' := by
    rintro hmark ⟨h1, h2⟩
    refine ⟨?_, by rwa [hmark]⟩
    unfold AutoIndexer.driftDetected at h1 ⊢
    rwa [hmark]
  cases he : Enters w e with
  | true =>
    obtain ⟨⟨a, b, rfl, hb⟩, hp⟩ := enters_some he ho
    obtain ⟨-, hspec, hmark⟩ := hchange.entered hp hm.1
    exact hsame hmark (hc hb o ho hp (by rw [← hspec]; exact hm.2))
  | false =>
    have hacts := acted_of_remember he ha
    have hbefore : Manual o := hchange.manual ho he hacts.2 hm
    have hwait : Waiting o := hinv.waiting hacts.1 o ho hbefore
    have hskip : Skipped o := by
      refine .inr (.inl ?_)
      rw [hbefore.1]
      decide
    cases hchange with
    | same _ _ hmark => exact hsame hmark hwait
    | phase _ _ _ hmark => exact hsame hmark hwait
    | @remediated x hr hrem =>
      -- only an Auto policy is remediated
      obtain ⟨hpolicy, -⟩ := hinv.recalled hacts.1 o ho hbefore _ x (.inr (.inl rfl)) hr hrem.phase
      rw [hrem.policy] at hpolicy
      cases hpolicy
    | mark hnot => exact absurd hskip hnot
    | clear hlist =>
      rcases hinv.heeded o hlist hwait.1 with (hi | hr) | hnot
      · rw [hbefore.2] at hi
        cases hi
      · rw [hwait.2] at hr
        cases hr
      · exact absurd hskip hnot
    | edits heq =>
      subst heq
      cases hacts.2

lemma recalled_step (hk : Sound w k) (hinv : Inv w k m) (hc : Heeded (w, k, m) e)
    (hl : account.Allows k e) (h : system.Happens w e w')
    (ha : (remember (w, k, m) e).acted = false) (ho' : w'.stored = some o') (hm : Manual o')
    {f : Knows → Option AutoIndexer} (hf : Recalls f)
    (hx : f (account.watch k e .controller) = some x)
    (hp : x.status.indexingPhase = .driftRemediation) :
    x.spec.driftRemediationPolicy = some .manual ∧ x.driftDetected = true := by
  rcases recalls_watch hf h hx with hx | hx
  · rcases effect_of_happens hk.snapshots hl h with ⟨hs, hacc⟩ | ⟨o, ho, heffect⟩
    · rw [hs] at ho'
      have hacts := acted_of_remember (enters_of_not_accepts hacc) ha
      exact hinv.recalled hacts.1 o' ho' hm f x hf hx hp
    · rw [ho'] at heffect
      have hchange := change_of_effect hk ho heffect
      cases he : Enters w e with
      | true =>
        -- the reconcile that enters has read another phase
        obtain ⟨-, hne⟩ := enters_some he ho
        obtain ⟨hsent, -⟩ := hchange.entered hne hm.1
        exact absurd ((hk.phases hsent f hf x hx o ho).symm.trans hp) hne
      | false =>
        have hacts := acted_of_remember he ha
        exact hinv.recalled hacts.1 o ho (hchange.manual ho he hacts.2 hm) f x hf hx hp
  · obtain rfl := Option.some.inj (ho'.symm.trans hx)
    exact ⟨hm.2, (waiting_step hk hinv hc hl h ha ho' hm).1⟩

lemma inv_step (hk : Sound w k) (hinv : Inv w k m) (hc : Heeded (w, k, m) e)
    (hl : account.Allows k e) (h : system.Happens w e w') :
    Inv w' (account.watch k e) (remember (w, k, m) e) where
  ignored _ ho hd hi := ignored_step hk hinv hl h ho hd hi
  equal _ ho hlist hcount := equal_step hk hinv hl h ho hlist hcount
  heeded _ hx hd := heeded_step hinv hc hx hd
  waiting ha _ ho hm := waiting_step hk hinv hc hl h ha ho hm
  recalled ha _ ho hm _ _ hf hx hp := recalled_step hk hinv hc hl h ha ho hm hf hx hp

/-! ### Runs -/

/-- Nothing is in flight, and no drift is marked or handled. -/
def Opening (s : System.Config system (account.Notes × Memory)) : Prop :=
  StartWith ⟨false, false, false⟩ s ∧ ∀ o, s.world.stored = some o →
    o.driftDetected = false ∧ o.status.indexingPhase ≠ .driftRemediation

lemma inv_of_reach {s : System.Config system (account.Notes × Memory)}
    (h : System.Reach (account.observer remember) Heeded Opening s) :
    Sound s.world s.record.1 ∧ Inv s.world s.record.1 s.record.2 := by
  refine invariant_of_reach (I := fun x => Inv x.1 x.2.1 x.2.2) ?_ ?_ h
  · rintro s ⟨⟨hstart, hr⟩, hopen⟩
    refine ⟨hstart, ?_⟩
    change Inv s.world s.record.1 s.record.2
    rw [hstart.2, hr]
    refine ⟨fun o ho hd => ?_, fun o _ hlist => ?_, fun o hlist => ?_, fun _ o ho hm => ?_,
      fun _ o ho hm => ?_⟩
    · rw [(hopen o ho).1] at hd
      cases hd
    · cases hlist
    · cases hlist
    · exact absurd hm.1 (hopen o ho).2
    · exact absurd hm.1 (hopen o ho).2
  · exact fun w k m e w' hk hinv hc hl hw => inv_step hk hinv hc hl hw

/-- **A detected drift is forgotten only when it is settled, and under the strategy Manual
DriftRemediation is left only after the user has acted**, in every run whose steps are heeded. -/
theorem drift_remembered {s s' : System.Config system (account.Notes × Memory)} {e : system.Event}
    (h : System.Reach (account.observer remember) Heeded Opening s)
    (hs : System.Step (account.observer remember) s e s') (hc : Heeded s.view e) :
    (Forgets s.world s'.world → Settled s.world s.record.2) ∧
      (Leaves s.world s'.world → s.record.2.acted = true) := by
  obtain ⟨hk, hinv⟩ := inv_of_reach h
  obtain ⟨hl, hw, -⟩ := allows_of_reach (fun s hs => hs.1.1) h hs
  exact ⟨settled_of_forgets hk hinv hc hl hw, acted_of_leaves hk hinv hl hw⟩

/-! ### A mark that is taken away -/

/-- The test of `Heeded`. -/
def heededTest (x : World × account.Notes × Memory) : system.Event → Bool
  | .call .detector .list (.ok os) => os.all fun o =>
    !o.driftDetected || decide (o.status.indexingPhase = .scheduled) &&
      decide (o.status.numOfDocumentInIndex ≠ 0) && !o.spec.suspended &&
      decide (o.spec.driftRemediationPolicy ≠ some .ignore)
  | .call .detector (.update _) _ => match (x.2.1 .detector : Seen).counted with
    | some (_, _, _, .error _) => false
    | _ => true
  | .call .controller (.patchStatus _ b) _ => decide (b.status.indexingPhase ≠ .driftRemediation)
  | _ => true

lemma heeded_of_test {x : World × account.Notes × Memory} {e : system.Event}
    (h : heededTest x e = true) : Heeded x e := by
  unfold Heeded
  split
  · intro o ho hd
    have h := List.all_eq_true.mp h o ho
    right
    rintro (hs | hs | hs | hs) <;> simp [hd, hs] at h
  · intro o _ _ m hm
    simp only [heededTest, DetectorSteps.Seen.Counted] at h hm
    rw [hm] at h
    cases h
  · intro hb
    simp [heededTest, hb] at h
  · trivial

/-- An AutoIndexer in the phase Scheduled that has indexed a document. -/
def scheduled : AutoIndexer :=
  { demo with
    spec := { demo.spec with schedule := some "@daily", driftRemediationPolicy := some .manual }
    status := { demo.status with indexingPhase := .scheduled, numOfDocumentInIndex := 1 } }

def indexes (docs : Rag.Store) : List Index :=
  [⟨"http://rag.default.svc.cluster.local:80", "index", docs⟩]

/-- The document has gone from the index. -/
def lostWorld : World := { demoWorld with stored := some scheduled, indexes := indexes [] }

/-- A document of the AutoIndexer. -/
def kept : Rag.StoredDocument := ⟨1, "text", [("autoindexer", "default_docs")]⟩

/-- The first `n` calls of a check in a state. -/
abbrev ticked (n : ℕ) (s : System.Config system (account.Notes × Memory)) :
    System.Config system (account.Notes × Memory) :=
  let y := ticking remember heededTest n s
  ⟨y.2.1.1, y.2.1.2, Function.update s.threads .detector (some y.1)⟩

/-- The check is over. -/
abbrev checked (s : System.Config system (account.Notes × Memory)) :
    System.Config system (account.Notes × Memory) :=
  ⟨s.world, s.record, Function.update s.threads .detector none⟩

/-- The document is indexed again. -/
abbrev restored (s : System.Config system (account.Notes × Memory)) :
    System.Config system (account.Notes × Memory) :=
  ⟨{ s.world with indexes := indexes [kept] }, s.record, s.threads⟩

/-- A drift was detected, and the documents are counted again. -/
def recounted : System.Config system (account.Notes × Memory) :=
  ticked 2 (restored (checked (ticked 10 (before lostWorld ⟨false, false, false⟩))))

/-- The test of `Forgets`. -/
def forgetsTest (w w' : World) : Bool :=
  match w.stored, w'.stored with
  | some o, some o' => o.driftDetected && !o'.driftDetected
  | _, _ => false

lemma forgets_of_test {s s' : System.Config system (account.Notes × Memory)} {e : system.Event}
    (_ : System.Step (account.observer remember) s e s')
    (h : forgetsTest s.world s'.world = true) : Forgets s.world s'.world := by
  unfold forgetsTest at h
  split at h
  · rename_i o o' ho ho'
    simp only [Bool.and_eq_true, Bool.not_eq_true'] at h
    exact ⟨o, o', ho, ho', h.1, h.2⟩
  · cases h

lemma reach_recounted : System.Reach (account.observer remember) Heeded Opening recounted := by
  have h0 : System.Reach (account.observer remember) Heeded Opening
      (before lostWorld ⟨false, false, false⟩) := by
    refine .init ⟨⟨start_before lostWorld _, rfl⟩, ?_⟩
    rintro o ⟨⟩
    decide
  have h1 := reach_ticking (fun _ _ => heeded_of_test) h0 rfl trivial 10 (by decide)
  have h2 := System.Reach.step h1 (.finish (i := .detector) (a := ()) rfl) trivial
  have hback : ∀ w : World, Env (.others w.ragEngines (indexes [kept]) w.children w.image) w
      { w with indexes := indexes [kept] } := fun w => .others
  have h3 := System.Reach.step h2 (.act (hback _)) trivial
  exact reach_ticking (fun _ _ => heeded_of_test) h3 rfl trivial 2 (by decide)

/-- The mark goes away after the documents were counted again. -/
theorem drift_remembered_recounted :
    ∃ s s' e, System.Reach (account.observer remember) Heeded Opening s ∧
      System.Step (account.observer remember) s e s' ∧ Forgets s.world s'.world ∧
      Settled s.world s.record.2 := by
  have hstep := step_tick (account.observer remember) (s := recounted) rfl
  have hforgets := forgets_of_test hstep (by decide)
  refine ⟨_, _, _, reach_recounted, hstep, hforgets, ?_⟩
  exact (drift_remembered reach_recounted hstep (heeded_of_test (by decide))).1 hforgets

/-- A drift was detected, the phase was turned to DriftRemediation, and the next check begins. -/
def forgetting : System.Config system (account.Notes × Memory) :=
  ticked 1 (reconciling remember 40 (checked (ticked 10 (before lostWorld ⟨false, false, false⟩))))

/-- The check that follows a detection takes the mark of a drift away that waits for the user. -/
theorem not_drift_remembered :
    ¬ ∀ (s s' : System.Config system (account.Notes × Memory)) (e : system.Event),
      System.Reach (account.observer remember) (fun _ _ => True) Opening s →
      System.Step (account.observer remember) s e s' →
      (Forgets s.world s'.world → Settled s.world s.record.2) ∧
        (Leaves s.world s'.world → s.record.2.acted = true) := by
  intro h
  have h0 : System.Reach (account.observer remember) (fun _ _ => True) Opening
      (before lostWorld ⟨false, false, false⟩) := by
    refine .init ⟨⟨start_before lostWorld _, rfl⟩, ?_⟩
    rintro o ⟨⟩
    decide
  have h1 := reach_ticking (fun _ _ _ => trivial) h0 rfl trivial 10
    (show (ticking remember (fun _ _ => true) 10 _).2.2 = true by decide)
  have h2 := System.Reach.step h1 (.finish (i := .detector) (a := ()) rfl) trivial
  have h3 := reach_reconciling h2 rfl 40
  have h4 := reach_ticking (fun _ _ _ => trivial) h3 rfl trivial 1
    (show (ticking remember (fun _ _ => true) 1 _).2.2 = true by decide)
  have hstep := step_tick (account.observer remember) (s := forgetting) rfl
  rcases (h _ _ _ h4 hstep).1 (forgets_of_test hstep (by decide)) with hequal | hignored | hstamps
  · exact absurd hequal (by decide)
  · exact absurd hignored (by decide)
  · exact absurd (hstamps _ rfl) (by decide)

end KaitoAutoIndexer.DriftMark
