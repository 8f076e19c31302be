import KaitoAutoIndexer.Detector
import KaitoAutoIndexer.ControllerCalls

/-!
What a drift check does, call by call: whom it counts for, whom it marks, and whose mark it
takes away, with what it has seen before as its reason.
-/

namespace KaitoAutoIndexer.DetectorSteps

open KaitoAutoIndexer.Lib KaitoAutoIndexer.Types
open KaitoAutoIndexer.Cluster KaitoAutoIndexer.Controller KaitoAutoIndexer.ControllerCalls
open KaitoAutoIndexer.Detector

/-! ### What a check sees -/

structure Seen where
  listed : List AutoIndexer
  /-- The last count of documents: of which index and owner, and the answer. -/
  counted : Option (String × String × String × Except String ℕ)

/-- Before the first call of a check. -/
def unseen : Seen := ⟨[], none⟩

/-- What an answer adds. -/
def look (g : Seen) : (c : Call) → Answer c → Seen
  | .list, .ok os => { g with listed := os }
  | .httpGetDocumentCount e i a, r => { g with counted := some (e, i, a, r) }
  | _, _ => g

/-- The documents of `o` were counted last, with this answer. -/
def Seen.Counted (g : Seen) (o : AutoIndexer) (r : Except String ℕ) : Prop :=
  g.counted = some (generateRAGEngineEndpoint o.spec.ragEngine o.namespace_, o.spec.indexName,
    o.tag, r)

/-- The documents of `o` were counted last, and the count is taken for the recorded one. -/
def Seen.Agreed (g : Seen) (o : AutoIndexer) : Prop :=
  ∃ n, g.Counted o (.ok n) ∧ int32 o.status.numOfDocumentInIndex = int32 n

/-- The documents of the object are not counted. -/
def Skipped (o : AutoIndexer) : Prop :=
  o.spec.driftRemediationPolicy = some .ignore ∨ o.status.indexingPhase ≠ .scheduled ∨
    o.status.numOfDocumentInIndex = 0 ∨ o.spec.suspended = true

/-- The object with the mark of a drift. -/
def marked (o : AutoIndexer) (t : Time) : AutoIndexer :=
  { o with annotations :=
    { o.annotations with driftDetected := some "true", lastDriftDetected := some (Stamp.format t) } }

/-- The object with the mark taken away. -/
def cleared (o : AutoIndexer) : AutoIndexer :=
  { o with annotations := { o.annotations with driftDetected := some "false" } }

/-- The calls of a check, and the reasons for its updates. -/
inductive Lawful (g : Seen) : Call → Prop
  | list (h : g = unseen) : Lawful g .list
  | now : Lawful g .now
  | count {o : AutoIndexer} (ho : o ∈ g.listed) (hs : ¬ Skipped o) :
      Lawful g (.httpGetDocumentCount (generateRAGEngineEndpoint o.spec.ragEngine o.namespace_)
        o.spec.indexName o.tag)
  | mark {o : AutoIndexer} {t : Time} {n : ℕ} (ho : o ∈ g.listed) (hs : ¬ Skipped o)
      (hc : g.Counted o (.ok n)) (hn : int32 o.status.numOfDocumentInIndex ≠ int32 n) :
      Lawful g (.update (marked o t))
  | clear {o : AutoIndexer} (ho : o ∈ g.listed)
      (hd : o.annotations.driftDetected.getD "" ≠ "" ∧ o.annotations.driftDetected ≠ some "false")
      (hc : Skipped o ∨ (∃ m, g.Counted o (.error m)) ∨ g.Agreed o) :
      Lawful g (.update (cleared o))

/-- Whatever a program sees, it makes lawful calls only. -/
abbrev Steps {α : Type} (Q : α → Seen → Prop) (p : Go α) (g : Seen) : Prop :=
  Tells look Lawful Q p g

variable {g : Seen} {o : AutoIndexer}

/-! ### One object -/

lemma isAutoIndexerInStableState_iff (o : AutoIndexer) :
    isAutoIndexerInStableState o = true ↔ o.status.indexingPhase = .scheduled := by
  unfold isAutoIndexerInStableState
  split <;> simp_all

lemma getDocumentCount_steps (ho : o ∈ g.listed) (hs : ¬ Skipped o) :
    Steps (fun r g' => g'.listed = g.listed ∧ (∀ m, r = .ok m → ∃ n, g'.Counted o (.ok n) ∧ m = int32 n) ∧
      (∀ e, r = .error e → ∃ m, g'.Counted o (.error m)))
      (getDocumentCount o.spec.ragEngine o.spec.indexName o.name o.namespace_) g := by
  have hattempt : ∀ g', g'.listed = g.listed →
      Steps (fun r g'' => g''.listed = g.listed ∧ g''.Counted o r)
        (ask (.httpGetDocumentCount (generateRAGEngineEndpoint o.spec.ragEngine o.namespace_)
          o.spec.indexName (o.namespace_ ++ "_" ++ o.name))) g' := by
    intro g' hg
    exact tells_ask (.count (by rw [hg]; exact ho) hs) fun r => tells_ret ⟨hg, rfl⟩
  have hretry : ∀ n g', g'.listed = g.listed →
      Steps (fun r g'' => g''.listed = g.listed ∧ g''.Counted o r)
        (retry (ask (.httpGetDocumentCount
          (generateRAGEngineEndpoint o.spec.ragEngine o.namespace_) o.spec.indexName
          (o.namespace_ ++ "_" ++ o.name))) n) g' := by
    intro n
    induction n with
    | zero => exact hattempt
    | succ n ih =>
      intro g' hg
      refine (hattempt g' hg).bind ?_
      rintro r g'' ⟨hg, hr⟩
      cases r with
      | ok a => exact tells_ret ⟨hg, hr⟩
      | error e => exact ih g'' hg
  refine (hretry maxRetries g rfl).bind ?_
  rintro r g' ⟨hg, hr⟩
  cases r with
  | ok n =>
    refine tells_ret ⟨hg, fun m hm => ⟨n, hr, ?_⟩, by simp⟩
    exact (Except.ok.inj hm).symm
  | error e => exact tells_ret ⟨hg, by simp, fun _ _ => ⟨e, hr⟩⟩

/-- What is known once an object was checked. -/
def Checked (g : Seen) (o : AutoIndexer) (drift : Bool) : Prop :=
  if drift then
    ¬ Skipped o ∧ ∃ n, g.Counted o (.ok n) ∧ int32 o.status.numOfDocumentInIndex ≠ int32 n
  else Skipped o ∨ (∃ m, g.Counted o (.error m)) ∨ g.Agreed o

lemma checkAutoIndexerDrift_steps (ho : o ∈ g.listed) :
    Steps (fun r g' => g'.listed = g.listed ∧ Checked g' o r.driftDetected)
      (checkAutoIndexerDrift o) g := by
  have hskip : ∀ r : DriftDetectionResult, r.driftDetected = false → Skipped o →
      Steps (fun r g' => g'.listed = g.listed ∧ Checked g' o r.driftDetected) (.ret r) g := by
    intro r hr hs
    refine tells_ret ⟨rfl, ?_⟩
    rw [hr]
    exact .inl hs
  unfold checkAutoIndexerDrift
  extract_lets result
  split
  · rename_i h
    exact hskip _ rfl (.inl h)
  rename_i hpolicy
  split
  · rename_i h
    refine hskip _ rfl (.inr (.inl ?_))
    rwa [isAutoIndexerInStableState_iff] at h
  rename_i hphase
  split
  · rename_i h
    exact hskip _ rfl (.inr (.inr (.inl h)))
  rename_i hnum
  split
  · rename_i h
    exact hskip _ rfl (.inr (.inr (.inr h)))
  rename_i hsuspended
  have hs : ¬ Skipped o := by
    rw [not_not, isAutoIndexerInStableState_iff] at hphase
    rintro (h | h | h | h)
    · exact hpolicy h
    · exact h hphase
    · exact hnum h
    · exact hsuspended h
  refine (getDocumentCount_steps ho hs).bind ?_
  rintro r g' ⟨hg, hok, herr⟩
  cases r with
  | error e => exact tells_ret ⟨hg, .inr (.inl (herr e rfl))⟩
  | ok m =>
    refine tells_ret ⟨hg, ?_⟩
    obtain ⟨n, hn, rfl⟩ := hok m rfl
    by_cases heq : int32 o.status.numOfDocumentInIndex = int32 n
    · have hfalse : decide (result.expectedCount ≠ int32 n) = false := by simpa [result] using heq
      rw [hfalse]
      exact .inr (.inr ⟨n, hn, heq⟩)
    · have htrue : decide (result.expectedCount ≠ int32 n) = true := by simpa [result] using heq
      rw [htrue]
      exact ⟨hs, n, hn, heq⟩

lemma setDriftDetected_steps (ho : o ∈ g.listed) (h : Checked g o true) :
    Steps (fun _ g' => g'.listed = g.listed) (setDriftDetected o) g := by
  obtain ⟨hs, n, hc, hn⟩ := h
  refine tells_ask .now fun t => tells_ask (.mark ho hs hc hn) fun r => ?_
  exact tells_ret rfl

lemma setDriftRemediated_steps (ho : o ∈ g.listed) (h : Checked g o false) :
    Steps (fun _ g' => g'.listed = g.listed) (setDriftRemediated o) g := by
  unfold setDriftRemediated
  extract_lets d
  split
  · exact tells_ret rfl
  · rename_i hd
    rw [not_or] at hd
    refine tells_ask (.clear ho ⟨hd.1, fun hf => hd.2 ?_⟩ h) fun r => tells_ret rfl
    change o.annotations.driftDetected.getD "" = "false"
    rw [hf]
    rfl

lemma checkAndMark_steps (ho : o ∈ g.listed) :
    Steps (fun _ g' => g'.listed = g.listed) (checkAndMark o) g := by
  refine (checkAutoIndexerDrift_steps ho).bind ?_
  rintro r g1 ⟨hg, hr⟩
  have ho1 : o ∈ g1.listed := by rwa [hg]
  cases hd : r.driftDetected with
  | true =>
    rw [hd] at hr
    simp only [if_true]
    exact (setDriftDetected_steps ho1 hr).bind fun _ g2 h2 => tells_ret (h2.trans hg)
  | false =>
    rw [hd] at hr
    simp only [Bool.false_eq_true, if_false]
    exact (setDriftRemediated_steps ho1 hr).bind fun _ g2 h2 => tells_ret (h2.trans hg)

/-! ### A check -/

lemma checkAll_steps (os : List AutoIndexer) {g : Seen} (hos : ∀ o ∈ os, o ∈ g.listed) :
    Steps (fun _ _ => True) (checkAll os) g := by
  induction os generalizing g with
  | nil => exact tells_ret trivial
  | cons o os ih =>
    refine (checkAndMark_steps (hos o List.mem_cons_self)).bind fun _ g' hg => ?_
    refine ih fun o' ho' => ?_
    rw [hg]
    exact hos o' (List.mem_cons_of_mem _ ho')

/-- **Every call of a drift check is lawful.** -/
theorem performDriftCheck_steps : Steps (fun _ _ => True) performDriftCheck unseen := by
  refine tells_ask (.list rfl) fun r => ?_
  cases r with
  | error e => exact tells_ret trivial
  | ok os => exact checkAll_steps os fun o ho => ho

end KaitoAutoIndexer.DetectorSteps
