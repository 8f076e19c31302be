import KaitoAutoIndexer.SystemSteps
import KaitoAutoIndexer.Remediation

/-!
How often a drift is remediated: the marks `last-drift-remediated` between two detections.
-/

namespace KaitoAutoIndexer.OneRemediation

open KaitoAutoIndexer.Lib KaitoAutoIndexer.Types
open KaitoAutoIndexer.Cluster KaitoAutoIndexer.Controller
open KaitoAutoIndexer.System KaitoAutoIndexer.SystemSteps
open KaitoAutoIndexer.ControllerSteps (Knows note)

open KaitoAutoIndexer.Remediation (drifted driftedWorld)

/-- `last-drift-detected` was written. -/
def Detects : system.Event → Bool
  | .call .detector (.update obj) (.ok _) => obj.driftDetected
  | _ => false

/-- `last-drift-remediated` was written, with a new value. -/
def Marks : system.Event → Bool
  | .call .controller (.patch a b) (.ok _) =>
    decide (a.annotations.lastDriftRemediated ≠ b.annotations.lastDriftRemediated)
  | _ => false

/-- The record: how many remediations were marked since the last detection. -/
def marks (x : World × account.Notes × ℕ) (e : system.Event) : ℕ :=
  if Detects e then 0 else if Marks e then x.2.2 + 1 else x.2.2

/-- A remediation is marked in a later second than the one that the stored detection has. -/
def Later (x : World × account.Notes × ℕ) (e : system.Event) : Prop :=
  Marks e = true → ∃ o t d, x.1.stored = some o ∧ (x.2.1 .controller : Knows).clock = some t ∧
    o.annotations.lastDriftDetected = some (.rfc3339 d) ∧ d < t / 1000000

/-- A first mark shows: in what is stored, and in what the controller reads from then on. -/
structure Inv (w : World) (g : Knows) (n : ℕ) : Prop where
  once : n ≤ 1
  stored : n = 1 → ∀ o, w.stored = some o → driftRemediated o.annotations = true
  read : n = 1 → ∀ o, g.read = some o → driftRemediated o.annotations = true

lemma driftRemediated_of_stamps {a b : Annotations}
    (hd : b.lastDriftDetected = a.lastDriftDetected)
    (hr : b.lastDriftRemediated = a.lastDriftRemediated) :
    driftRemediated b = driftRemediated a := by
  unfold driftRemediated
  rw [hd, hr]

lemma driftRemediated_of_lt {a : Annotations} {d t : ℕ} (hd : a.lastDriftDetected = some (.rfc3339 d))
    (hr : a.lastDriftRemediated = some (.rfc3339 t)) (h : d < t) : driftRemediated a = true := by
  simp [driftRemediated, hd, hr, Stamp.parse, h]

/-- Other writes leave both times as they are. -/
lemma driftRemediated_of_effect {k : account.Notes} {o o' : AutoIndexer} {e : system.Event}
    (h : Effect k o e (some o')) (hd : Detects e = false) (hm : Marks e = false) :
    driftRemediated o'.annotations = driftRemediated o.annotations := by
  generalize hs : some o' = s at h
  cases h with
  | addFinalizer _ _ ho =>
    cases hs
    rw [ho]
    simp [finalizing]
  | suspend _ _ _ _ _ _ _ ho =>
    cases hs
    rw [ho]
    simp [suspending, AutoIndexer.withSpec]
  | resume _ _ _ _ _ _ _ ho =>
    cases hs
    rw [ho]
    simp [suspending, AutoIndexer.withSpec]
  | @remediated x m _ t _ _ hmem _ _ ho =>
    cases hs
    have hx : m.annotations = x.annotations := by
      obtain ⟨cs, -, rfl⟩ := hmem
      rfl
    have heq : x.annotations.lastDriftRemediated = some (Stamp.format t) := by
      have hm : (ControllerCalls.resetStatus m).annotations.lastDriftRemediated =
          some (Stamp.format t) := not_not.mp (of_decide_eq_false hm)
      rwa [ControllerCalls.resetStatus_annotations, hx] at hm
    rw [ho, heq]
    simp [remediatedAt]
  | status =>
    cases hs
    simp [AutoIndexer.withStatus]
  | release _ _ ho =>
    rcases ho with rfl | rfl
    · cases hs
    · cases hs
      simp [finalizing]
  | mark => simp [Detects, DetectorSteps.marked, AutoIndexer.driftDetected] at hd
  | clear =>
    cases hs
    exact driftRemediated_of_stamps (by simp [DetectorSteps.cleared]) (by simp [DetectorSteps.cleared])
  | drop => cases hs
  | job =>
    cases hs
    simp [AutoIndexer.withStatus]
  | edits =>
    cases hs
    simp [AutoIndexer.withSpec]
  | deletes =>
    unfold deleted at hs
    split at hs
    · cases hs
    · cases hs
      simp

/-- A mark is the write of a remediation. -/
lemma effect_of_marks {k : account.Notes} {o o' : AutoIndexer} {e : system.Event}
    (h : Effect k o e (some o')) (hm : Marks e = true) :
    ∃ x t, (k .controller : Knows).read = some x ∧
      driftRemediated x.annotations = false ∧ (k .controller : Knows).clock = some t ∧
      o'.annotations.lastDriftDetected = o.annotations.lastDriftDetected ∧
      o'.annotations.lastDriftRemediated = some (Stamp.format t) := by
  generalize hs : some o' = s at h
  cases h with
  | addFinalizer => simp [Marks, finalizing] at hm
  | suspend => simp [Marks, suspending, AutoIndexer.withSpec] at hm
  | resume => simp [Marks, suspending, AutoIndexer.withSpec] at hm
  | @remediated x m _ t hr _ hmem hrem ht ho =>
    cases hs
    have hx : m.annotations = x.annotations := by
      obtain ⟨cs, -, rfl⟩ := hmem
      rfl
    have hne : x.annotations.lastDriftRemediated ≠ some (Stamp.format t) := by
      have hm : ¬ (ControllerCalls.resetStatus m).annotations.lastDriftRemediated =
          some (Stamp.format t) := of_decide_eq_true hm
      rwa [ControllerCalls.resetStatus_annotations, hx] at hm
    refine ⟨x, t, hr, hrem.remediated, ht, ?_, ?_⟩
    · rw [ho]
      simp [remediatedAt]
    · rw [ho]
      simp [remediatedAt, pick, hne]
  | _ => cases hm

lemma marks_eq {e : system.Event} (h : Marks e = true) :
    ∃ a b o, e = .call .controller (.patch a b) (.ok o) := by
  unfold Marks at h
  split at h
  · exact ⟨_, _, _, rfl⟩
  · cases h

lemma read_patched {g : Knows} {a b o x : AutoIndexer}
    (h : (note g (.patch a b) (.ok o)).read = some x) : o = x := by
  simp only [note] at h
  split at h <;> exact Option.some.inj h

/-- A mark in a later second than the detection is the first one, and shows. -/
lemma inv_of_marks {w w' : World} {k : account.Notes} {n : ℕ} {e : system.Event}
    (hk : Snapshots w k) (hinv : Inv w (k .controller) n) (hc : Later (w, k, n) e)
    (hl : account.Allows k e) (h : system.Happens w e w') (hm : Marks e = true) :
    Inv w' (account.watch k e .controller) (n + 1) := by
  obtain ⟨o, t, d, ho, ht, hdet, hlt⟩ := hc hm
  obtain ⟨a, b, o', rfl⟩ := marks_eq hm
  have hserves : Serves True w (.patch a b) (.ok o') w' := h
  have hstored : w'.stored = some o' := stored_of_gives hserves .patch
  have hshows : n = 0 ∧ driftRemediated o'.annotations = true := by
    rcases effect_of_happens hk hl h with ⟨-, ha⟩ | ⟨o1, ho1, heffect⟩
    · cases ha
    · have ho1 : o = o1 := Option.some.inj (ho.symm.trans ho1)
      subst ho1
      rw [hstored] at heffect
      obtain ⟨x, t', hr, hrem, ht', hdet', hmark⟩ := effect_of_marks heffect hm
      have ht' : t = t' := Option.some.inj (ht.symm.trans ht')
      subst ht'
      refine ⟨?_, driftRemediated_of_lt (hdet'.trans hdet) hmark hlt⟩
      by_contra hn
      have hone : n = 1 := by
        have := hinv.once
        omega
      rw [hinv.read hone x hr] at hrem
      cases hrem
  obtain ⟨rfl, hshow⟩ := hshows
  refine ⟨le_refl _, fun _ x hx => ?_, fun _ x hx => ?_⟩
  · rw [hstored] at hx
    cases hx
    exact hshow
  · rw [System.Account.watch_self] at hx
    rw [← read_patched hx]
    exact hshow

/-- Nothing else takes what shows away, but a new detection. -/
lemma inv_of_other {w w' : World} {k : account.Notes} {n : ℕ} {e : system.Event}
    (hk : Snapshots w k) (hinv : Inv w (k .controller) n) (hl : account.Allows k e)
    (h : system.Happens w e w') (hd : Detects e = false) (hm : Marks e = false) :
    Inv w' (account.watch k e .controller) n := by
  have hstored : n = 1 → ∀ o, w'.stored = some o → driftRemediated o.annotations = true := by
    intro hn o' ho'
    rcases effect_of_happens hk hl h with ⟨hs, -⟩ | ⟨o, ho, heffect⟩
    · exact hinv.stored hn o' (hs ▸ ho')
    · rw [ho'] at heffect
      rw [driftRemediated_of_effect heffect hd hm]
      exact hinv.stored hn o ho
  refine ⟨hinv.once, hstored, fun hn x hx => ?_⟩
  rcases recalls_watch (f := Knows.read) (.inr (.inl rfl)) h hx with hx | hx
  · exact hinv.read hn x hx
  · exact hstored hn x hx

/-- **Each detection is remediated at most once**, in every run in which a remediation is marked
in a later second than its detection. -/
theorem remediated_once {s : System.Config system (account.Notes × ℕ)}
    (h : System.Reach (account.observer marks) Later (StartWith 0) s) : s.record.2 ≤ 1 := by
  have hinv := invariant_of_reach
    (I := fun x => Inv x.1 (x.2.1 .controller) x.2.2) ?_ ?_ h
  · exact hinv.2.once
  · rintro s ⟨hs, hn⟩
    refine ⟨hs, ?_⟩
    change Inv s.world (s.record.1 .controller) s.record.2
    rw [hn]
    exact ⟨by omega, by omega, by omega⟩
  · intro w k n e w' hk hinv hc hl hw
    change Inv w' (account.watch k e .controller) (marks (w, k, n) e)
    unfold marks
    by_cases hd : Detects e = true
    · rw [if_pos hd]
      exact ⟨by omega, by omega, by omega⟩
    · rw [if_neg hd]
      by_cases hm : Marks e = true
      · rw [if_pos hm]
        exact inv_of_marks hk.snapshots hinv hc hl hw hm
      · rw [if_neg hm]
        exact inv_of_other hk.snapshots hinv hl hw (by simpa using hd) (by simpa using hm)

/-- The test of `Later`. -/
def laterTest (x : World × account.Notes × ℕ) (e : system.Event) : Bool :=
  !Marks e || match x.1.stored, (x.2.1 .controller : Knows).clock with
    | some o, some t =>
      match o.annotations.lastDriftDetected with
      | some (.rfc3339 d) => decide (d < t / 1000000)
      | _ => false
    | _, _ => false

lemma later_of_test {x : World × account.Notes × ℕ} {e : system.Event}
    (h : laterTest x e = true) : Later x e := by
  intro hm
  unfold laterTest at h
  rw [hm, Bool.not_true, Bool.false_or] at h
  split at h
  · rename_i o t ho ht
    split at h
    · rename_i d hd
      exact ⟨o, t, d, ho, ht, hd, of_decide_eq_true h⟩
    · cases h
  · cases h

/-- The drift of `drifted` was detected in the second before. -/
theorem remediated_once_drifted :
    (calling marks laterTest 30 (before driftedWorld 0)).2.1.2.2 ≤ 1 :=
  remediated_once (reach_calling (fun _ _ => later_of_test)
    (.init ⟨start_before driftedWorld 0, rfl⟩) rfl (fun h => by cases h) 30 (by decide))

/-- The drift is remediated in the second in which it was detected. -/
def quickWorld : World :=
  { driftedWorld with
    stored := some { drifted with annotations := ⟨some "true", some (.rfc3339 1), none⟩ }
    clock := 1500000 }

/-- It is remediated once more a second later. -/
theorem not_remediated_once :
    ¬ ∀ s : System.Config system (account.Notes × ℕ),
      System.Reach (account.observer marks) (fun _ _ => True) (StartWith 0) s →
        s.record.2 ≤ 1 := by
  intro h
  have h0 : System.Reach (account.observer marks) (fun _ _ => True) (StartWith 0)
      (before quickWorld 0) := .init ⟨start_before quickWorld 0, rfl⟩
  have h1 := reach_reconciling h0 rfl 30
  have h2 := reach_finish h1 rfl
  have h3 := reach_act h2 (.passes (show quickWorld.clock ≤ 2500000 by decide))
  have h4 := reach_reconciling h3 rfl 30
  exact absurd (h _ h4) (by decide)

end KaitoAutoIndexer.OneRemediation
