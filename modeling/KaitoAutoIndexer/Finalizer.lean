import KaitoAutoIndexer.SystemSteps
import KaitoAutoIndexer.ControllerSpec

/-!
The deletion of an AutoIndexer: when its finalizer goes, what a reconcile that waits or fails
leaves behind, and that an index that is gone already does not hold it up.
-/

namespace KaitoAutoIndexer.Finalizer

open KaitoAutoIndexer.Lib KaitoAutoIndexer.Types
open KaitoAutoIndexer.Cluster KaitoAutoIndexer.Controller KaitoAutoIndexer.ControllerSpec
open KaitoAutoIndexer.System KaitoAutoIndexer.SystemSteps
open KaitoAutoIndexer.ControllerSteps (Knows note fresh)

/-! ### When the finalizer goes -/

/-- The stored object has the finalizer. -/
def Held (w : World) : Prop :=
  ∃ o, w.stored = some o ∧ autoIndexerFinalizer ∈ o.finalizers

/-- The reconcile has listed the Jobs and found none with active pods, and its deletion of the
index has succeeded. -/
structure Collected (g : Knows) : Prop where
  idle : ∃ js, g.listing = some js ∧ ∀ j ∈ js, j.active = 0
  deleted : g.deleted = true

lemma held_of_stored {w w' : World} (hw : w'.stored = w.stored) (h : Held w) : Held w' := by
  obtain ⟨o, ho, hf⟩ := h
  exact ⟨o, hw.trans ho, hf⟩

lemma held_accept {w' : World} {o n : AutoIndexer} (hw : w'.stored = some (accept o n))
    (hf : autoIndexerFinalizer ∈ n.finalizers) : Held w' :=
  ⟨_, hw, by simpa using hf⟩

/-- The controller updates the object as a whole only when it has collected. -/
lemma collected_of_lawful {g : Knows} {obj : AutoIndexer}
    (h : ControllerSteps.Lawful g (.update obj)) : Collected g := by
  cases h with
  | plain h => exact h.elim
  | release _ _ hlist hj hdel => exact ⟨⟨_, hlist, hj⟩, hdel⟩

/-- One step: the finalizer stays, or goes with the update of a reconcile that has collected. -/
lemma held_of_happens {w w' : World} {k : account.Notes} {e : system.Event}
    (hk : Snapshots w k) (hl : account.Allows k e) (h : system.Happens w e w') (hw : Held w) :
    Held w' ∨ (∃ obj r, e = .call .controller (.update obj) r) ∧ Collected (k .controller) := by
  obtain ⟨o, ho, hf⟩ := hw
  rcases effect_of_happens hk hl h with ⟨hs, -⟩ | ⟨o1, ho1, heffect⟩
  · exact .inl (held_of_stored hs ⟨o, ho, hf⟩)
  rw [ho] at ho1
  cases ho1
  generalize hs : w'.stored = s at heffect
  cases heffect with
  | addFinalizer _ _ ho' =>
    rw [ho'] at hs
    exact .inl (held_accept hs (by simp [finalizing]))
  | suspend _ _ _ _ _ _ _ ho' =>
    rw [ho'] at hs
    exact .inl (held_accept hs hf)
  | resume _ _ _ _ _ _ _ ho' =>
    rw [ho'] at hs
    exact .inl (held_accept hs hf)
  | remediated _ _ _ _ _ ho' =>
    rw [ho'] at hs
    exact .inl (held_accept hs hf)
  | status => exact .inl (held_accept hs hf)
  | release => exact .inr ⟨⟨_, _, rfl⟩, collected_of_lawful hl⟩
  | mark => exact .inl (held_accept hs hf)
  | clear => exact .inl (held_accept hs hf)
  | drop hnil =>
    rw [hnil] at hf
    cases hf
  | job => exact .inl (held_accept hs hf)
  | edits => exact .inl (held_accept hs hf)
  | deletes =>
    rw [deleted, if_neg (List.ne_nil_of_mem hf)] at hs
    exact .inl (held_accept hs hf)

/-! ### Waiting and failing -/

/-- The record: a write of the present reconcile was accepted. -/
def wrote (x : World × account.Notes × Bool) : system.Event → Bool
  | .begin .controller => false
  | .call .controller c r => x.2.2 || accepted c r
  | _ => x.2.2

/-- Of the writes of a deletion only the last one is accepted. -/
structure Untouched (g : Knows) (b : Bool) : Prop where
  start : g.got = none → b = false
  collecting : ∀ o, g.got = some o → o.deleting = true → b = true → g.released = true

lemma untouched_fresh : Untouched fresh false := ⟨fun _ => rfl, by simp⟩

/-- The object that was got is not being deleted. -/
lemma untouched_of_live {g g' : Knows} (b : Bool) (hd : g.Live) (hg : g'.got = g.got) :
    Untouched g' b := by
  obtain ⟨x, hx, hlive⟩ := hd
  rw [← hg] at hx
  refine ⟨by simp [hx], fun o ho hdel => ?_⟩
  rw [hx] at ho
  cases ho
  rw [hlive] at hdel
  cases hdel

lemma untouched_note {g : Knows} {b : Bool} {c : Call} {r : Answer c} (h : Untouched g b)
    (hl : ControllerSteps.Lawful g c) :
    Untouched (note g c r) (b || accepted c r) := by
  have hsame : accepted c r = false → (note g c r).got = g.got →
      (note g c r).released = g.released →
      Untouched (note g c r) (b || accepted c r) := by
    intro ha hg hr
    rw [ha, Bool.or_false]
    refine ⟨fun hn => h.start (hg ▸ hn), fun o ho hd hb => ?_⟩
    rw [hr]
    exact h.collecting o (hg ▸ ho) hd hb
  have hpatched : ∀ (a m : AutoIndexer) (r : Answer (.patch a m)),
      (note g (.patch a m) r).got = g.got := by
    intro a m r
    cases r with
    | error e => rfl
    | ok o =>
      simp only [note]
      split <;> rfl
  cases hl with
  | plain hc =>
    have hnote := ControllerSteps.same_note (g := g) hc r
    refine hsame ?_ hnote.got hnote.released
    cases c <;> first | exact hc.elim | rfl
  | get hn =>
    have hb := h.start hn
    subst hb
    exact ⟨fun _ => rfl, fun _ _ _ hb => by cases hb⟩
  | addFinalizer _ _ hd => exact untouched_of_live _ hd (hpatched _ _ r)
  | suspend _ _ hd => exact untouched_of_live _ hd (hpatched _ _ r)
  | resume _ _ hd => exact untouched_of_live _ hd (hpatched _ _ r)
  | mark _ _ hd => exact untouched_of_live _ hd (hpatched _ _ r)
  | status _ _ hd => exact untouched_of_live _ hd rfl
  | remediate => exact hsame rfl (by cases r <;> rfl) (by cases r <;> rfl)
  | collect => exact hsame rfl (by cases r <;> rfl) (by cases r <;> rfl)
  | release hg =>
    cases r with
    | error e => exact hsame rfl rfl rfl
    | ok u => exact ⟨fun hn => by simp [note, hg] at hn, fun _ _ _ _ => rfl⟩

lemma untouched_of_reach {s : System.Config system (account.Notes × Bool)}
    (h : System.Reach (account.observer wrote) (fun _ _ => True) (StartWith false) s) :
    Untouched (s.record.1 .controller) s.record.2 := by
  refine (invariant_of_reach (I := fun x => Untouched (x.2.1 .controller) x.2.2) ?_ ?_ h).2
  · rintro s ⟨⟨hq, hk⟩, hb⟩
    refine ⟨⟨hq, hk⟩, ?_⟩
    change Untouched (s.record.1 .controller) s.record.2
    rw [hk, hb]
    exact untouched_fresh
  · intro w k g e w' _ hk _ hl _
    match e with
    | .begin .controller => exact untouched_fresh
    | .begin .detector => exact hk
    | .begin .job => exact hk
    | .call .controller c r => exact untouched_note hk hl
    | .call .detector c r => exact hk
    | .call .job c r => exact hk
    | .finish i a => exact hk
    | .crash i => exact hk
    | .act a => exact hk

/-! ### An index that is gone already -/

/-- Alone and without failures, a reconcile of an object that is being deleted takes the
finalizer away once no Job has active pods, whether or not the index is still there. -/
lemma garbageCollect_runs {w : World} {o : AutoIndexer} (hw : w.stored = some o)
    (hf : autoIndexerFinalizer ∈ o.finalizers) (hj : ∀ j ∈ w.jobs, j.active = 0) :
    Runs (Serves False) (fun e w' => e = none ∧ ¬ Held w') (garbageCollectAutoIndexer o) w := by
  simp only [garbageCollectAutoIndexer, ask_bind, runs_ask, serves_false]
  rintro r w1 h
  cases h
  have hidle : (w.jobs.any fun j => j.active ≠ 0) = false := by simpa using hj
  simp only [hidle, Bool.false_eq_true, if_false]
  refine (deleteIndex_runs _ _ _ w).bind ?_
  rintro e w1 ⟨hw1, -, he⟩
  have hstored : w1.stored = some o := by rcases hw1 with rfl | rfl <;> exact hw
  obtain rfl := he not_false
  simp only [hf, if_true, runs_ask, serves_false, serve, hstored]
  rintro r w2 h
  simp only [ne_eq, not_true_eq_false, if_false] at h
  split at h
  · cases h
    exact ⟨rfl, by simp [Held]⟩
  · cases h
    exact ⟨rfl, by simp [Held]⟩

lemma reconcile_collects {w : World} {o : AutoIndexer} (hw : w.stored = some o)
    (hd : o.deleting = true) (hf : autoIndexerFinalizer ∈ o.finalizers)
    (hj : ∀ j ∈ w.jobs, j.active = 0) :
    Runs (Serves False) (fun e w' => e = none ∧ ¬ Held w') reconcile w := by
  simp only [reconcile, ask_bind, runs_ask, serves_false, serve, hw]
  rintro r w1 h
  cases h
  simp only [reconcileObject, hd, if_true]
  exact garbageCollect_runs hw hf hj

/-! ### Deletion -/

/-- A run of the whole system, with the record of accepted writes. -/
abbrev Reached (s : System.Config system (account.Notes × Bool)) : Prop :=
  System.Reach (account.observer wrote) (fun _ _ => True) (StartWith false) s

/-- **Deletion is safe to retry at any point.** In every run: the stored finalizer goes only with
the update of a reconcile that has found no active Jobs and has deleted the index; a reconcile of
an object being deleted that waits for Jobs or returns an error has changed nothing in the stored
object, which only accepted writes change; and once the deletion of the index is answered with
200 or 404 a reconcile takes the finalizer away or returns an error. Where nothing fails and no
Job is active, the finalizer goes, with or without an index to delete. -/
theorem deletion_retries :
    (∀ s e s', Reached s → System.Step (account.observer wrote) s e s' → Held s.world →
      Held s'.world ∨ (∃ obj r, e = .call .controller (.update obj) r) ∧
        Collected (s.record.1 .controller)) ∧
    (∀ s c r s', System.Step (account.observer wrote) s (.call .controller c r) s' →
      accepted c r = false → s'.world.stored = s.world.stored) ∧
    (∀ s err s' o, Reached s → System.Step (account.observer wrote) s (.finish .controller err) s' →
      (s.record.1 .controller).got = some o → o.deleting = true →
      (err ≠ none ∨ ∃ js, (s.record.1 .controller).listing = some js ∧ ∃ j ∈ js, j.active ≠ 0) →
      s.record.2 = false) ∧
    (∀ s err s' o, Reached s → System.Step (account.observer wrote) s (.finish .controller err) s' →
      (s.record.1 .controller).got = some o → o.deleting = true →
      autoIndexerFinalizer ∈ o.finalizers → (s.record.1 .controller).deleted = true →
      err = none → (s.record.1 .controller).released = true) ∧
    (∀ w o, w.stored = some o → o.deleting = true → autoIndexerFinalizer ∈ o.finalizers →
      (∀ j ∈ w.jobs, j.active = 0) →
      Runs (Serves False) (fun e w' => e = none ∧ ¬ Held w') reconcile w) := by
  refine ⟨?_, ?_, ?_, ?_, fun w o hw hd hf hj => reconcile_collects hw hd hf hj⟩
  · intro s e s' h hs hw
    obtain ⟨hl, hhappens, -⟩ := allows_of_reach (fun _ h => h.1) h hs
    exact held_of_happens (sound_of_reach (fun _ h => h.1) h).snapshots hl hhappens hw
  · rintro s c r _ (@⟨⟩ | ⟨-, hserves⟩) ha
    exact stored_of_not_accepted hserves ha
  · intro s err s' o h hs ho hd hwait
    obtain ⟨hl, -, -⟩ := allows_of_reach (fun _ h => h.1) h hs
    have hends : ControllerSteps.Ends err (s.record.1 .controller) := hl
    by_contra hb
    rw [Bool.not_eq_false] at hb
    have hreleased := (untouched_of_reach h).collecting o ho hd hb
    rcases hwait with he | ⟨js, hl, j, hj, hactive⟩
    · exact he (hends.released hreleased)
    · obtain ⟨js', hl', hidle⟩ := hends.idle hreleased
      rw [hl] at hl'
      cases hl'
      exact hactive (hidle j hj)
  · intro s err s' o h hs ho hd hf hdel he
    obtain ⟨hl, -, -⟩ := allows_of_reach (fun _ h => h.1) h hs
    have hends : ControllerSteps.Ends err (s.record.1 .controller) := hl
    exact hends.collected o ho hd hf hdel he

/-- `demo` is being deleted; its index is gone already. -/
def dying : AutoIndexer := { demo with deletionTimestamp := some 5 }

def dyingWorld : World := { demoWorld with stored := some dying, jobs := [] }

/-- A Job of it is still active. -/
def busyWorld : World :=
  { dyingWorld with jobs := [⟨"docs-job", 1, 0, 0, none, generateJobTemplate dying "image"⟩] }

theorem deletion_retries_dying :
    Collected ((reconciling wrote 3 (before dyingWorld false)).record.1 .controller) ∧
    (reconciling wrote 2 (before busyWorld false)).record.2 = false ∧
    ((reconciling wrote 4 (before dyingWorld false)).record.1 .controller).released = true ∧
    Runs (Serves False) (fun e w' => e = none ∧ ¬ Held w') reconcile dyingWorld := by
  have hreach : ∀ w n, Reached (reconciling wrote n (before w false)) := fun w n =>
    reach_reconciling (.init ⟨start_before w false, rfl⟩) rfl n
  refine ⟨?_, ?_, ?_, ?_⟩
  · have hstep := deletion_retries.1 _ _ _ (hreach dyingWorld 3)
      (step_reconcile _ (c := .update { dying with
        finalizers := dying.finalizers.filter (· ≠ autoIndexerFinalizer) }) rfl)
      ⟨dying, by decide, by decide⟩
    rcases hstep with ⟨o, ho, -⟩ | ⟨-, hc⟩
    · have hnone : none = some o := ho
      cases hnone
    · exact hc
  · exact deletion_retries.2.2.1 _ none _ dying (hreach busyWorld 2) (.finish rfl) (by decide)
      (by decide) (.inr ⟨_, rfl, by decide⟩)
  · exact deletion_retries.2.2.2.1 _ none _ dying (hreach dyingWorld 4) (.finish rfl) (by decide)
      (by decide) (by decide) (by decide) rfl
  · exact deletion_retries.2.2.2.2 _ dying rfl (by decide) (by decide) (by simp [dyingWorld])

end KaitoAutoIndexer.Finalizer
