import KaitoAutoIndexer.RunOutcome
import KaitoAutoIndexer.JobSteps
import KaitoAutoIndexer.System
import KaitoAutoIndexer.ControllerSpec

/-!
The conditions that a run leaves on the object when the API server answers every call.
-/

namespace KaitoAutoIndexer.FinalConditions

open KaitoAutoIndexer.Lib KaitoAutoIndexer.Types KaitoAutoIndexer.Conditions
open KaitoAutoIndexer.Cluster KaitoAutoIndexer.JobClient KaitoAutoIndexer.Job
open KaitoAutoIndexer.System (JobServes jobServe jobServes_jobServe fetched jobServes_fetched)
open KaitoAutoIndexer.JobSteps (Working working_ask working_pure working_updateIndex)
open KaitoAutoIndexer.RunOutcome (Log hear silent Fine run_hears updateIndex_hears)
open KaitoAutoIndexer.ControllerSpec (demo demoWorld)
open KaitoAutoIndexer.GitSpec (demoRemote)

/-- Every call to the API server succeeds; the source and the RAG engine may fail. -/
def Reliable : Service World JobCall JobAnswer
  | w, .rag t q, r, w' => JobServes True w (.rag t q) r w'
  | w, c, r, w' => JobServes False w c r w'

/-- What the conditions have to say after a run. -/
structure Truthful (success : Bool) (cs : List Condition) : Prop where
  succeeded : isTrue succeededType cs = success
  error : isTrue errorType cs = !success
  indexing : isTrue indexingType cs = false

/-- The conditions of the stored object are in `P`. -/
def Shown (P : List Condition → Prop) (w : World) : Prop :=
  ∃ o, w.stored = some o ∧ P o.status.conditions

variable {w : World} {o : AutoIndexer}

/-! ### Writes -/

lemma read_runs {α : Type} {Q : α → World → Prop} {k : Except ApiError (Option AutoIndexer) → Py α}
    (hw : w.stored = some o) (hk : Runs Reliable Q (k (.ok (some o))) w) :
    Runs Reliable Q (getAutoindexer >>= k) w := by
  rintro r _ ⟨rfl, hr | ⟨hf, -⟩⟩
  · simp only [System.readAutoIndexer, hw] at hr
    subst hr
    exact hk
  · exact hf.elim

lemma now_runs {α : Type} {Q : α → World → Prop} {k : Time → Py α} (hk : Runs Reliable Q (k w.clock) w) :
    Runs Reliable Q (ask .now >>= k) w := by
  rintro t w' ⟨rfl, rfl⟩
  exact hk

/-- A status made from the stored object is accepted. -/
lemma patch_runs {α : Type} {Q : α → World → Prop} {k : Except ApiError Unit → Py α} {s : Status}
    (hw : w.stored = some o)
    (hk : ∀ w' o', w'.stored = some o' → o'.status = s → Runs Reliable Q (k (.ok ())) w') :
    Runs Reliable Q (ask (.patchStatus (o.withStatus s)) >>= k) w := by
  rintro r w' (hr | ⟨hf, -⟩)
  · have hv : (o.withStatus s).resourceVersion = o.resourceVersion := rfl
    simp only [System.patchJobStatus, hw, hv, ne_eq, not_true_eq_false, if_false] at hr
    cases hr
    exact hk _ _ rfl (by simp [AutoIndexer.withStatus])
  · exact hf.elim

lemma addStatusCondition_runs (type : String) (status : ConditionStatus) (reason message : String)
    (hw : w.stored = some o) :
    Runs Reliable (fun _ w' => ∃ o' c, w'.stored = some o' ∧ c.type = type ∧ c.status = status ∧
      o'.status.conditions = addCondition c o.status.conditions)
      (addStatusCondition type status reason message) w := by
  refine read_runs hw (now_runs (patch_runs hw fun w' o' ho' hs => ?_))
  exact ⟨o', _, ho', rfl, rfl, by rw [hs]⟩

lemma updateAutoindexerStatus_runs (u : StatusUpdate) (hw : w.stored = some o) :
    Runs Reliable (fun _ w' => ∃ o', w'.stored = some o' ∧ o'.status = u.apply o.status)
      (JobClient.updateAutoindexerStatus u) w :=
  read_runs hw (patch_runs hw fun _ o' ho' hs => ⟨o', ho', hs⟩)

lemma updateIndexingCompletion_runs (success : Bool) (duration count : ℕ) (hw : w.stored = some o) :
    Runs Reliable (fun _ w' => ∃ o', w'.stored = some o' ∧
      o'.status.conditions = o.status.conditions)
      (updateIndexingCompletion success duration count) w := by
  have hupdate : ∀ u : StatusUpdate, u.conditions = none →
      Runs Reliable (fun _ w' => ∃ o', w'.stored = some o' ∧
        o'.status.conditions = o.status.conditions) (JobClient.updateAutoindexerStatus u) w := by
    intro u hu
    refine (updateAutoindexerStatus_runs u hw).mono ?_
    rintro _ w' ⟨o', ho', hs⟩
    exact ⟨o', ho', by simp [hs, StatusUpdate.apply, hu]⟩
  have hincrement : ∀ f, Runs Reliable (fun _ w' => w' = w) (incrementCounter f) w :=
    fun f => read_runs hw rfl
  refine now_runs ?_
  dsimp only
  split
  all_goals
    refine (hincrement _).bind ?_
    rintro n _ rfl
    exact hupdate _ rfl

/-- Other calls leave the object alone. -/
lemma working_runs {α : Type} {t : Rag.Target} {p : Py α} (hp : Working True t p) (w : World) :
    Runs Reliable (fun _ w' => w'.stored = w.stored) p w := by
  refine (Obeys.runs (J := fun w' => w'.stored = w.stored) hp ?_ rfl).mono fun _ _ h => h.2
  intro w1 c a w2 hc hw1 hs
  match c with
  | .now => rwa [hs.2]
  | .getAutoIndexer => rwa [hs.1]
  | .patchStatus body => exact hc.elim
  | .kusto q => rwa [show w2 = w1 from hs]
  | .fetch u => rwa [show w2 = w1 from hs]
  | .rag t q =>
    obtain ⟨s, -, rfl⟩ := hs
    unfold System.putStore
    split <;> exact hw1

/-- The four conditions of the status update of a handler. -/
lemma createBaseStatusUpdate_runs (t : Rag.Target) (name : String) (errors : List String)
    (duration : ℕ) (hw : w.stored = some o) :
    Runs Reliable (fun r w' => w'.stored = some o ∧ ∃ u cs, r = some u ∧ u.conditions = some cs ∧
      isTrue succeededType cs = true ∧ isTrue errorType cs = !decide (errors = []) ∧
      isTrue indexingType cs = false)
      (createBaseStatusUpdate t name errors duration) w := by
  have hworks : Working True t (countDocuments t name) :=
    working_ask rfl fun a => by cases a <;> exact working_pure _
  have hcount : Runs Reliable (fun _ w' => w'.stored = some o) (countDocuments t name) w :=
    (working_runs hworks w).mono fun _ w' h => h.trans hw
  refine read_runs hw (now_runs (hcount.bind fun n w1 hw1 => now_runs ?_))
  dsimp only
  split
  · rename_i he
    refine now_runs (now_runs (now_runs ⟨hw1, _, _, rfl, rfl, ?_⟩))
    simp [isTrue_replaceCondition, succeededType, errorType, failedType, indexingType, he]
  · rename_i he
    refine now_runs (now_runs (now_runs ⟨hw1, _, _, rfl, rfl, ?_⟩))
    simp [isTrue_replaceCondition, succeededType, errorType, failedType, indexingType, not_not.mp he]

/-- What the conditions say after a run. -/
structure Left (success : Bool) (cs : List Condition) : Prop where
  succeeded : isTrue succeededType cs = true
  error : isTrue errorType cs = !success
  indexing : isTrue indexingType cs = false

lemma handlerStatus_runs (h : Handler) (out : Outcome) (hw : w.stored = some o) :
    Runs Reliable (fun _ w' => Shown (Left (decide (out.errors = []))) w')
      (h.updateAutoindexerStatus out) w := by
  refine (createBaseStatusUpdate_runs _ _ _ _ hw).bind ?_
  rintro _ w1 ⟨hw1, u, cs, rfl, hcs, hsucceeded, herror, hindexing⟩
  refine (updateAutoindexerStatus_runs _ hw1).bind ?_
  rintro _ w2 ⟨o2, hw2, hs⟩
  have hconditions : o2.status.conditions = cs := by simp [hs, StatusUpdate.apply, hcs]
  refine ⟨o2, hw2, ?_⟩
  rw [hconditions]
  exact ⟨hsucceeded, herror, hindexing⟩

/-! ### The run -/

/-- The last condition and the completion update. -/
lemma completion_runs {success : Bool} {type : String} {status : ConditionStatus}
    (reason message : String) (duration count : ℕ) (hw : w.stored = some o)
    (hc : ∀ c : Condition, c.type = type → c.status = status →
      Left success (addCondition c o.status.conditions)) :
    Runs Reliable (fun success w' => Shown (Left success) w') (do
      let _ ← addStatusCondition type status reason message
      let _ ← updateIndexingCompletion success duration count
      pure success) w := by
  refine (addStatusCondition_runs _ _ _ _ hw).bind ?_
  rintro - w1 ⟨o1, c, hw1, htype, hstatus, hcs⟩
  refine (updateIndexingCompletion_runs success duration count hw1).bind ?_
  rintro - w2 ⟨o2, hw2, hcs'⟩
  refine ⟨o2, hw2, ?_⟩
  rw [hcs', hcs]
  exact hc c htype hstatus

lemma run_runs (r : Git.Remote) (h : Handler) (hw : w.stored = some o) :
    Runs Reliable (fun success w' => Shown (Left success) w') (Job.run r h) w := by
  refine now_runs ((addStatusCondition_runs _ _ _ _ hw).bind ?_)
  rintro - w1 ⟨o1, c1, hw1, -⟩
  have hout : Runs Reliable (fun out _ => out.returned = [] → out.errors = []) (h.updateIndex r) w1 :=
    Sat.result ((updateIndex_hears (g := ⟨false, [], [none]⟩) h r rfl rfl rfl).mono
      (fun _ _ h => h) fun _ _ h => h.1)
  refine ((working_runs (working_updateIndex r h) w1).and hout).bind ?_
  rintro out w2 ⟨hw2, hout⟩
  refine (handlerStatus_runs h out (hw2.trans hw1)).bind ?_
  rintro - w3 ⟨o3, hw3, hsucceeded, herror, hindexing⟩
  have hworks : Working True h.target (countDocuments h.target h.autoindexerName) :=
    working_ask rfl fun a => by cases a <;> exact working_pure _
  refine now_runs ((working_runs hworks w3).bind fun n w4 hw4 => ?_)
  split
  · refine completion_runs _ _ _ _ (hw4.trans hw3) fun c htype hstatus => ⟨?_, ?_, ?_⟩
    · rw [isTrue_addCondition, htype, if_neg (by decide), hsucceeded]
    · rw [isTrue_addCondition, htype, if_pos rfl, hstatus]
      rfl
    · rw [isTrue_addCondition, htype, if_neg (by decide), hindexing]
  · rename_i hreturned
    refine completion_runs _ _ _ _ (hw4.trans hw3) fun c htype hstatus => ⟨?_, ?_, ?_⟩
    · rw [isTrue_addCondition, htype, if_neg (by decide), hsucceeded]
    · rw [isTrue_addCondition, htype, if_neg (by decide), herror, hout (not_not.mp hreturned)]
      rfl
    · rw [isTrue_addCondition, htype, if_pos rfl, hstatus]
      rfl

/-- **The final conditions tell the truth about a run exactly when nothing has gone wrong in it**,
for every data source and every pattern of failures of the source and of the RAG engine. -/
theorem run_truthful_iff (r : Git.Remote) (h : Handler) (w : World) (hw : w.stored.isSome = true) :
    Runs (noted Reliable hear)
      (fun success x => Shown (Truthful success) x.1 ↔ Fine r x.2 h) (Job.run r h) (w, silent) := by
  obtain ⟨o, ho⟩ := Option.isSome_iff_exists.mp hw
  have hleft := @Runs.noted _ _ _ _ _ _ _ hear (w, silent) _ (run_runs r h ho)
  have hfine := Sat.noted (S := Reliable) (x := (w, silent)) (run_hears r h)
  refine (hleft.and hfine).mono ?_
  rintro success ⟨w', g⟩ ⟨⟨o', ho', hsucceeded, herror, hindexing⟩, hiff⟩
  rw [← hiff]
  constructor
  · rintro ⟨o1, ho1, htruthful⟩
    have ho1 : w'.stored = some o1 := ho1
    have ho' : w'.stored = some o' := ho'
    rw [ho'] at ho1
    cases ho1
    rw [← htruthful.succeeded, hsucceeded]
  · rintro rfl
    exact ⟨o', ho', hsucceeded, herror, hindexing⟩

/-! ### A URL that cannot be fetched -/

/-- The handler of a static data source. -/
def urlHandler (urls : List String) : Handler := .static ⟨target demo, demo.tag, urls⟩

lemma reliable_of {serve : World → (c : JobCall) → JobAnswer c × World}
    (hs : ∀ (mayFail : Prop) (w : World) (c : JobCall), JobServes mayFail w c (serve w c).1 (serve w c).2)
    (w : World) (c : JobCall) : Reliable w c (serve w c).1 (serve w c).2 := by
  match c with
  | .rag t q => exact hs True w (.rag t q)
  | .now => exact hs False w .now
  | .getAutoIndexer => exact hs False w .getAutoIndexer
  | .patchStatus body => exact hs False w (.patchStatus body)
  | .kusto q => exact hs False w (.kusto q)
  | .fetch u => exact hs False w (.fetch u)

/-- One way to answer, with the answers noted. -/
def answer (x : World × Log) (c : JobCall) : JobAnswer c × World × Log :=
  ((fetched x.1 c).1, (fetched x.1 c).2, hear x.2 c (fetched x.1 c).1)

/-- The run over a URL that is fetched. -/
def fetchedRun : Bool × World × Log :=
  (Job.run (demoRemote []) (urlHandler ["http://example.com/a.md"])).exec answer (demoWorld, silent)

theorem run_truthful_demo : Shown (Truthful fetchedRun.1) fetchedRun.2.1 := by
  have hserve : ∀ x c, noted Reliable hear x c (answer x c).1 (answer x c).2 :=
    fun x c => ⟨reliable_of jobServes_fetched x.1 c, rfl⟩
  have h := (run_truthful_iff (demoRemote []) (urlHandler ["http://example.com/a.md"]) demoWorld
    (by decide)).exec hserve
  refine h.mpr ?_
  change Log.failed _ = false
  decide

/-- The URL cannot be fetched, and Succeeded and Error are both True in the end. -/
theorem not_run_truthful :
    ¬ ∀ (r : Git.Remote) (h : Handler) (w : World), w.stored.isSome = true →
      Runs Reliable (fun success w' => Shown (Truthful success) w') (Job.run r h) w := by
  intro h
  have h1 := (h (demoRemote []) (urlHandler ["http://example.com/a.md"]) demoWorld (by decide)).exec
    (reliable_of jobServes_jobServe)
  have h2 : ((Job.run (demoRemote []) (urlHandler ["http://example.com/a.md"])).exec jobServe
      demoWorld).1 = false := by decide
  obtain ⟨o, ho, htruthful⟩ := h1
  have h3 : demoWorld.stored = some demo := rfl
  obtain ⟨o', ho', hleft⟩ := (run_runs (demoRemote []) (urlHandler ["http://example.com/a.md"])
    h3).exec (reliable_of jobServes_jobServe)
  rw [ho] at ho'
  cases ho'
  have h4 := htruthful.succeeded
  rw [h2, hleft.succeeded] at h4
  cases h4

end KaitoAutoIndexer.FinalConditions
