import KaitoAutoIndexer.Types
import KaitoAutoIndexer.Lib.Upsert

/-!
The condition list of a status, and the routines of the two programs that write it.
-/

namespace KaitoAutoIndexer.Conditions

open KaitoAutoIndexer.Lib KaitoAutoIndexer.Types

def errorType : String := "AutoIndexerError"
def succeededType : String := "AutoIndexerSucceeded"
def failedType : String := "AutoIndexerFailed"
def indexingType : String := "AutoIndexerIndexing"
def resourceType : String := "ResourceReady"

/-- `setAutoIndexerCondition` of the controller: a condition whose status is unchanged is
left as it is. -/
def setCondition (c : Condition) (cs : List Condition) : List Condition :=
  upsertWith (·.type == c.type) (fun old => if old.status = c.status then old else c) c cs

/-- The condition loop of the controller's `updateStatus`, and of
`_create_base_autoindexer_status_update` in the job: the entry is replaced. -/
def replaceCondition (c : Condition) (cs : List Condition) : List Condition :=
  upsertWith (·.type == c.type) (fun _ => c) c cs

/-- The condition loop of the job's `add_status_condition`: the entry is replaced, the
transition time only moves with the status. -/
def addCondition (c : Condition) (cs : List Condition) : List Condition :=
  upsertWith (·.type == c.type)
    (fun old => { c with lastTransitionTime :=
      if old.status = c.status then old.lastTransitionTime else c.lastTransitionTime }) c cs

/-- `last_indexing_had_errors`: some `AutoIndexerError` entry is `True`. -/
def hadErrors (cs : List Condition) : Bool :=
  cs.any fun c => c.type == errorType && c.status == .true

/-- `meta.IsStatusConditionTrue`: the first entry of the type is `True`. -/
def isTrue (t : String) (cs : List Condition) : Bool :=
  (cs.find? (·.type == t)).any (·.status == .true)

/-- The list without its first `AutoIndexerError` entry, the one that writers touch. -/
def dropError (cs : List Condition) : List Condition := cs.eraseP (·.type == errorType)

/-- The entries of a type, in order. -/
def ofType (t : String) (cs : List Condition) : List Condition := cs.filter (·.type == t)

/-- A writer that changes no entries but of the types the controller sets. -/
def ControllerWrites (cs cs' : List Condition) : Prop :=
  ∀ t, t ≠ errorType → t ≠ resourceType → ofType t cs' = ofType t cs

lemma ControllerWrites.refl (cs : List Condition) : ControllerWrites cs cs := fun _ _ _ => rfl

lemma ControllerWrites.trans {cs cs' cs'' : List Condition} (h : ControllerWrites cs cs')
    (h' : ControllerWrites cs' cs'') : ControllerWrites cs cs'' :=
  fun t ht ht' => (h' t ht ht').trans (h t ht ht')

section

variable {c : Condition} (cs : List Condition)

lemma ofType_setCondition {t : String} (h : t ≠ c.type) :
    ofType t (setCondition c cs) = ofType t cs := by
  refine filter_upsertWith_of_not (fun a ha => ?_) (fun a ha => ?_) (by simpa using h.symm) cs
  · have ha : a.type = c.type := by simpa using ha
    simpa [ha] using h.symm
  · have ha : a.type = c.type := by simpa using ha
    by_cases hs : a.status = c.status
    · simpa [hs, ha] using h.symm
    · simpa [hs] using h.symm

lemma ofType_replaceCondition {t : String} (h : t ≠ c.type) :
    ofType t (replaceCondition c cs) = ofType t cs := by
  refine filter_upsertWith_of_not (fun a ha => ?_) (fun a _ => ?_) (by simpa using h.symm) cs
  · have ha : a.type = c.type := by simpa using ha
    simpa [ha] using h.symm
  · simpa using h.symm

lemma isTrue_replaceCondition (t : String) :
    isTrue t (replaceCondition c cs) = if t = c.type then c.status == .true else isTrue t cs := by
  unfold isTrue replaceCondition
  split
  · rename_i h
    subst h
    rw [find?_upsertWith (by simp) (by simp)]
    cases cs.find? (·.type == c.type) <;> rfl
  · rename_i h
    rw [find?_upsertWith_of_not (fun a ha => ?_) (fun a _ => ?_) (by simpa using Ne.symm h)]
    · have ha : a.type = c.type := by simpa using ha
      simpa [ha] using Ne.symm h
    · simpa using Ne.symm h

lemma isTrue_addCondition (t : String) :
    isTrue t (addCondition c cs) = if t = c.type then c.status == .true else isTrue t cs := by
  unfold isTrue addCondition
  split
  · rename_i h
    subst h
    rw [find?_upsertWith (by simp) (by simp)]
    cases cs.find? (·.type == c.type) <;> rfl
  · rename_i h
    rw [find?_upsertWith_of_not (fun a ha => ?_) (fun a _ => ?_) (by simpa using Ne.symm h)]
    · have ha : a.type = c.type := by simpa using ha
      simpa [ha] using Ne.symm h
    · simpa using Ne.symm h

lemma controllerWrites_setCondition (h : c.type = errorType ∨ c.type = resourceType) :
    ControllerWrites cs (setCondition c cs) := by
  intro t ht ht'
  refine ofType_setCondition cs ?_
  rcases h with h | h
  · rwa [h]
  · rwa [h]

lemma controllerWrites_replaceCondition (h : c.type = errorType ∨ c.type = resourceType) :
    ControllerWrites cs (replaceCondition c cs) := by
  intro t ht ht'
  refine ofType_replaceCondition cs ?_
  rcases h with h | h
  · rwa [h]
  · rwa [h]

private lemma isError_of {a : Condition} (h : (a.type == errorType && a.status == .true) = true) :
    (a.type == errorType) = true := by
  simp only [Bool.and_eq_true] at h
  exact h.1

lemma hadErrors_setCondition (h : c.type = errorType) :
    hadErrors (setCondition c cs) = (c.status == .true || hadErrors (dropError cs)) := by
  unfold hadErrors setCondition dropError
  rw [h]
  refine any_upsertWith (fun _ => isError_of) (fun a ha => ?_) (by simp [h]) cs
  have ha : a.type = errorType := by simpa using ha
  by_cases hs : a.status = c.status <;> simp [hs, h, ha]

lemma hadErrors_addCondition (h : c.type = errorType) :
    hadErrors (addCondition c cs) = (c.status == .true || hadErrors (dropError cs)) := by
  unfold hadErrors addCondition dropError
  rw [h]
  exact any_upsertWith (fun _ => isError_of) (fun a _ => by simp) (by simp [h]) cs

lemma hadErrors_setCondition_of_ne (h : c.type ≠ errorType) :
    hadErrors (setCondition c cs) = hadErrors cs := by
  refine any_upsertWith_of_not (fun a ha => ?_) (fun a ha => ?_) (by simp [h]) cs
  · have ha : a.type = c.type := by simpa using ha
    simp [ha, h]
  · have ha : a.type = c.type := by simpa using ha
    by_cases hs : a.status = c.status <;> simp [hs, h, ha]

lemma dropError_setCondition (h : c.type = errorType) :
    dropError (setCondition c cs) = dropError cs := by
  unfold setCondition dropError
  rw [h]
  refine eraseP_upsertWith (fun a ha => ?_) (by simp [h]) cs
  by_cases hs : a.status = c.status
  · simpa [hs] using ha
  · simp [hs, h]

lemma hadErrors_dropError_setCondition_of_ne (h : c.type ≠ errorType) :
    hadErrors (dropError (setCondition c cs)) = hadErrors (dropError cs) := by
  have hcomm : dropError (setCondition c cs) = setCondition c (dropError cs) := by
    refine eraseP_upsertWith_comm (fun a ha => ?_) (fun a ha => ?_) (by simp [h]) cs
    · have ha : a.type = c.type := by simpa using ha
      simp [ha, h]
    · have ha : a.type = c.type := by simpa using ha
      by_cases hs : a.status = c.status <;> simp [hs, h, ha]
  rw [hcomm, hadErrors_setCondition_of_ne _ h]

end

end KaitoAutoIndexer.Conditions
