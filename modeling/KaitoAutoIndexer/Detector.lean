import KaitoAutoIndexer.Controller

/-!
The drift detector: one check of every AutoIndexer, which sets or clears the annotations
that the controller acts on.
-/

namespace KaitoAutoIndexer.Detector

open KaitoAutoIndexer.Lib KaitoAutoIndexer.Types
open KaitoAutoIndexer.Cluster KaitoAutoIndexer.Controller

/-- `DriftDetectionResult`, less the names; `actualCount` is `0` when nothing was counted. -/
structure DriftDetectionResult where
  driftDetected : Bool
  expectedCount : BitVec 32
  actualCount : BitVec 32
  error : Err

def isAutoIndexerInStableState (o : AutoIndexer) : Bool :=
  match o.status.indexingPhase with
  | .scheduled => true
  | .pending | .running | .suspended | .driftRemediation | .failed | .completed => false
  | .unset => false

def checkAutoIndexerDrift (o : AutoIndexer) : Go DriftDetectionResult := do
  let result : DriftDetectionResult := ⟨false, int32 o.status.numOfDocumentInIndex, 0, none⟩
  if o.spec.driftRemediationPolicy = some .ignore then pure result
  else if ¬ isAutoIndexerInStableState o then pure result
  else if o.status.numOfDocumentInIndex = 0 then pure result
  else if o.spec.suspended then pure result
  else
    match ← getDocumentCount o.spec.ragEngine o.spec.indexName o.name o.namespace_ with
    | .error e =>
      pure { result with error := some ("failed to get document count from RAG engine: " ++ e) }
    | .ok actualCount =>
      pure { result with
        actualCount := actualCount
        driftDetected := decide (result.expectedCount ≠ actualCount) }

def setDriftDetected (o : AutoIndexer) : Go Err := do
  let t ← ask .now
  let o := { o with annotations :=
    { o.annotations with driftDetected := some "true", lastDriftDetected := some (Stamp.format t) } }
  return errOf (← ask (.update o))

def setDriftRemediated (o : AutoIndexer) : Go Err := do
  let driftDetected := o.annotations.driftDetected.getD ""
  if driftDetected = "" ∨ driftDetected = "false" then pure none
  else
    let o := { o with annotations := { o.annotations with driftDetected := some "false" } }
    return errOf (← ask (.update o))

/-- The body of the loop of `performDriftCheck`; the errors it logs are dropped. -/
def checkAndMark (o : AutoIndexer) : Go Unit := do
  let result ← checkAutoIndexerDrift o
  let _ ← if result.driftDetected then setDriftDetected o else setDriftRemediated o
  pure ()

def checkAll : List AutoIndexer → Go Unit
  | [] => pure ()
  | o :: items => do
    checkAndMark o
    checkAll items

/-- `performDriftCheck`. -/
def performDriftCheck : Go Unit := do
  match ← ask .list with
  | .error _ => pure ()
  | .ok items => checkAll items

end KaitoAutoIndexer.Detector
