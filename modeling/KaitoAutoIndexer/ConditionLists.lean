import KaitoAutoIndexer.Controller
import KaitoAutoIndexer.JobClient

/-!
The four routines of the two programs that write the condition list, in any order: the list stays
well formed, and when the transition times mark the transitions.
-/

namespace KaitoAutoIndexer.ConditionLists

open KaitoAutoIndexer.Lib KaitoAutoIndexer.Types KaitoAutoIndexer.Conditions
open KaitoAutoIndexer.JobClient (createBaseStatusUpdate pyList)

/-! ### The routines -/

/-- The way an entry of the type is replaced. -/
inductive Kind
  | set | replace | add
  deriving DecidableEq

/-- One turn of a routine's loop over its conditions. -/
def upsert : Kind → Condition → List Condition → List Condition
  | .set => setCondition
  | .replace => replaceCondition
  | .add => addCondition

/-- The conditions of `_create_base_autoindexer_status_update`. -/
def baseConditions (errors : List String) (generation : ℕ) (t₁ t₂ t₃ t₄ : Time) : List Condition :=
  [⟨succeededType, .true, "IndexingCompleted", "Indexing completed successfully", t₁, generation⟩,
   if errors ≠ [] then
      ⟨errorType, .true, "IndexingErrors", "Indexing completed with errors: " ++ pyList errors, t₂,
        generation⟩
    else ⟨errorType, .false, "IndexingCompleted", "No errors during indexing", t₂, generation⟩,
   ⟨failedType, .false, "IndexingCompleted", "Indexing completed successfully", t₃, generation⟩,
   ⟨indexingType, .false, "IndexingCompleted", "Document indexing process completed successfully", t₄,
    generation⟩]

/-- A call of one of the routines. -/
inductive Write
  | setAutoIndexerCondition (c : Condition)
  | updateStatus (newConditions : List Condition)
  | addStatusCondition (c : Condition)
  | createBaseStatusUpdate (errors : List String) (generation : ℕ) (t₁ t₂ t₃ t₄ : Time)

/-- The conditions it writes, one after the other, each with the time of its writing. -/
def Write.turns : Write → List (Kind × Condition)
  | .setAutoIndexerCondition c => [(.set, c)]
  | .updateStatus cs => cs.map (.replace, ·)
  | .addStatusCondition c => [(.add, c)]
  | .createBaseStatusUpdate errors g t₁ t₂ t₃ t₄ =>
    (baseConditions errors g t₁ t₂ t₃ t₄).map (.replace, ·)

def turnsOn (turns : List (Kind × Condition)) (cs : List Condition) : List Condition :=
  turns.foldl (fun cs x => upsert x.1 x.2 cs) cs

def Write.apply (w : Write) (cs : List Condition) : List Condition := turnsOn w.turns cs

/-- The types it names. -/
def Write.named (w : Write) : List String := w.turns.map (·.2.type)

/-- The status that is written last for the type, if it is named. -/
def written (t : String) (turns : List (Kind × Condition)) : Option ConditionStatus :=
  turns.foldl (fun s x => if x.2.type = t then some x.2.status else s) none

lemma turnsOn_replace (new cs : List Condition) :
    turnsOn (new.map (.replace, ·)) cs = new.foldl (fun cs c => replaceCondition c cs) cs := by
  simp [turnsOn, List.foldl_map, upsert]

/-- `setAutoIndexerCondition` of the controller. -/
lemma setAutoIndexerCondition_eq (o : AutoIndexer) (type : String) (status : ConditionStatus)
    (reason message : String) :
    Controller.setAutoIndexerCondition o type status reason message =
      Controller.ask .now >>= fun t => pure (o.withStatus { o.status with
        conditions := (Write.setAutoIndexerCondition ⟨type, status, reason, message, t,
          o.generation⟩).apply o.status.conditions }) := rfl

/-- `updateStatus` of the controller. -/
lemma updateStatus_conditions (o : AutoIndexer) (phase : Phase) (new : List Condition) :
    (Controller.updateStatus o phase new).status.conditions =
      (Write.updateStatus new).apply o.status.conditions := (turnsOn_replace _ _).symm

/-- `add_status_condition` of the job: it writes the object that it has read, with the new list. -/
lemma addStatusCondition_conditions (type : String) (status : ConditionStatus) (reason message : String) :
    Obeys (fun c => ∀ body, c = .patchStatus body → ∃ (current : AutoIndexer) (t : Time),
      body = current.withStatus { current.status with
        conditions := (Write.addStatusCondition ⟨type, status, reason, message, t,
          current.generation⟩).apply current.status.conditions })
      (fun _ => True) (JobClient.addStatusCondition type status reason message) := by
  refine ⟨by simp, fun a => ?_⟩
  match a with
  | .error .notFound => trivial
  | .error .conflict => trivial
  | .error (.other m) => trivial
  | .ok current =>
    refine ⟨by simp, fun t => ⟨?_, fun a => by cases a <;> trivial⟩⟩
    rintro body ⟨⟩
    exact ⟨current, t, rfl⟩

/-- `_create_base_autoindexer_status_update` of the job. -/
lemma createBaseStatusUpdate_conditions (t : Rag.Target) (name : String) (errors : List String)
    (duration : ℕ) :
    Obeys (fun _ => True) (fun r => ∀ u, r = some u → ∃ cs g t₁ t₂ t₃ t₄, u.conditions =
      some ((Write.createBaseStatusUpdate errors g t₁ t₂ t₃ t₄).apply cs))
      (createBaseStatusUpdate t name errors duration) := by
  have hbase : ∀ g t₁ t₂ t₃ t₄ cs, (baseConditions errors g t₁ t₂ t₃ t₄).foldl
      (fun cs c => replaceCondition c cs) cs =
      (Write.createBaseStatusUpdate errors g t₁ t₂ t₃ t₄).apply cs :=
    fun g t₁ t₂ t₃ t₄ cs => (turnsOn_replace _ cs).symm
  refine ⟨trivial, fun a => ?_⟩
  match a with
  | .error .notFound => exact fun u hu => by cases hu
  | .error .conflict => exact fun u hu => by cases hu
  | .error (.other m) => exact fun u hu => by cases hu
  | .ok current =>
    have hcount : Obeys (fun _ => True) (fun _ => True) (JobClient.countDocuments t name) :=
      ⟨trivial, fun a => by cases a <;> trivial⟩
    refine ⟨trivial, fun t₀ => hcount.bind fun n _ => ⟨trivial, fun t₁ => ?_⟩⟩
    dsimp only
    split
    · rename_i he
      refine ⟨trivial, fun t₂ => ⟨trivial, fun t₃ => ⟨trivial, fun t₄ => ?_⟩⟩⟩
      rintro _ ⟨⟩
      refine ⟨current.status.conditions, current.generation, t₁, t₂, t₃, t₄, ?_⟩
      rw [← hbase, baseConditions, if_pos he]
    · rename_i he
      refine ⟨trivial, fun t₂ => ⟨trivial, fun t₃ => ⟨trivial, fun t₄ => ?_⟩⟩⟩
      rintro _ ⟨⟩
      refine ⟨current.status.conditions, current.generation, t₁, t₂, t₃, t₄, ?_⟩
      rw [← hbase, baseConditions, if_neg he]

/-! ### Well-formed lists -/

def types (cs : List Condition) : List String := cs.map Condition.type

/-- The status of the first entry of the type. -/
def statusAt (t : String) (cs : List Condition) : Option ConditionStatus :=
  (cs.find? (·.type == t)).map Condition.status

/-- What a call does to the list: no type is lost or doubled, the entries of the other types stay
where they are, and a named type has the status that was written last. -/
structure Keeps (named : List String) (status : String → Option ConditionStatus)
    (cs cs' : List Condition) : Prop where
  nodup : (types cs).Nodup → (types cs').Nodup
  types : types cs ⊆ types cs'
  others : ∀ (i : ℕ) a, cs[i]? = some a → a.type ∉ named → cs'[i]? = some a
  status : ∀ t, statusAt t cs' = (status t).or (statusAt t cs)

lemma statusAt_upsertWith {c : Condition} {f : Condition → Condition}
    (hf : ∀ a, a.type = c.type → (f a).type = c.type ∧ (f a).status = c.status) (t : String)
    (cs : List Condition) : statusAt t (upsertWith (·.type == c.type) f c cs) =
      if c.type = t then some c.status else statusAt t cs := by
  unfold statusAt
  split
  · rename_i ht
    subst ht
    rw [find?_upsertWith (fun a ha => ?_) (by simp)]
    · cases hfind : cs.find? (·.type == c.type) with
      | none => rfl
      | some a =>
        have ha : a.type = c.type := by simpa using List.find?_some hfind
        simp [(hf a ha).2]
    · simpa using (hf a (by simpa using ha)).1
  · rename_i ht
    rw [find?_upsertWith_of_not (fun a ha => ?_) (fun a ha => ?_) (by simpa using ht)]
    · have ha : a.type = c.type := by simpa using ha
      simpa [ha] using ht
    · simpa [(hf a (by simpa using ha)).1] using ht

/-- What the three ways to replace an entry have in common. -/
lemma upsert_eq (k : Kind) (c : Condition) (cs : List Condition) :
    ∃ f : Condition → Condition, (∀ a, a.type = c.type → (f a).type = c.type ∧ (f a).status = c.status) ∧
      upsert k c cs = upsertWith (·.type == c.type) f c cs := by
  cases k with
  | set =>
    refine ⟨_, fun a ha => ?_, rfl⟩
    split
    · rename_i hs
      exact ⟨ha, hs⟩
    · exact ⟨rfl, rfl⟩
  | replace => exact ⟨_, fun _ _ => ⟨rfl, rfl⟩, rfl⟩
  | add =>
    refine ⟨fun old => { c with lastTransitionTime :=
      if old.status = c.status then old.lastTransitionTime else c.lastTransitionTime }, ?_, rfl⟩
    exact fun _ _ => ⟨rfl, rfl⟩

lemma keeps_upsert (k : Kind) (c : Condition) (cs : List Condition) :
    Keeps [c.type] (fun t => if c.type = t then some c.status else none) cs (upsert k c cs) := by
  obtain ⟨f, hf, heq⟩ := upsert_eq k c cs
  rw [heq]
  refine ⟨nodup_upsertWith (fun a ha => (hf a ha).1) rfl, ?_, fun i a hi ha => ?_, fun t => ?_⟩
  · unfold ConditionLists.types
    rw [map_upsertWith (fun a ha => (hf a ha).1) rfl]
    split
    · exact List.Subset.refl _
    · exact List.subset_append_left _ _
  · exact getElem?_upsertWith hi (by simpa using ha)
  · rw [statusAt_upsertWith hf]
    split <;> rfl

lemma written_append (t : String) (turns : List (Kind × Condition)) (x : Kind × Condition) :
    written t (turns ++ [x]) = if x.2.type = t then some x.2.status else written t turns := by
  simp [written]

lemma written_ne_none {t : String} {turns : List (Kind × Condition)}
    (ht : t ∈ turns.map (·.2.type)) : written t turns ≠ none := by
  induction turns using List.reverseRecOn with
  | nil => cases ht
  | append_singleton turns x ih =>
    rw [written_append]
    split
    · exact Option.some_ne_none _
    · rename_i hx
      rw [List.map_append, List.mem_append] at ht
      refine ih (ht.resolve_right fun hmem => hx ?_)
      exact (List.mem_singleton.mp hmem).symm

/-- The turns of a call, one after the other. -/
lemma keeps_turns (turns : List (Kind × Condition)) (cs : List Condition) :
    Keeps (turns.map (·.2.type)) (fun t => written t turns) cs (turnsOn turns cs) := by
  induction turns using List.reverseRecOn with
  | nil => exact ⟨id, List.Subset.refl _, fun _ _ hi _ => hi, fun _ => rfl⟩
  | append_singleton turns x ih =>
    have hx := keeps_upsert x.1 x.2 (turnsOn turns cs)
    have hturns : turnsOn (turns ++ [x]) cs = upsert x.1 x.2 (turnsOn turns cs) := by
      simp [turnsOn]
    rw [hturns]
    refine ⟨fun h => hx.nodup (ih.nodup h), List.Subset.trans ih.types hx.types, fun i a hi ha => ?_, fun t => ?_⟩
    · rw [List.map_append, List.mem_append, not_or] at ha
      exact hx.others i a (ih.others i a hi ha.1) ha.2
    · rw [hx.status, ih.status, written_append]
      split <;> rfl

/-- The lists that calls of the routines can make of `cs`. -/
inductive Reached (cs : List Condition) : List Condition → Prop
  | start : Reached cs cs
  | write {cs' : List Condition} (h : Reached cs cs') (w : Write) : Reached cs (w.apply cs')

/-- **Condition lists stay well formed under all four writers**, in any sequence of calls: from a
list with distinct types the types stay distinct and none disappears, and each call leaves the
entries of the types it does not name as and where they are, and gives a named type the status it
writes. -/
theorem reached_wellFormed {cs cs' : List Condition} (hcs : (types cs).Nodup)
    (h : Reached cs cs') :
    (types cs').Nodup ∧ types cs ⊆ types cs' ∧ ∀ w : Write,
      types cs' ⊆ types (w.apply cs') ∧
      (∀ (i : ℕ) a, cs'[i]? = some a → a.type ∉ w.named → (w.apply cs')[i]? = some a) ∧
      ∀ t ∈ w.named, statusAt t (w.apply cs') = written t w.turns ∧ written t w.turns ≠ none := by
  have hreached : (types cs').Nodup ∧ types cs ⊆ types cs' := by
    induction h with
    | start => exact ⟨hcs, List.Subset.refl _⟩
    | write _ w ih =>
      have hw := keeps_turns w.turns
      exact ⟨(hw _).nodup ih.1, List.Subset.trans ih.2 (hw _).types⟩
  refine ⟨hreached.1, hreached.2, fun w => ?_⟩
  have hw := keeps_turns w.turns cs'
  refine ⟨hw.types, hw.others, fun t ht => ?_⟩
  have hwritten := written_ne_none ht
  obtain ⟨s, hs⟩ := Option.ne_none_iff_exists'.mp hwritten
  refine ⟨(hw.status t).trans ?_, hwritten⟩
  rw [hs]
  rfl

/-- Two entries, of which a run and the controller rewrite the first. -/
def demoConditions : List Condition :=
  [⟨errorType, .true, "IndexingErrors", "", 1, 1⟩, ⟨resourceType, .true, "ResourcesEnsured", "", 1, 1⟩]

theorem reached_wellFormed_demo :
    (types ((Write.setAutoIndexerCondition ⟨errorType, .true, "ReconcileFailed", "", 9, 1⟩).apply
      ((Write.createBaseStatusUpdate [] 1 5 6 7 8).apply demoConditions))).Nodup :=
  (@reached_wellFormed demoConditions _ (by decide)
    (.write (.write .start (.createBaseStatusUpdate [] 1 5 6 7 8))
      (.setAutoIndexerCondition ⟨errorType, .true, "ReconcileFailed", "", 9, 1⟩))).1

/-! ### Transition times -/

/-- The transition time of the first entry of the type. -/
def transitionAt (t : String) (cs : List Condition) : Option Time :=
  (cs.find? (·.type == t)).map Condition.lastTransitionTime

/-- The time of the last turn that changed the status of each type, `first` before there was
one. -/
def changedAt (cs : List Condition) (first : String → Option Time) :
    List (Kind × Condition) → String → Option Time
  | [] => first
  | x :: turns => changedAt (upsert x.1 x.2 cs)
      (fun t => if x.2.type = t ∧ statusAt t cs ≠ some x.2.status then some x.2.lastTransitionTime
        else first t) turns

/-- After the turns, the transition time of every type is that of the last change of its status. -/
def Marks (cs : List Condition) (turns : List (Kind × Condition)) : Prop :=
  ∀ t, transitionAt t (turnsOn turns cs) = changedAt cs (transitionAt · cs) turns t

/-- The turns of one type come one after the other, after the time that the list has for it. -/
structure Increasing (cs : List Condition) (turns : List (Kind × Condition)) : Prop where
  after : ∀ x ∈ turns, ∀ u, transitionAt x.2.type cs = some u → u < x.2.lastTransitionTime
  pairwise : turns.Pairwise fun x y => x.2.type = y.2.type →
    x.2.lastTransitionTime < y.2.lastTransitionTime

/-- No turn that replaces the entry repeats its status. -/
def NoRepeats (cs : List Condition) (turns : List (Kind × Condition)) : Prop :=
  ∀ before x after, turns = before ++ x :: after → x.1 = .replace →
    statusAt x.2.type (turnsOn before cs) ≠ some x.2.status

lemma changedAt_append (cs : List Condition) (first : String → Option Time)
    (turns : List (Kind × Condition)) (x : Kind × Condition) (t : String) :
    changedAt cs first (turns ++ [x]) t =
      if x.2.type = t ∧ statusAt t (turnsOn turns cs) ≠ some x.2.status then
        some x.2.lastTransitionTime else changedAt cs first turns t := by
  induction turns generalizing cs first with
  | nil => rfl
  | cons y turns ih => exact ih _ _

lemma transitionAt_upsert (k : Kind) (c : Condition) (cs : List Condition) (t : String) :
    transitionAt t (upsert k c cs) =
      if c.type = t then
        if k ≠ .replace ∧ statusAt t cs = some c.status then transitionAt t cs
        else some c.lastTransitionTime
      else transitionAt t cs := by
  obtain ⟨f, hf, heq⟩ := upsert_eq k c cs
  by_cases ht : c.type = t
  · subst ht
    rw [if_pos rfl]
    unfold transitionAt statusAt
    cases k with
    | set =>
      rw [upsert, setCondition, find?_upsertWith (by intro a ha; split <;> simp_all) (by simp)]
      cases cs.find? (·.type == c.type) with
      | none => simp
      | some a => by_cases hs : a.status = c.status <;> simp [hs]
    | replace =>
      rw [upsert, replaceCondition, find?_upsertWith (by simp) (by simp)]
      cases cs.find? (·.type == c.type) <;> simp
    | add =>
      rw [upsert, addCondition, find?_upsertWith (by simp) (by simp)]
      cases cs.find? (·.type == c.type) with
      | none => simp
      | some a => by_cases hs : a.status = c.status <;> simp [hs]
  · rw [if_neg ht, heq]
    unfold transitionAt
    rw [find?_upsertWith_of_not (fun a ha => ?_) (fun a ha => ?_) (by simpa using ht)]
    · have ha : a.type = c.type := by simpa using ha
      simpa [ha] using ht
    · simpa [(hf a (by simpa using ha)).1] using ht

/-- A time in the list was there before, or is that of a turn. -/
lemma transitionAt_turnsOn {t : String} {cs : List Condition} {turns : List (Kind × Condition)}
    {u : Time} (hu : transitionAt t (turnsOn turns cs) = some u) :
    transitionAt t cs = some u ∨ ∃ x ∈ turns, x.2.type = t ∧ x.2.lastTransitionTime = u := by
  induction turns using List.reverseRecOn with
  | nil => exact .inl hu
  | append_singleton turns x ih =>
    have hturns : turnsOn (turns ++ [x]) cs = upsert x.1 x.2 (turnsOn turns cs) := by simp [turnsOn]
    have hbefore : transitionAt t (turnsOn turns cs) = some u →
        transitionAt t cs = some u ∨ ∃ y ∈ turns ++ [x], y.2.type = t ∧ y.2.lastTransitionTime = u := by
      intro h
      rcases ih h with h | ⟨y, hy, h⟩
      · exact .inl h
      · exact .inr ⟨y, List.mem_append_left _ hy, h⟩
    rw [hturns, transitionAt_upsert] at hu
    split at hu
    · rename_i ht
      split at hu
      · exact hbefore hu
      · exact .inr ⟨x, by simp, ht, Option.some_inj.mp hu⟩
    · exact hbefore hu

/-- One more turn keeps the marks, unless it replaces an entry by one of the same status. -/
lemma marks_append_iff {cs : List Condition} {turns : List (Kind × Condition)} {x : Kind × Condition}
    (hm : Marks cs turns)
    (hlater : ∀ u, transitionAt x.2.type (turnsOn turns cs) = some u → u < x.2.lastTransitionTime) :
    Marks cs (turns ++ [x]) ↔
      (x.1 = .replace → statusAt x.2.type (turnsOn turns cs) ≠ some x.2.status) := by
  have hturns : turnsOn (turns ++ [x]) cs = upsert x.1 x.2 (turnsOn turns cs) := by simp [turnsOn]
  unfold Marks
  simp only [hturns, transitionAt_upsert, changedAt_append, ← hm _]
  constructor
  · intro h hk hs
    have h1 := h x.2.type
    rw [if_pos rfl, if_neg (by simp [hk]), if_neg (by simp [hs])] at h1
    exact absurd (hlater _ h1.symm) (lt_irrefl _)
  · intro h t
    by_cases ht : x.2.type = t
    · subst ht
      by_cases hs : statusAt x.2.type (turnsOn turns cs) = some x.2.status
      · have hk : x.1 ≠ .replace := fun hk => h hk hs
        simp [hs, hk]
      · simp [hs]
    · simp [ht]

/-- **The transition times mark the transitions** throughout a sequence of calls of the four
routines at increasing times, exactly when no call of `updateStatus` or of
`_create_base_autoindexer_status_update` repeats the status of a condition. -/
theorem marks_iff {cs : List Condition} {calls : List Write}
    (hi : Increasing cs (calls.flatMap Write.turns)) :
    (∀ before, before <+: calls.flatMap Write.turns → Marks cs before) ↔
      NoRepeats cs (calls.flatMap Write.turns) := by
  generalize calls.flatMap Write.turns = turns at hi
  induction turns using List.reverseRecOn with
  | nil =>
    refine ⟨fun _ before x after h => ?_, fun _ before h => ?_⟩
    · simp at h
    · obtain rfl := List.prefix_nil.mp h
      exact fun t => rfl
  | append_singleton turns x ih =>
    have hpairwise := List.pairwise_append.mp hi.pairwise
    have ih := ih ⟨fun y hy => hi.after y (List.mem_append_left _ hy), hpairwise.1⟩
    have hlater : ∀ u, transitionAt x.2.type (turnsOn turns cs) = some u →
        u < x.2.lastTransitionTime := by
      intro u hu
      rcases transitionAt_turnsOn hu with hu | ⟨y, hy, ht, rfl⟩
      · exact hi.after x (by simp) u hu
      · exact hpairwise.2.2 y hy x (by simp) ht
    constructor
    · intro h before y after heq hk
      have hturns := ih.mp fun b hb => h b (hb.trans (List.prefix_append _ _))
      rcases List.eq_nil_or_concat after with rfl | ⟨after, z, rfl⟩
      · obtain ⟨rfl, hxy⟩ := List.append_inj' heq rfl
        cases hxy
        exact (marks_append_iff (h turns (List.prefix_append _ _)) hlater).mp (h _ List.prefix_rfl) hk
      · have heq : turns ++ [x] = (before ++ y :: after) ++ [z] := by simpa using heq
        obtain ⟨rfl, -⟩ := List.append_inj' heq rfl
        exact hturns before y after rfl hk
    · intro h
      have hturns := ih.mpr fun before y after heq hk =>
        h before y (after ++ [x]) (by rw [heq]; simp) hk
      intro before hb
      rcases List.prefix_concat_iff.mp hb with rfl | hb
      · exact (marks_append_iff (hturns turns List.prefix_rfl) hlater).mpr (h turns x [] rfl)
      · exact hturns before hb

theorem marks_demo :
    transitionAt errorType ((Write.addStatusCondition
      ⟨errorType, .true, "IndexingErrors", "", 9, 1⟩).apply demoConditions) = some 1 := by
  have hi : Increasing demoConditions
      ([Write.addStatusCondition ⟨errorType, .true, "IndexingErrors", "", 9, 1⟩].flatMap Write.turns) := by
    refine ⟨fun x hx u hu => ?_, by decide⟩
    obtain rfl := List.mem_singleton.mp hx
    cases hu
    decide
  refine ((marks_iff hi).mpr ?_ _ List.prefix_rfl errorType).trans (by decide)
  intro before x after heq hk
  have hx : x ∈ before ++ x :: after := by simp
  rw [← heq] at hx
  obtain rfl := List.mem_singleton.mp hx
  cases hk

/-- A run with errors moves the time of a condition that stays True. -/
theorem not_marks :
    ¬ ∀ (cs : List Condition) (calls : List Write), Increasing cs (calls.flatMap Write.turns) →
      ∀ before, before <+: calls.flatMap Write.turns → Marks cs before := by
  intro h
  have hi : Increasing demoConditions
      ([Write.createBaseStatusUpdate ["e"] 1 5 6 7 8].flatMap Write.turns) := by
    refine ⟨fun x hx u hu => ?_, by decide⟩
    fin_cases hx
    · cases hu
    · cases hu
      decide
    · cases hu
    · cases hu
  exact absurd (h _ _ hi _ List.prefix_rfl errorType) (by decide)

end KaitoAutoIndexer.ConditionLists
