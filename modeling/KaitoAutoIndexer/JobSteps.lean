import KaitoAutoIndexer.GitCalls
import KaitoAutoIndexer.Job

/-!
What an indexing job does, call by call: its requests go to the index that the object named
when the job began, and each write of the status is made of what the job has read before.
-/

namespace KaitoAutoIndexer.JobSteps

open KaitoAutoIndexer.Lib KaitoAutoIndexer.Types KaitoAutoIndexer.Conditions
open KaitoAutoIndexer.Rag KaitoAutoIndexer.Cluster KaitoAutoIndexer.JobClient
open KaitoAutoIndexer.Git KaitoAutoIndexer.Kusto KaitoAutoIndexer.Static KaitoAutoIndexer.Job
open KaitoAutoIndexer.GitCalls (Permits obeys_updateIndex)

/-! ### The work of a handler -/

/-- The call does not write the status, reads the object only if it may, and a request goes
to `t`. -/
def Works (reads : Prop) (t : Target) : JobCall → Prop
  | .getAutoIndexer => reads
  | .patchStatus _ => False
  | .rag t' _ => t' = t
  | _ => True

/-- Every call is work, and nothing is said of the result. -/
abbrev Working {α : Type} (reads : Prop) (t : Target) (p : Py α) : Prop :=
  Obeys (Works reads t) (fun _ => True) p

variable {reads : Prop} {t : Target}

lemma Working.bind {α β : Type} {p : Py α} {f : α → Py β} (hp : Working reads t p)
    (hf : ∀ a, Working reads t (f a)) : Working reads t (p >>= f) :=
  Obeys.bind hp fun a _ => hf a

lemma working_pure {α : Type} (a : α) : Working reads t (pure a : Py α) := trivial

lemma working_ask {α : Type} {c : JobCall} {k : JobAnswer c → Py α} (hc : Works reads t c)
    (hk : ∀ r, Working reads t (k r)) : Working reads t (ask c >>= k) := ⟨hc, hk⟩

lemma working_git (h : GitHandler) (r : Remote) : Working reads h.target (h.updateIndex r) := by
  have hpermits : ∀ c, Permits (Works reads h.target) (fun _ => True) h c := by
    intro c
    refine ⟨trivial, fun p => rfl, fun docs _ => rfl, fun us _ => rfl, fun p x changeType _ => ?_⟩
    exact ⟨trivial, fun t => trivial⟩
  exact (obeys_updateIndex trivial fun c _ => hpermits c).mono (fun _ h => h) fun _ _ => trivial

lemma working_fetchLoop (h : StaticHandler) (urls : List String) (docs : List Document) :
    Working reads h.target (h.fetchLoop urls docs) := by
  induction urls generalizing docs with
  | nil => exact working_pure _
  | cons url urls ih =>
    refine working_ask trivial fun r => ?_
    cases r with
    | error e => exact working_pure _
    | ok content =>
      dsimp only
      split
      · exact ih _
      · refine Working.bind (p := h.createDocument url _) ⟨trivial, fun _ => trivial⟩ fun d => ?_
        split
        · refine working_ask rfl fun r => ?_
          cases r with
          | ok u => exact ih _
          | error e => exact working_pure _
        · exact ih _

lemma working_static (h : StaticHandler) : Working reads h.target h.updateIndex := by
  refine working_ask trivial fun start => ?_
  refine Working.bind ?_ fun e => working_ask trivial fun fin => working_pure _
  refine (working_fetchLoop h _ _).bind fun r => ?_
  cases r with
  | error e => exact working_pure _
  | ok docs =>
    dsimp only
    split
    · exact working_pure _
    · exact working_ask rfl fun r => by cases r <;> exact working_pure _

lemma working_getAutoindexer : Working True t getAutoindexer := by
  refine working_ask trivial fun r => ?_
  match r with
  | .ok o => exact working_pure _
  | .error .notFound => exact working_pure _
  | .error .conflict => exact working_pure _
  | .error (.other m) => exact working_pure _

lemma working_formatDocuments (h : KustoHandler) (records : List Record) :
    Working reads t (h.formatDocuments records) := by
  induction records with
  | nil => exact working_pure _
  | cons r records ih =>
    unfold KustoHandler.formatDocuments
    split
    · exact ih
    · exact working_ask trivial fun t => ih.bind fun d => working_pure _

lemma working_indexBatches (h : KustoHandler) (fuel number : ℕ) (docs : List Document)
    (errors : List String) : Working reads h.target (h.indexBatches fuel number docs errors) := by
  induction fuel generalizing number docs errors with
  | zero => exact working_pure _
  | succ fuel ih =>
    unfold KustoHandler.indexBatches
    split
    · exact working_pure _
    · refine working_ask rfl fun r => ?_
      cases r with
      | ok u => exact ih _ _ _
      | error e => exact ih _ _ _

lemma working_kusto (h : KustoHandler) : Working True h.target h.updateIndex := by
  refine working_ask trivial fun start => ?_
  refine Working.bind ?_ fun ⟨e, e'⟩ => working_ask trivial fun fin => working_pure _
  have hquery : Working True h.target h.buildQuery := by
    refine Working.bind ?_ fun last => working_pure _
    refine working_getAutoindexer.bind fun r => ?_
    match r with
    | .ok (some o) => exact working_pure _
    | .ok none => exact working_pure _
    | .error e => exact working_pure _
  refine hquery.bind fun q => ?_
  cases q with
  | error e => exact working_pure _
  | ok q =>
    refine working_ask trivial fun r => ?_
    cases r with
    | error e => exact working_pure _
    | ok records =>
      refine (working_formatDocuments h records).bind fun docs => ?_
      exact (working_indexBatches h _ _ docs _).bind fun e => working_pure _

/-- A handler works on its index only, and writes no status. -/
lemma working_updateIndex (r : Remote) (h : Handler) : Working True h.target (h.updateIndex r) := by
  cases h with
  | git h => exact working_git h r
  | static h => exact working_static h
  | database h => exact working_kusto h

/-- The base of a status update is made with reads only. -/
lemma obeys_createBaseStatusUpdate {φ : JobCall → Prop} {A : String} (hnow : φ .now)
    (hget : φ .getAutoIndexer) (hlist : φ (.rag t (.listDocuments [("autoindexer", A)] 1)))
    (errors : List String) (d : ℕ) :
    Obeys φ (fun _ => True) (createBaseStatusUpdate t A errors d) := by
  have hcount : Obeys φ (fun _ => True) (countDocuments t A) :=
    ⟨hlist, fun r => by cases r <;> trivial⟩
  have hcondition : ∀ type status reason message g,
      Obeys φ (fun _ => True) (createCondition type status reason message g) :=
    fun type status reason message g => ⟨hnow, fun _ => trivial⟩
  refine ⟨hget, fun a => ?_⟩
  match a with
  | .error .notFound => trivial
  | .error .conflict => trivial
  | .error (.other m) => trivial
  | .ok current =>
    refine ⟨hnow, fun now => hcount.bind fun n _ => (hcondition _ _ _ _ _).bind fun succeeded _ => ?_⟩
    dsimp only
    split
    · refine (hcondition _ _ _ _ _).bind fun error _ => ?_
      exact (hcondition _ _ _ _ _).bind fun failed _ =>
        (hcondition _ _ _ _ _).bind fun indexing _ => trivial
    · refine (hcondition _ _ _ _ _).bind fun error _ => ?_
      exact (hcondition _ _ _ _ _).bind fun failed _ =>
        (hcondition _ _ _ _ _).bind fun indexing _ => trivial

/-! ### What a job is told -/

/-- A completion update that was accepted: what answered the read of the counter, the object
that was read next, and the object that was sent. -/
structure Completion where
  counter : Except ApiError AutoIndexer
  read : AutoIndexer
  sent : AutoIndexer

structure Told where
  /-- The object that the job began with. -/
  made : Option AutoIndexer
  /-- The answers to its reads of the object, the last one first. -/
  got : List (Except ApiError AutoIndexer)
  /-- How many of them came after its last call of another kind. -/
  reads : ℕ
  /-- The last count of the documents of its AutoIndexer; `0` if they could not be listed. -/
  counted : ℕ
  done : Option Completion

/-- Before the first call of a job. -/
def untold : Told := ⟨none, [], 0, 0, none⟩

/-- Only a completion update is sent after two reads in a row, of the counter and of the object. -/
def Told.completion (g : Told) (body : AutoIndexer) : Option Completion :=
  match g.reads, g.got with
  | 2, .ok r :: x :: _ => some ⟨x, r, body⟩
  | _, _ => g.done

/-- What an answer adds. -/
def hear (g : Told) : (c : JobCall) → JobAnswer c → Told
  | .getAutoIndexer, r =>
    { g with made := g.made <|> r.toOption, got := r :: g.got, reads := g.reads + 1 }
  | .rag _ (.listDocuments [("autoindexer", _)] _), .ok r =>
    { g with reads := 0, counted := r.totalItems }
  | .rag _ (.listDocuments [("autoindexer", _)] _), .error _ => { g with reads := 0, counted := 0 }
  | .patchStatus body, .ok _ => { g with reads := 0, done := g.completion body }
  | _, _ => { g with reads := 0 }

/-! ### Writes of the status -/

/-- The update of `_create_base_autoindexer_status_update`, made of the object `b`. -/
structure BaseUpdate (b : AutoIndexer) (n : ℕ) (u : StatusUpdate) : Prop where
  conditions : ∃ new : List Condition,
    new.map Condition.type = [succeededType, errorType, failedType, indexingType] ∧
    u.conditions = some (new.foldl (fun cs c => replaceCondition c cs) b.status.conditions)
  successes : u.successfulIndexingCount = none
  errors : u.errorIndexingCount = none
  count : u.numOfDocumentInIndex = some n
  timestamp : ∃ t, u.lastIndexingTimestamp = some t
  duration : ∃ d, u.lastIndexingDurationSeconds = some d

/-- One more than the counter that was read, `1` if it could not be read. -/
def increment (x : Except ApiError AutoIndexer) (counter : Status → ℕ) : ℕ :=
  match x with
  | .ok o => counter o.status + 1
  | .error _ => 1

/-- The update of `update_indexing_completion`, where `x` answered the read of the counter. -/
structure CompletionUpdate (success : Bool) (x : Except ApiError AutoIndexer) (n : ℕ)
    (u : StatusUpdate) : Prop where
  conditions : u.conditions = none
  commit : u.lastIndexedCommit = none
  successes : u.successfulIndexingCount =
    if success then some (increment x Status.successfulIndexingCount) else none
  errors : u.errorIndexingCount =
    if success then none else some (increment x Status.errorIndexingCount)
  count : u.numOfDocumentInIndex = some n
  timestamp : ∃ t, u.lastIndexingTimestamp = some t
  duration : ∃ d, u.lastIndexingDurationSeconds = some d

/-- The object `body` is sent to complete a run, made of the object `r`. -/
def Completes (success : Bool) (x : Except ApiError AutoIndexer) (r body : AutoIndexer) : Prop :=
  ∃ n u, CompletionUpdate success x n u ∧ body = r.withStatus (u.apply r.status)

/-- The calls of a job, and what its writes of the status are made of. -/
inductive Lawful (g : Told) : JobCall → Prop
  | now : Lawful g .now
  | get : Lawful g .getAutoIndexer
  | rag {o : AutoIndexer} {q : Request} (h : g.made = some o) : Lawful g (.rag (target o) q)
  | kusto {q : Query} : Lawful g (.kusto q)
  | fetch {url : String} : Lawful g (.fetch url)
  | condition {r : AutoIndexer} {rest : List (Except ApiError AutoIndexer)} {c : Condition}
      (hn : g.reads = 0) (hr : g.got = .ok r :: rest)
      (hc : c.type = indexingType ∨ c.type = errorType ∧ c.status = .true) :
      Lawful g (.patchStatus (r.withStatus { r.status with
        conditions := addCondition c r.status.conditions }))
  | base {r b : AutoIndexer} {rest : List (Except ApiError AutoIndexer)} {u : StatusUpdate}
      (hn : g.reads = 1) (hr : g.got = .ok r :: .ok b :: rest) (hu : BaseUpdate b g.counted u) :
      Lawful g (.patchStatus (r.withStatus (u.apply r.status)))
  | completion {success : Bool} {r : AutoIndexer} {x : Except ApiError AutoIndexer}
      {rest : List (Except ApiError AutoIndexer)} {u : StatusUpdate} (hd : g.done = none)
      (hn : g.reads = 2) (hr : g.got = .ok r :: x :: rest)
      (hu : CompletionUpdate success x g.counted u) :
      Lawful g (.patchStatus (r.withStatus (u.apply r.status)))

/-- What is known when a job returns: the completion update that was accepted tells its result. -/
def Finishes (a : Option Bool) (g : Told) : Prop :=
  ∀ d, g.done = some d → ∃ success, a = some success ∧ Completes success d.counter d.read d.sent

/-- Whatever a job is told, it makes lawful calls only. -/
abbrev Steps {α : Type} (Q : α → Told → Prop) (p : Py α) (g : Told) : Prop :=
  Tells hear Lawful Q p g

variable {g : Told} {o : AutoIndexer}

lemma hear_made {c : JobCall} {r : JobAnswer c} (h : g.made = some o) :
    (hear g c r).made = some o := by
  unfold hear
  split <;> simp [h]

lemma hear_got {c : JobCall} (hc : c ≠ .getAutoIndexer) (r : JobAnswer c) :
    (hear g c r).got = g.got := by
  unfold hear
  split
  · exact absurd rfl hc
  · rfl
  · rfl
  · rfl
  · rfl

lemma hear_reads {c : JobCall} (hc : c ≠ .getAutoIndexer) (r : JobAnswer c) :
    (hear g c r).reads = 0 := by
  unfold hear
  split
  · exact absurd rfl hc
  · rfl
  · rfl
  · rfl
  · rfl

lemma hear_done {c : JobCall} {reads : Prop} {t : Target} (hc : Works reads t c)
    (r : JobAnswer c) : (hear g c r).done = g.done := by
  unfold hear
  split
  · rfl
  · rfl
  · rfl
  · exact hc.elim
  · rfl

/-- Work is lawful for the job of the object. -/
lemma lawful_of_works {c : JobCall} (h : g.made = some o) (hc : Works True (target o) c) :
    Lawful g c := by
  cases c with
  | now => exact .now
  | getAutoIndexer => exact .get
  | patchStatus b => exact hc.elim
  | rag t q =>
    obtain rfl : t = target o := hc
    exact .rag h
  | kusto q => exact .kusto
  | fetch u => exact .fetch

/-- A job that has begun with `o`, before its completion update. -/
structure Begun (o : AutoIndexer) (g : Told) : Prop where
  made : g.made = some o
  done : g.done = none

lemma Begun.hear {c : JobCall} {reads : Prop} {t : Target} (h : Begun o g)
    (hc : Works reads t c) (r : JobAnswer c) : Begun o (hear g c r) :=
  ⟨hear_made h.made, (hear_done hc r).trans h.done⟩

lemma steps_of_working {α : Type} {p : Py α} (hp : Working True (target o) p) (h : Begun o g) :
    Steps (fun _ g' => Begun o g') p g := by
  refine (hp.tells (J := Begun o) ?_ ?_ h).mono (fun _ _ h => h) fun _ _ h => h.2
  · exact fun _ _ h hc => lawful_of_works h.made hc
  · exact fun _ _ r hc h => h.hear hc r

/-! ### The client -/

/-- What a read of the object adds. -/
structure Read (g : Told) (x : Except ApiError AutoIndexer) (g' : Told) : Prop where
  got : g'.got = x :: g.got
  reads : g'.reads = g.reads + 1
  counted : g'.counted = g.counted
  done : g'.done = g.done
  made : ∀ o, g.made = some o → g'.made = some o
  first : ∀ o, g.made = none → x = .ok o → g'.made = some o

lemma read_hear (g : Told) (x : Except ApiError AutoIndexer) :
    Read g x (hear g .getAutoIndexer x) := by
  refine ⟨rfl, rfl, rfl, rfl, fun o ho => hear_made ho, ?_⟩
  rintro o hn rfl
  simp [JobSteps.hear, hn, Except.toOption]

lemma Begun.read {g' : Told} {x : Except ApiError AutoIndexer} (h : Begun o g)
    (hr : Read g x g') : Begun o g' := ⟨hr.made o h.made, hr.done.trans h.done⟩

lemma getAutoindexer_steps (g : Told) :
    Steps (fun r g' => ∃ x, Read g x g' ∧ ∀ b, r = .ok (some b) ↔ x = .ok b)
      getAutoindexer g := by
  refine tells_ask .get fun r => ?_
  match r with
  | .ok o => exact tells_ret ⟨.ok o, read_hear g _, by simp⟩
  | .error .notFound => exact tells_ret ⟨.error .notFound, read_hear g _, by simp⟩
  | .error .conflict => exact tells_ret ⟨.error .conflict, read_hear g _, by simp⟩
  | .error (.other m) => exact tells_ret ⟨.error (.other m), read_hear g _, by simp⟩

/-- An update is lawful once the object has been read; what was accepted is noted. -/
lemma updateAutoindexerStatus_steps {u : StatusUpdate} {P : Told → Prop}
    (hl : ∀ g' r, Read g (.ok r) g' →
      Lawful g' (.patchStatus (r.withStatus (u.apply r.status))))
    (hsent : ∀ g' r, Read g (.ok r) g' →
      P (hear g' (.patchStatus (r.withStatus (u.apply r.status))) (.ok ())))
    (hunsent : ∀ g' x, Read g x g' → P g' ∧
      ∀ body e, P (hear g' (.patchStatus body) (.error e))) :
    Steps (fun _ g' => P g') (JobClient.updateAutoindexerStatus u) g := by
  refine (getAutoindexer_steps g).bind ?_
  rintro r g1 ⟨x, hread, hx⟩
  match r with
  | .error e => exact tells_ret (hunsent g1 x hread).1
  | .ok none => exact tells_ret (hunsent g1 x hread).1
  | .ok (some current) =>
    obtain rfl := (hx current).mp rfl
    refine tells_ask (hl g1 current hread) fun r => ?_
    cases r with
    | ok a => exact tells_ret (hsent g1 current hread)
    | error e => exact tells_ret ((hunsent g1 _ hread).2 _ e)

/-- An update that is not sent after two reads in a row. -/
lemma hear_patch {g' : Told} (h : Begun o g') (hn : g'.reads ≠ 2) (body : AutoIndexer)
    (r : Except ApiError Unit) : Begun o (hear g' (.patchStatus body) r) := by
  cases r with
  | error e => exact ⟨h.made, h.done⟩
  | ok a =>
    refine ⟨h.made, ?_⟩
    change g'.completion body = none
    unfold Told.completion
    split
    · rename_i hreads _
      exact absurd hreads hn
    · exact h.done

lemma addStatusCondition_steps {type : String} {status : ConditionStatus} (reason message : String)
    (h : Begun o g) (ht : type = indexingType ∨ type = errorType ∧ status = .true) :
    Steps (fun _ g' => Begun o g' ∧ g'.counted = g.counted)
      (addStatusCondition type status reason message) g := by
  refine (getAutoindexer_steps g).bind ?_
  rintro r g1 ⟨x, hread, hx⟩
  have h1 := h.read hread
  match r with
  | .error e => exact tells_ret ⟨h1, hread.counted⟩
  | .ok none => exact tells_ret ⟨h1, hread.counted⟩
  | .ok (some current) =>
    obtain rfl := (hx current).mp rfl
    refine tells_ask .now fun t => tells_ask (.condition rfl hread.got ht) fun r => ?_
    have hnow : Begun o (hear g1 .now t) := ⟨h1.made, h1.done⟩
    cases r <;> exact tells_ret ⟨hear_patch hnow (by simp [JobSteps.hear]) _ _, hread.counted⟩

lemma incrementCounter_steps (counter : Status → ℕ) (g : Told) :
    Steps (fun n g' => ∃ x, Read g x g' ∧ n = increment x counter) (incrementCounter counter) g := by
  refine (getAutoindexer_steps g).bind ?_
  rintro r g1 ⟨x, hread, hx⟩
  have herr : ∀ n, (∀ b, r ≠ .ok (some b)) → n = 1 → n = increment x counter := by
    intro n hne hn
    cases x with
    | error e => exact hn
    | ok b => exact absurd ((hx b).mpr rfl) (hne b)
  match r with
  | .error e => exact tells_ret ⟨x, hread, herr _ (by simp) rfl⟩
  | .ok none => exact tells_ret ⟨x, hread, herr _ (by simp) rfl⟩
  | .ok (some current) =>
    obtain rfl := (hx current).mp rfl
    exact tells_ret ⟨_, hread, rfl⟩

lemma finishes_of_begun (h : Begun o g) (a : Option Bool) : Finishes a g := by
  intro d hd
  rw [h.done] at hd
  cases hd

/-- Both reads, and the update made of them. -/
lemma complete_steps {success : Bool} {counter : Status → ℕ} {u : ℕ → StatusUpdate}
    (h : Begun o g) (hn : g.reads = 0)
    (hu : ∀ x, CompletionUpdate success x g.counted (u (increment x counter))) :
    Steps (fun _ g' => Finishes (some success) g') (incrementCounter counter >>= fun n =>
      JobClient.updateAutoindexerStatus (u n)) g := by
  refine (incrementCounter_steps counter g).bind ?_
  rintro n g1 ⟨x, hread, rfl⟩
  have h1 := h.read hread
  have hreads : ∀ g2 y, Read g1 y g2 → g2.reads = 2 := by
    intro g2 y hread2
    rw [hread2.reads, hread.reads, hn]
  refine updateAutoindexerStatus_steps (P := Finishes (some success)) ?_ ?_ ?_
  · intro g2 r hread2
    refine @Lawful.completion _ success _ _ _ _ (h1.read hread2).done (hreads g2 _ hread2)
      (hread2.got.trans (congrArg _ hread.got)) ?_
    rw [hread2.counted, hread.counted]
    exact hu x
  · intro g2 r hread2 d hd
    change g2.completion _ = some d at hd
    unfold Told.completion at hd
    rw [hreads g2 _ hread2, hread2.got, hread.got] at hd
    cases hd
    exact ⟨success, rfl, _, _, hu x, rfl⟩
  · intro g2 y hread2
    have h2 := h1.read hread2
    exact ⟨finishes_of_begun h2 _, fun body e => finishes_of_begun ⟨h2.made, h2.done⟩ _⟩

lemma updateIndexingCompletion_steps (success : Bool) (duration : ℕ) (h : Begun o g) :
    Steps (fun _ g' => Finishes (some success) g')
      (updateIndexingCompletion success duration g.counted) g := by
  unfold updateIndexingCompletion
  refine tells_ask .now fun t => ?_
  have hnow : Begun o (hear g .now t) := ⟨h.made, h.done⟩
  cases success with
  | true => exact complete_steps hnow rfl fun x => ⟨rfl, rfl, rfl, rfl, rfl, ⟨_, rfl⟩, ⟨_, rfl⟩⟩
  | false => exact complete_steps hnow rfl fun x => ⟨rfl, rfl, rfl, rfl, rfl, ⟨_, rfl⟩, ⟨_, rfl⟩⟩

lemma countDocuments_steps (owner : String) (h : Begun o g) :
    Steps (fun n g' => Begun o g' ∧ g'.got = g.got ∧ n = g'.counted)
      (countDocuments (target o) owner) g := by
  refine tells_ask (.rag h.made) fun r => ?_
  cases r <;> exact tells_ret ⟨⟨h.made, h.done⟩, rfl, rfl⟩

lemma createCondition_steps {type : String} {status : ConditionStatus} (reason message : String)
    (generation : ℕ) (g : Told) :
    Steps (fun c g' => g' = { g with reads := 0 } ∧ c.type = type)
      (createCondition type status reason message generation) g :=
  tells_ask .now fun _ => tells_ret ⟨rfl, rfl⟩

lemma createBaseStatusUpdate_steps (name : String) (errors : List String) (duration : ℕ)
    (h : Begun o g) :
    Steps (fun r g' => Begun o g' ∧ ∀ u, r = some u →
        ∃ b, g'.reads = 0 ∧ g'.got = .ok b :: g.got ∧ BaseUpdate b g'.counted u)
      (createBaseStatusUpdate (target o) name errors duration) g := by
  refine (getAutoindexer_steps g).bind ?_
  rintro r g1 ⟨x, hread, hx⟩
  have h1 := h.read hread
  match r with
  | .error e => exact tells_ret ⟨h1, by simp⟩
  | .ok none => exact tells_ret ⟨h1, by simp⟩
  | .ok (some current) =>
    obtain rfl := (hx current).mp rfl
    refine tells_ask .now fun t => ?_
    have hnow : Begun o (hear g1 .now t) := ⟨h1.made, h1.done⟩
    refine (countDocuments_steps name hnow).bind ?_
    rintro n g2 ⟨h2, hgot2, rfl⟩
    refine (createCondition_steps _ _ _ g2).bind ?_
    rintro succeeded _ ⟨rfl, ht1⟩
    -- the condition of the errors is made in one of two ways
    split
    all_goals
      refine (createCondition_steps _ _ _ _).bind ?_
      rintro error _ ⟨rfl, ht2⟩
      refine (createCondition_steps _ _ _ _).bind ?_
      rintro failed _ ⟨rfl, ht3⟩
      refine (createCondition_steps _ _ _ _).bind ?_
      rintro indexing _ ⟨rfl, ht4⟩
      refine tells_ret ⟨⟨h2.made, h2.done⟩, ?_⟩
      rintro _ ⟨⟩
      refine ⟨current, rfl, hgot2.trans hread.got,
        ⟨[succeeded, error, failed, indexing], ?_, rfl⟩, rfl, rfl, rfl, ⟨_, rfl⟩, ⟨_, rfl⟩⟩
      simp [ht1, ht2, ht3, ht4]

/-! ### A job -/

lemma handlerStatus_steps {h : Handler} (out : Outcome) (ht : h.target = target o)
    (hb : Begun o g) :
    Steps (fun _ g' => Begun o g') (h.updateAutoindexerStatus out) g := by
  unfold Handler.updateAutoindexerStatus
  rw [ht]
  refine (createBaseStatusUpdate_steps _ _ _ hb).bind ?_
  rintro r g1 ⟨h1, hr⟩
  cases r with
  | none => exact tells_ret h1
  | some u =>
    obtain ⟨b, hn, hgot, hu⟩ := hr u rfl
    have hreads : ∀ g2 y, Read g1 y g2 → g2.reads ≠ 2 := by
      intro g2 y hread
      rw [hread.reads, hn]
      omega
    refine (updateAutoindexerStatus_steps (P := Begun o) (fun g2 r hread => ?_)
      (fun g2 r hread => hear_patch (h1.read hread) (hreads g2 _ hread) _ _)
      fun g2 y hread => ⟨h1.read hread, fun body e =>
        hear_patch (h1.read hread) (hreads g2 _ hread) _ _⟩).bind fun _ g2 h2 => tells_ret h2
    refine .base (hread.reads.trans (by omega)) (hread.got.trans (congrArg _ hgot)) ?_
    rw [hread.counted]
    exact ⟨hu.conditions, hu.successes, hu.errors, hu.count, hu.timestamp, hu.duration⟩

lemma run_steps {h : Handler} (r : Remote) (ht : h.target = target o) (hb : Begun o g) :
    Steps (fun b g' => Finishes (some b) g') (run r h) g := by
  refine tells_ask .now fun start => ?_
  have hstart : Begun o (hear g .now start) := ⟨hb.made, hb.done⟩
  refine (addStatusCondition_steps _ _ hstart (.inl rfl)).bind ?_
  rintro - g1 ⟨h1, -⟩
  have hwork : Working True (target o) (h.updateIndex r) := by
    rw [← ht]
    exact working_updateIndex r h
  refine (steps_of_working hwork h1).bind fun out g2 h2 => ?_
  refine (handlerStatus_steps out ht h2).bind fun _ g3 h3 => ?_
  refine tells_ask .now fun fin => ?_
  have hfin : Begun o (hear g3 .now fin) := ⟨h3.made, h3.done⟩
  rw [ht]
  refine (countDocuments_steps _ hfin).bind ?_
  rintro n g4 ⟨h4, -, rfl⟩
  split
  · refine (addStatusCondition_steps _ _ h4 (.inr ⟨rfl, rfl⟩)).bind ?_
    rintro - g5 ⟨h5, hcount⟩
    rw [← hcount]
    exact (updateIndexingCompletion_steps false _ h5).bind fun _ _ hf => tells_ret hf
  · refine (addStatusCondition_steps _ _ h4 (.inl rfl)).bind ?_
    rintro - g5 ⟨h5, hcount⟩
    rw [← hcount]
    exact (updateIndexingCompletion_steps true _ h5).bind fun _ _ hf => tells_ret hf

lemma target_of_create {o : AutoIndexer} {h : Handler} (hh : createDataSourceHandler o = some h) :
    h.target = target o := by
  unfold createDataSourceHandler at hh
  split at hh
  · cases hh
  · split at hh
    · split at hh
      · split at hh
        · cases hh
        · cases hh
          rfl
      · cases hh
    · obtain ⟨s, -, rfl⟩ := Option.map_eq_some_iff.mp hh
      rfl
    · split at hh
      · split at hh
        · cases hh
        · cases hh
          rfl
      · cases hh

/-- **Every call of an indexing job is lawful**, and its completion update tells its result. -/
theorem main_steps (r : Remote) : Steps Finishes (main r) untold := by
  refine (getAutoindexer_steps untold).bind ?_
  rintro a g1 ⟨x, hread, hx⟩
  have hnone : ∀ a, Finishes a g1 := by
    intro a d hd
    rw [hread.done] at hd
    cases hd
  match a with
  | .error e => exact tells_ret (hnone _)
  | .ok none => exact tells_ret (hnone _)
  | .ok (some o) =>
    have hb : Begun o g1 := ⟨hread.first o rfl ((hx o).mp rfl), hread.done⟩
    dsimp only
    split
    · rename_i h hh
      exact (run_steps r (target_of_create hh) hb).bind fun _ _ hf => tells_ret hf
    · exact tells_ret (hnone _)

end KaitoAutoIndexer.JobSteps
