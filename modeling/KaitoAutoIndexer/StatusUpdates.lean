import KaitoAutoIndexer.RunOutcome
import KaitoAutoIndexer.JobSteps
import KaitoAutoIndexer.System
import KaitoAutoIndexer.ControllerSpec

/-!
The timestamp and the document count that a run leaves on the object: they are those of the last
status update of the run that the API server has accepted.
-/

namespace KaitoAutoIndexer.StatusUpdates

open KaitoAutoIndexer.Lib KaitoAutoIndexer.Types
open KaitoAutoIndexer.Cluster KaitoAutoIndexer.JobClient KaitoAutoIndexer.Job
open KaitoAutoIndexer.System (JobServes jobServes_jobServe fetched jobServes_fetched)
open KaitoAutoIndexer.JobSteps (Told untold Lawful Begun run_steps target_of_create)
open KaitoAutoIndexer.RunOutcome (Log silent Fine run_hears)
open KaitoAutoIndexer.ControllerSpec (demo demoWorld)
open KaitoAutoIndexer.GitSpec (demoRemote)

/-! ### What a run has been told -/

structure Notes where
  told : Told
  log : Log
  /-- A request for the number of documents of the AutoIndexer has been answered. -/
  counted : Bool
  /-- The status of the last status update that was accepted. -/
  sent : Option Status

/-- The documents of the AutoIndexer were counted. -/
def answered : (c : JobCall) → JobAnswer c → Bool
  | .rag _ (.listDocuments [("autoindexer", _)] _), .ok _ => true
  | _, _ => false

def note (g : Notes) (c : JobCall) (a : JobAnswer c) : Notes where
  told := JobSteps.hear g.told c a
  log := RunOutcome.hear g.log c a
  counted := g.counted || answered c a
  sent :=
    match c, a with
    -- a condition is not sent right after the read of the object
    | .patchStatus body, .ok _ => if g.told.reads = 0 then g.sent else some body.status
    | _, _ => g.sent

/-- The job has been made for the object `o`. -/
def started (o : AutoIndexer) : Notes := ⟨{ untold with made := some o }, silent, false, none⟩

/-- The API server, the source and the engine may fail. -/
abbrev service : Service (World × Notes) JobCall JobAnswer := noted (JobServes True) note

def lastTimestamp (w : World) : Option (Option Time) := w.stored.map (·.status.lastIndexingTimestamp)

def documentCount (w : World) : Option ℕ := w.stored.map (·.status.numOfDocumentInIndex)

/-! ### What it leaves -/

/-- The invariant of a run from `w`. -/
structure Inv (w : World) (x : World × Notes) : Prop where
  /-- The object that was read last is the one that is stored, or an older version of it. -/
  read : ∀ r rest, x.2.told.got = .ok r :: rest → ∀ o, x.1.stored = some o →
    o.resourceVersion = r.resourceVersion → o = r
  timestamp : lastTimestamp x.1 = x.2.sent.elim (lastTimestamp w) fun s => some s.lastIndexingTimestamp
  count : documentCount x.1 = x.2.sent.elim (documentCount w) fun s => some s.numOfDocumentInIndex
  /-- When no count was answered, it counts as `0`. -/
  zero : x.2.counted = false →
    x.2.told.counted = 0 ∧ ∀ s, x.2.sent = some s → s.numOfDocumentInIndex = 0

variable {w : World} {x y : World × Notes}

lemma inv_started (w : World) (o : AutoIndexer) : Inv w (w, started o) := by
  refine ⟨fun r rest hr => ?_, rfl, rfl, fun _ => ⟨rfl, fun s hs => ?_⟩⟩
  · cases hr
  · cases hs

/-- What was counted before is only replaced by an answer, or by `0`. -/
lemma counted_hear {g : Told} {c : JobCall} {a : JobAnswer c} (ha : answered c a = false)
    (hg : g.counted = 0) : (JobSteps.hear g c a).counted = 0 := by
  unfold JobSteps.hear
  split
  · exact hg
  · exact absurd ha (by simp [answered])
  · rfl
  · exact hg
  · exact hg

/-- A call that leaves the object alone. -/
lemma Inv.keep (h : Inv w x) (hstored : y.1.stored = x.1.stored)
    (hgot : y.2.told.got = x.2.told.got) (hsent : y.2.sent = x.2.sent)
    (hzero : y.2.counted = false → x.2.counted = false ∧ (x.2.told.counted = 0 →
      y.2.told.counted = 0)) : Inv w y where
  read := by
    rw [hgot, hstored]
    exact h.read
  timestamp := by
    rw [hsent, ← h.timestamp]
    simp only [lastTimestamp, hstored]
  count := by
    rw [hsent, ← h.count]
    simp only [documentCount, hstored]
  zero := by
    intro hy
    obtain ⟨hx, htold⟩ := hzero hy
    rw [hsent]
    exact ⟨htold (h.zero hx).1, (h.zero hx).2⟩

/-- The accepted patch of an object that was read. -/
lemma Inv.accepted (h : Inv w x) {r : AutoIndexer} {rest : List (Except ApiError AutoIndexer)} {s : Status}
    (hgot : x.2.told.got = .ok r :: rest)
    (hy : service x (.patchStatus (r.withStatus s)) (.ok ()) y) :
    ∃ o', y.1.stored = some o' ∧ o'.status = s ∧ x.1.stored = some r ∧
      (o' = r ∨ o'.resourceVersion ≠ r.resourceVersion) ∧ y.2.told.got = x.2.told.got := by
  obtain ⟨hs, hnote⟩ := hy
  rcases hs with hs | ⟨-, -, m, hm⟩
  · unfold System.patchJobStatus at hs
    cases ho : x.1.stored with
    | none =>
      rw [ho] at hs
      cases hs
    | some o =>
      simp only [ho] at hs
      split at hs
      · cases hs
      · rename_i hv
        have hor : o = r := h.read r rest hgot o ho (not_not.mp hv)
        subst hor
        have hstored : y.1.stored = some (Cluster.accept o (o.withStatus s)) := by
          rw [Prod.mk.injEq] at hs
          rw [hs.2]
          rfl
        refine ⟨_, hstored, by simp [AutoIndexer.withStatus], rfl, ?_, ?_⟩
        · rcases accept_resourceVersion o (o.withStatus s) with h1 | h1
          · exact .inl h1
          · exact .inr (Nat.ne_of_gt h1)
        · rw [hnote]
          exact JobSteps.hear_got (by simp) _
  · cases hm

/-- A status update is accepted. -/
lemma Inv.send (h : Inv w x) {r : AutoIndexer} {rest : List (Except ApiError AutoIndexer)} {s : Status}
    (hgot : x.2.told.got = .ok r :: rest) (hn : x.2.told.reads ≠ 0)
    (hcount : s.numOfDocumentInIndex = x.2.told.counted)
    (hy : service x (.patchStatus (r.withStatus s)) (.ok ()) y) : Inv w y := by
  obtain ⟨o', ho', rfl, -, hv, hgot'⟩ := h.accepted hgot hy
  have hsent : y.2.sent = some o'.status := by
    rw [hy.2]
    exact if_neg hn
  have hcounted : y.2.counted = x.2.counted := by rw [hy.2]; exact Bool.or_false _
  have htold : y.2.told.counted = x.2.told.counted := by rw [hy.2]; rfl
  refine ⟨fun r' rest' hr' o ho hov => ?_, ?_, ?_, fun hc => ?_⟩
  · rw [hgot', hgot] at hr'
    rw [ho'] at ho
    cases hr'
    cases ho
    exact hv.resolve_right (not_not.mpr hov)
  · simp only [lastTimestamp, ho', hsent, Option.map_some, Option.elim_some]
  · simp only [documentCount, ho', hsent, Option.map_some, Option.elim_some]
  · rw [hcounted] at hc
    rw [htold, hsent]
    refine ⟨(h.zero hc).1, fun s hs => ?_⟩
    cases hs
    rw [hcount]
    exact (h.zero hc).1

/-- A condition is accepted. -/
lemma Inv.condition (h : Inv w x) {r : AutoIndexer} {rest : List (Except ApiError AutoIndexer)}
    {cs : List Condition} (hgot : x.2.told.got = .ok r :: rest) (hn : x.2.told.reads = 0)
    (hy : service x (.patchStatus (r.withStatus { r.status with conditions := cs })) (.ok ()) y) :
    Inv w y := by
  obtain ⟨o', ho', hs, hr, hv, hgot'⟩ := h.accepted hgot hy
  have hsent : y.2.sent = x.2.sent := by
    rw [hy.2]
    exact if_pos hn
  have hcounted : y.2.counted = x.2.counted := by rw [hy.2]; exact Bool.or_false _
  have htold : y.2.told.counted = x.2.told.counted := by rw [hy.2]; rfl
  refine ⟨fun r' rest' hr' o ho hov => ?_, ?_, ?_, fun hc => ?_⟩
  · rw [hgot', hgot] at hr'
    rw [ho'] at ho
    cases hr'
    cases ho
    exact hv.resolve_right (not_not.mpr hov)
  · rw [hsent, ← h.timestamp]
    simp only [lastTimestamp, ho', hr, hs, Option.map_some]
  · rw [hsent, ← h.count]
    simp only [documentCount, ho', hr, hs, Option.map_some]
  · rw [htold, hsent]
    exact h.zero (hcounted ▸ hc)

/-- The object is read. -/
lemma Inv.reading (h : Inv w x) {a : Except ApiError AutoIndexer}
    (hy : service x .getAutoIndexer a y) : Inv w y := by
  obtain ⟨⟨hworld, ha⟩, hnote⟩ := hy
  have hgot : y.2.told.got = a :: x.2.told.got := by rw [hnote]; rfl
  have hsent : y.2.sent = x.2.sent := by rw [hnote]; rfl
  have hcounted : y.2.counted = x.2.counted := by rw [hnote]; exact Bool.or_false _
  have htold : y.2.told.counted = x.2.told.counted := by rw [hnote]; rfl
  refine ⟨fun r rest hr o ho _ => ?_, ?_, ?_, ?_⟩
  · rw [hgot] at hr
    rw [hworld] at ho
    rcases ha with ha | ⟨-, m, ha⟩
    · cases hr
      simp only [System.readAutoIndexer, ho] at ha
      cases ha
      rfl
    · rw [ha] at hr
      cases hr
  · rw [hworld, hsent]
    exact h.timestamp
  · rw [hworld, hsent]
    exact h.count
  · rw [hcounted, htold, hsent]
    exact h.zero

/-- A request to the engine. -/
lemma Inv.asking (h : Inv w x) {t : Rag.Target} {q : Rag.Request} {a : Rag.Response q}
    (hy : service x (.rag t q) a y) : Inv w y := by
  obtain ⟨⟨s, -, hworld⟩, hnote⟩ := hy
  refine h.keep ?_ ?_ ?_ fun hc => ?_
  · rw [hworld]
    unfold System.putStore
    split <;> rfl
  · rw [hnote]
    exact JobSteps.hear_got (by simp) _
  · rw [hnote]
    rfl
  · rw [hnote] at hc ⊢
    obtain ⟨hc, ha⟩ := Bool.or_eq_false_iff.mp hc
    exact ⟨hc, fun h0 => counted_hear ha h0⟩

/-- Every call of a run keeps the invariant. -/
lemma Inv.step {c : JobCall} {a : JobAnswer c} (hl : Lawful x.2.told c) (h : Inv w x)
    (hy : service x c a y) : Inv w y := by
  have hother : y.1 = x.1 → (JobSteps.hear x.2.told c a).got = x.2.told.got →
      answered c a = false → (note x.2 c a).sent = x.2.sent → Inv w y := by
    intro hworld hgot ha hsent
    refine h.keep (by rw [hworld]) (by rw [hy.2]; exact hgot) (by rw [hy.2, hsent]) fun hc => ?_
    rw [hy.2] at hc ⊢
    exact ⟨(Bool.or_eq_false_iff.mp hc).1, fun h0 => counted_hear ha h0⟩
  match c with
  | .now => exact hother hy.1.2 rfl rfl rfl
  | .kusto q => exact hother hy.1 rfl rfl rfl
  | .fetch u => exact hother hy.1 rfl rfl rfl
  | .getAutoIndexer => exact h.reading hy
  | .rag t q => exact h.asking hy
  | .patchStatus body =>
    cases a with
    | error e =>
      refine hother ?_ rfl rfl rfl
      rcases hy.1 with hs | ⟨-, hs, -⟩
      · unfold System.patchJobStatus at hs
        split at hs
        · split at hs
          · exact congrArg Prod.snd hs
          · cases hs
        · exact congrArg Prod.snd hs
      · exact hs
    | ok a =>
      cases hl with
      | condition hn hr _ => exact h.condition hr hn hy
      | base hn hr hu =>
        refine h.send hr (by omega) ?_ hy
        simp [StatusUpdate.apply, hu.count]
      | completion _ hn hr hu =>
        refine h.send hr (by omega) ?_ hy
        simp [StatusUpdate.apply, hu.count]

/-! ### A run -/

/-- A run ends with the invariant, and returns True exactly when nothing has gone wrong. -/
lemma run_inv (r : Git.Remote) {o : AutoIndexer} {h : Handler}
    (hh : createDataSourceHandler o = some h) (w : World) :
    Runs service (fun success x => (success = true ↔ Fine r x.2.log h) ∧ Inv w x) (Job.run r h)
      (w, started o) := by
  have hb : Begun o (started o).told := ⟨rfl, rfl⟩
  have hinv : Runs service (fun _ x => Inv w x) (Job.run r h) (w, started o) :=
    ((run_steps r (target_of_create hh) hb).noted_keeps (f := Notes.told) (J := Inv w)
      (fun _ _ _ => rfl) (fun _ _ _ _ hl hx hy => hx.step hl hy) (inv_started w o)).mono
      fun _ _ h => h.2
  have hfine : Runs service (fun success x => success = true ↔ Fine r x.2.log h) (Job.run r h)
      (w, started o) :=
    ((run_hears r h).noted_keeps (f := Notes.log) (J := fun _ => True) (fun _ _ _ => rfl)
      (fun _ _ _ _ _ _ _ => trivial) trivial).mono fun _ _ h => h.1
  exact hfine.and hinv

/-- **A run in which every count has failed leaves the recorded count alone** exactly when that
is `0`, or the API server has accepted no status update of the run. -/
theorem count_kept_iff (r : Git.Remote) (o : AutoIndexer) (h : Handler)
    (hh : createDataSourceHandler o = some h) (w : World) :
    Runs service (fun _ x => x.2.counted = false → (documentCount x.1 = documentCount w ↔
      x.2.sent = none ∨ documentCount w = some 0)) (Job.run r h) (w, started o) := by
  refine (run_inv r hh w).mono ?_
  rintro - x ⟨-, hinv⟩ hcounted
  rw [hinv.count]
  cases hs : x.2.sent with
  | none => simp
  | some s =>
    rw [Option.elim_some, ((hinv.zero hcounted).2 s hs)]
    simp [eq_comm]

/-! ### A sequence of runs -/

/-- A run of a job. -/
structure Turn where
  made : AutoIndexer
  handler : Handler
  remote : Git.Remote
  before : World
  success : Bool
  after : World
  notes : Notes
  isMade : createDataSourceHandler made = some handler
  ends : Ends service (Job.run remote handler) (before, started made) success (after, notes)

/-- Nothing has gone wrong in the run, or no status update was accepted that would move the
timestamp. -/
def Turn.Quiet (t : Turn) : Prop :=
  Fine t.remote t.notes.log t.handler ∨
    ∀ s, t.notes.sent = some s → lastTimestamp t.before = some s.lastIndexingTimestamp

/-- Runs one after the other, the last one first. Others leave the timestamp alone. -/
inductive Sequence (w : World) : List Turn → World → Prop
  | start : Sequence w [] w
  | run {l : List Turn} (t : Turn) (h : Sequence w l t.before) : Sequence w (t :: l) t.after
  | others {l : List Turn} {v v' : World} (h : Sequence w l v)
      (hv : lastTimestamp v' = lastTimestamp v) : Sequence w l v'

/-- The timestamp that the last successful run has left, `first` before there was one. -/
def named (first : Option (Option Time)) : List Turn → Option (Option Time)
  | [] => first
  | t :: l => if t.success then lastTimestamp t.after else named first l

lemma Turn.keeps_iff (t : Turn) :
    t.success = true ∨ lastTimestamp t.after = lastTimestamp t.before ↔ t.Quiet := by
  obtain ⟨hfine, hinv⟩ := (run_inv t.remote t.isMade t.before).ends t.ends
  have htimestamp := hinv.timestamp
  unfold Turn.Quiet
  rw [← hfine]
  refine or_congr Iff.rfl ?_
  dsimp only at htimestamp
  rw [htimestamp]
  cases t.notes.sent with
  | none => simp
  | some s => simp [eq_comm]

lemma Sequence.named {w v : World} {l : List Turn} (h : Sequence w l v) (hl : ∀ t ∈ l, t.Quiet) :
    lastTimestamp v = StatusUpdates.named (lastTimestamp w) l := by
  induction h with
  | start => rfl
  | run t _ ih =>
    unfold StatusUpdates.named
    split
    · rfl
    · rename_i hs
      rw [← ih fun t' ht' => hl t' (List.mem_cons_of_mem _ ht')]
      exact (t.keeps_iff.mpr (hl t List.mem_cons_self)).resolve_left hs
  | others _ hv ih => rw [hv, ih hl]

/-- **The timestamp changes only in runs that return True**, in a sequence of runs of any data
sources, exactly when each run is quiet; it then names the last successful run. -/
theorem timestamp_names_success {w v : World} {l : List Turn} (h : Sequence w l v) :
    ((∀ t ∈ l, t.success = true ∨ lastTimestamp t.after = lastTimestamp t.before) ↔
      ∀ t ∈ l, t.Quiet) ∧
    ((∀ t ∈ l, t.Quiet) → lastTimestamp v = named (lastTimestamp w) l) :=
  ⟨forall₂_congr fun t _ => t.keeps_iff, h.named⟩

/-! ### An engine that is out, and a URL that cannot be fetched -/

def page : String := "https://example.com/a.md"

/-- `demo` with URLs as its source, after a run that counted `n` documents. -/
def urlDemo (urls : List String) (n : ℕ) : AutoIndexer :=
  { demo with
    spec := { demo.spec with dataSource := ⟨.static, none, some ⟨urls⟩, none⟩ }
    status := { demo.status with lastIndexingTimestamp := some 7, numOfDocumentInIndex := n } }

def urlWorld (urls : List String) (n : ℕ) : World := { demoWorld with stored := some (urlDemo urls n) }

def urlHandler (urls : List String) (n : ℕ) : Handler := .static (staticHandler (urlDemo urls n) ⟨urls⟩)

lemma createDataSourceHandler_urlDemo (urls : List String) (n : ℕ) :
    createDataSourceHandler (urlDemo urls n) = some (urlHandler urls n) := by
  simp [createDataSourceHandler, urlDemo, demo, urlHandler]

/-- Every request to the RAG engine fails, and URLs are fetched. -/
def outage (w : World) : (c : JobCall) → JobAnswer c × World
  | .rag _ (.indexDocuments _) => (.error "unavailable", w)
  | .rag _ (.updateDocuments _) => (.error "unavailable", w)
  | .rag _ (.listDocuments _ _) => (.error "unavailable", w)
  | c => fetched w c

lemma putStore_self (w : World) (endpoint name : String) :
    System.putStore w endpoint name (w.store endpoint name) = w := if_pos rfl

lemma jobServes_outage (w : World) (c : JobCall) : JobServes True w c (outage w c).1 (outage w c).2 := by
  match c with
  | .rag t (.indexDocuments docs) => exact ⟨_, ⟨trivial, .inl rfl⟩, (putStore_self w _ _).symm⟩
  | .rag t (.updateDocuments docs) => exact ⟨_, ⟨trivial, .inl rfl⟩, (putStore_self w _ _).symm⟩
  | .rag t (.listDocuments f n) => exact ⟨_, ⟨trivial, rfl⟩, (putStore_self w _ _).symm⟩
  | .now => exact jobServes_fetched True w .now
  | .getAutoIndexer => exact jobServes_fetched True w .getAutoIndexer
  | .patchStatus body => exact jobServes_fetched True w (.patchStatus body)
  | .kusto q => exact jobServes_fetched True w (.kusto q)
  | .fetch u => exact jobServes_fetched True w (.fetch u)

/-- The answers of a service, with what they add to the notes. -/
def answer (serve : World → (c : JobCall) → JobAnswer c × World) (x : World × Notes) (c : JobCall) :
    JobAnswer c × World × Notes :=
  ((serve x.1 c).1, (serve x.1 c).2, note x.2 c (serve x.1 c).1)

lemma service_answer {serve : World → (c : JobCall) → JobAnswer c × World}
    (hs : ∀ w c, JobServes True w c (serve w c).1 (serve w c).2) (x : World × Notes) (c : JobCall) :
    service x c (answer serve x c).1 (answer serve x c).2 := ⟨hs x.1 c, rfl⟩

/-- A run over `urls` after which the world is as `serve` leaves it. -/
def urlRun (serve : World → (c : JobCall) → JobAnswer c × World) (urls : List String) (n : ℕ) :
    Bool × World × Notes :=
  (Job.run (demoRemote []) (urlHandler urls n)).exec (answer serve)
    (urlWorld urls n, started (urlDemo urls n))

theorem count_kept_demo : documentCount (urlRun outage [page] 0).2.1 = some 0 := by
  have h := (count_kept_iff (demoRemote []) (urlDemo [page] 0) (urlHandler [page] 0)
    (createDataSourceHandler_urlDemo [page] 0) (urlWorld [page] 0)).exec (service_answer jobServes_outage)
  exact (h (by decide)).mpr (.inr rfl)

/-- The engine is out while five documents are recorded, and none is afterwards. -/
theorem not_count_kept :
    ¬ ∀ (r : Git.Remote) (o : AutoIndexer) (h : Handler), createDataSourceHandler o = some h →
      ∀ w, Runs service (fun _ x => x.2.counted = false → documentCount x.1 = documentCount w)
        (Job.run r h) (w, started o) := by
  intro h
  have h1 := (h (demoRemote []) (urlDemo [page] 5) (urlHandler [page] 5)
    (createDataSourceHandler_urlDemo [page] 5) (urlWorld [page] 5)).exec (service_answer jobServes_outage)
  exact absurd (h1 (by decide)) (by decide)

variable {serve : World → (c : JobCall) → JobAnswer c × World}

/-- The run over the page as a turn. -/
def pageTurn (hs : ∀ w c, JobServes True w c (serve w c).1 (serve w c).2) : Turn where
  made := urlDemo [page] 5
  handler := urlHandler [page] 5
  remote := demoRemote []
  before := urlWorld [page] 5
  success := (urlRun serve [page] 5).1
  after := (urlRun serve [page] 5).2.1
  notes := (urlRun serve [page] 5).2.2
  isMade := createDataSourceHandler_urlDemo [page] 5
  ends := Ends.exec _ _ (service_answer hs)

lemma sequence_pageTurn (hs : ∀ w c, JobServes True w c (serve w c).1 (serve w c).2) :
    Sequence (urlWorld [page] 5) [pageTurn hs] (pageTurn hs).after := .run (pageTurn hs) .start

/-- The page is fetched and indexed. -/
def fetchedTurn : Turn := pageTurn (jobServes_fetched True)

theorem timestamp_names_demo : lastTimestamp fetchedTurn.after = some (some 1000000) := by
  have h := timestamp_names_success (sequence_pageTurn (jobServes_fetched True))
  have hquiet : ∀ t ∈ [fetchedTurn], t.Quiet := by
    refine h.1.mp fun t ht => ?_
    obtain rfl := List.mem_singleton.mp ht
    exact .inl (by decide)
  have hnamed := h.2 hquiet
  rw [fetchedTurn, hnamed]
  decide

/-- The URL cannot be fetched: the run fails, and moves the timestamp. -/
theorem not_timestamp_names_success :
    ¬ ∀ (w v : World) (l : List Turn), Sequence w l v →
      ∀ t ∈ l, t.success = true ∨ lastTimestamp t.after = lastTimestamp t.before := by
  intro h
  have h1 := h _ _ _ (sequence_pageTurn (jobServes_jobServe True)) _ List.mem_cons_self
  exact absurd h1 (by decide)

end KaitoAutoIndexer.StatusUpdates
