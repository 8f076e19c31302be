import KaitoAutoIndexer.System
import KaitoAutoIndexer.ControllerSteps
import KaitoAutoIndexer.DetectorSteps
import KaitoAutoIndexer.JobSteps

/-!
Runs of the whole system: what the three programs may do next, and what an event makes of the
stored object.
-/

namespace KaitoAutoIndexer.SystemSteps

open KaitoAutoIndexer.Lib KaitoAutoIndexer.Types
open KaitoAutoIndexer.Cluster KaitoAutoIndexer.Controller KaitoAutoIndexer.JobClient
open KaitoAutoIndexer.System
open KaitoAutoIndexer.ControllerCalls (SameButConditions resetStatus resetStatus_annotations)
open KaitoAutoIndexer.ControllerSteps (Knows note fresh reconcile_steps phase_of_worked PhaseStep
  Worked)
open KaitoAutoIndexer.DetectorSteps (Seen look unseen performDriftCheck_steps)
open KaitoAutoIndexer.JobSteps (Told hear untold main_steps)

/-! ### What the programs are told -/

abbrev Know : Actor → Type
  | .controller => Knows
  | .detector => Seen
  | .job => Told

/-- Every program does what is lawful for what it has been told. -/
abbrev account : System.Account system where
  Know := Know
  fresh
    | .controller => fresh
    | .detector => unseen
    | .job => untold
  note
    | .controller => note
    | .detector => look
    | .job => hear
  lawful
    | .controller => ControllerSteps.Lawful
    | .detector => DetectorSteps.Lawful
    | .job => JobSteps.Lawful
  ends
    | .controller => ControllerSteps.Ends
    | .detector => fun _ _ => True
    | .job => JobSteps.Finishes
  tells
    | .controller, _, hp => by
      cases hp
      exact reconcile_steps
    | .detector, _, hp => by
      cases hp
      exact performDriftCheck_steps
    | .job, _, hp => by
      obtain ⟨r, rfl⟩ := hp
      exact main_steps r

/-- No program is in flight. -/
def Quiet {G : Type} (s : System.Config system G) : Prop := ∀ i, s.threads i = none

/-! ### The stored object under an event -/

/-- The object after an update, before it is accepted. -/
def replaced (o obj : AutoIndexer) : AutoIndexer :=
  { o with finalizers := obj.finalizers, annotations := obj.annotations, spec := obj.spec }

/-- What an accepted write of the controller or the detector makes of the stored object. -/
inductive Written (o : AutoIndexer) : (c : Call) → Answer c → Option AutoIndexer → Prop
  | patch {a b : AutoIndexer} : Written o (.patch a b) (.ok (accept o (mergeMain a b o)))
      (some (accept o (mergeMain a b o)))
  | patchStatus {a b : AutoIndexer}
      (h : a.resourceVersion = b.resourceVersion ∨ o.resourceVersion = b.resourceVersion) :
      Written o (.patchStatus a b) (.ok ())
        (some (accept o (o.withStatus (mergeStatus a.status b.status o.status))))
  | update {obj : AutoIndexer} (h : o.resourceVersion = obj.resourceVersion)
      (hk : ¬ (o.deleting = true ∧ obj.finalizers = [])) :
      Written o (.update obj) (.ok ()) (some (accept o (replaced o obj)))
  | remove {obj : AutoIndexer} (h : o.resourceVersion = obj.resourceVersion)
      (hd : o.deleting = true) (hf : obj.finalizers = []) : Written o (.update obj) (.ok ()) none

/-- The answer says that a write of the object was accepted. -/
def accepted : (c : Call) → Answer c → Bool
  | .patch _ _, .ok _ => true
  | .patchStatus _ _, .ok _ => true
  | .update _, .ok _ => true
  | _, _ => false

lemma stored_of_serve (w : World) (c : Call) :
    ((serve w c).2.stored = w.stored ∧ accepted c (serve w c).1 = false) ∨
      ∃ o, w.stored = some o ∧ Written o c (serve w c).1 (serve w c).2.stored := by
  cases c with
  | patch a b =>
    simp only [serve]
    split
    · rename_i o ho
      exact .inr ⟨o, ho, .patch⟩
    · exact .inl ⟨rfl, rfl⟩
  | patchStatus a b =>
    simp only [serve]
    split
    · rename_i o ho
      split
      · exact .inl ⟨rfl, rfl⟩
      · rename_i h
        exact .inr ⟨o, ho, .patchStatus (by tauto)⟩
    · exact .inl ⟨rfl, rfl⟩
  | update obj =>
    simp only [serve]
    split
    · rename_i o ho
      split
      · exact .inl ⟨rfl, rfl⟩
      · rename_i h
        have h := not_not.mp h
        split
        · rename_i hd
          exact .inr ⟨o, ho, .remove h hd.1 hd.2⟩
        · rename_i hd
          exact .inr ⟨o, ho, .update h hd⟩
    · exact .inl ⟨rfl, rfl⟩
  | _ => exact .inl ⟨by simp only [serve] <;> (repeat' split) <;> rfl, rfl⟩

lemma stored_of_serves {w w' : World} {c : Call} {r : Answer c} (h : Serves True w c r w') :
    (w'.stored = w.stored ∧ accepted c r = false) ∨
      ∃ o, w.stored = some o ∧ Written o c r w'.stored := by
  rcases h with h | ⟨-, hf, rfl | ⟨⟨e, i, rfl⟩, rfl⟩⟩
  · obtain ⟨rfl, rfl⟩ : r = (serve w c).1 ∧ w' = (serve w c).2 := by
      exact ⟨congrArg Prod.fst h, congrArg Prod.snd h⟩
    exact stored_of_serve w c
  · refine .inl ⟨rfl, ?_⟩
    cases c <;> first | rfl | (obtain ⟨m, rfl⟩ := hf; rfl)
  · left
    simp only [serve]
    split <;> exact ⟨rfl, rfl⟩

/-- Only accepted writes change the stored object. -/
lemma stored_of_not_accepted {w w' : World} {c : Call} {r : Answer c} (h : Serves True w c r w')
    (ha : accepted c r = false) : w'.stored = w.stored := by
  rcases stored_of_serves h with ⟨hs, -⟩ | ⟨o, -, hw⟩
  · exact hs
  · generalize w'.stored = s at hw
    cases hw <;> cases ha

/-- What an accepted write of the job makes of it. -/
inductive JobWritten (o : AutoIndexer) : (c : JobCall) → JobAnswer c → Option AutoIndexer → Prop
  | patchStatus {body : AutoIndexer} (h : o.resourceVersion = body.resourceVersion) :
      JobWritten o (.patchStatus body) (.ok ()) (some (accept o (o.withStatus body.status)))

def jobAccepted : (c : JobCall) → JobAnswer c → Bool
  | .patchStatus _, .ok _ => true
  | _, _ => false

lemma stored_of_jobServes {w w' : World} {c : JobCall} {r : JobAnswer c}
    (h : JobServes True w c r w') :
    (w'.stored = w.stored ∧ jobAccepted c r = false) ∨ ∃ o, w.stored = some o ∧ JobWritten o c r w'.stored := by
  cases c with
  | now =>
    obtain ⟨-, rfl⟩ := h
    exact .inl ⟨rfl, rfl⟩
  | getAutoIndexer =>
    obtain ⟨rfl, -⟩ := h
    exact .inl ⟨rfl, rfl⟩
  | patchStatus body =>
    rcases h with h | ⟨-, rfl, m, rfl⟩
    · unfold patchJobStatus at h
      split at h
      · rename_i o ho
        split at h
        · cases h
          exact .inl ⟨rfl, rfl⟩
        · rename_i hv
          cases h
          exact .inr ⟨o, ho, .patchStatus (not_not.mp hv)⟩
      · cases h
        exact .inl ⟨rfl, rfl⟩
    · exact .inl ⟨rfl, rfl⟩
  | rag t q =>
    obtain ⟨s, -, rfl⟩ := h
    left
    unfold putStore
    split <;> exact ⟨rfl, rfl⟩
  | kusto q =>
    obtain rfl : w' = w := h
    exact .inl ⟨rfl, rfl⟩
  | fetch u =>
    obtain rfl : w' = w := h
    exact .inl ⟨rfl, rfl⟩

/-- An act of others makes nothing of it but an edit or a deletion. -/
lemma stored_of_env {w w' : World} {a : Act} (h : Env a w w') :
    w'.stored = w.stored ∨ ∃ o, w.stored = some o ∧
      ((∃ spec, a = .edits spec ∧ w'.stored = some (accept o (o.withSpec spec))) ∨
        a = .deletes ∧ w'.stored = deleted o w.clock) := by
  cases h with
  | fires => exact .inl rfl
  | moves => exact .inl rfl
  | gone => exact .inl rfl
  | edits h => exact .inr ⟨_, h, .inl ⟨_, rfl, rfl⟩⟩
  | deletes h => exact .inr ⟨_, h, .inr ⟨rfl, rfl⟩⟩
  | passes => exact .inl rfl
  | others => exact .inl rfl

/-! ### The object grows older -/

/-- `o'` is `o`, or what became of it. -/
structure Later (o o' : AutoIndexer) : Prop where
  version : o' = o ∨ o.resourceVersion < o'.resourceVersion
  deleting : o.deleting = true → o'.deleting = true
  name : o'.name = o.name
  namespace_ : o'.namespace_ = o.namespace_

lemma Later.refl (o : AutoIndexer) : Later o o := ⟨.inl rfl, fun h => h, rfl, rfl⟩

lemma Later.trans {a b c : AutoIndexer} (h : Later a b) (h' : Later b c) : Later a c := by
  refine ⟨?_, fun hd => h'.deleting (h.deleting hd), h'.name.trans h.name,
    h'.namespace_.trans h.namespace_⟩
  rcases h.version with rfl | h1
  · exact h'.version
  · rcases h'.version with rfl | h2
    · exact .inr h1
    · exact .inr (h1.trans h2)

lemma later_accept {o n : AutoIndexer} (hd : o.deleting = true → n.deleting = true)
    (hn : n.name = o.name) (hns : n.namespace_ = o.namespace_) : Later o (accept o n) := by
  refine ⟨accept_resourceVersion o n, fun h => ?_, by simpa using hn, by simpa using hns⟩
  simpa [AutoIndexer.deleting] using hd h

lemma Written.later {o o' : AutoIndexer} {c : Call} {r : Answer c}
    (h : Written o c r (some o')) : Later o o' := by
  generalize hs : some o' = s at h
  cases h with
  | patch =>
    cases hs
    exact later_accept (fun h => h) rfl rfl
  | patchStatus =>
    cases hs
    exact later_accept (fun h => h) rfl rfl
  | update =>
    cases hs
    exact later_accept (fun h => h) rfl rfl
  | remove => cases hs

lemma JobWritten.later {o o' : AutoIndexer} {c : JobCall} {r : JobAnswer c}
    (h : JobWritten o c r (some o')) : Later o o' := by
  generalize hs : some o' = s at h
  cases h
  cases hs
  exact later_accept (fun h => h) rfl rfl

lemma later_deleted {o o' : AutoIndexer} {t : Time} (h : deleted o t = some o') : Later o o' := by
  unfold deleted at h
  split at h
  · cases h
  · cases h
    refine later_accept (fun h => ?_) rfl rfl
    simp only [AutoIndexer.deleting] at h ⊢
    cases hd : o.deletionTimestamp <;> simp_all

/-- Whatever happens, a stored object is a later one of what was stored. -/
lemma later_of_happens {w w' : World} {e : system.Event} (h : system.Happens w e w')
    {o' : AutoIndexer} (ho' : w'.stored = some o') : ∃ o, w.stored = some o ∧ Later o o' := by
  have hsame : w'.stored = w.stored → ∃ o, w.stored = some o ∧ Later o o' :=
    fun hw => ⟨o', hw ▸ ho', .refl _⟩
  have hserves : ∀ {c : Call} {r : Answer c}, Serves True w c r w' →
      ∃ o, w.stored = some o ∧ Later o o' := by
    intro c r h
    rcases stored_of_serves h with ⟨hw, -⟩ | ⟨o, ho, hw⟩
    · exact hsame hw
    · rw [ho'] at hw
      exact ⟨o, ho, hw.later⟩
  match e with
  | .begin i => exact hsame (congrArg World.stored h)
  | .finish i a => exact hsame (congrArg World.stored h)
  | .crash i => exact hsame (congrArg World.stored h)
  | .call .controller c r => exact hserves h
  | .call .detector c r => exact hserves h
  | .call .job c r =>
    rcases stored_of_jobServes h with ⟨hw, -⟩ | ⟨o, ho, hw⟩
    · exact hsame hw
    · rw [ho'] at hw
      exact ⟨o, ho, hw.later⟩
  | .act a =>
    rcases stored_of_env h with hw | ⟨o, ho, ⟨spec, -, hw⟩ | ⟨-, hw⟩⟩
    · exact hsame hw
    · refine ⟨o, ho, ?_⟩
      rw [ho'] at hw
      cases hw
      exact later_accept (fun h => h) rfl rfl
    · rw [ho'] at hw
      exact ⟨o, ho, later_deleted hw.symm⟩

/-! ### What was read is not newer than what is stored -/

/-- The notes mention the object. -/
def Mentions (k : account.Notes) (x : AutoIndexer) : Prop :=
  ((k .controller : Knows).got = some x ∨ (k .controller : Knows).read = some x ∨
      (k .controller : Knows).base = some x) ∨
    x ∈ (k .detector : Seen).listed ∨
    (k .job : Told).made = some x ∨ .ok x ∈ (k .job : Told).got

/-- The object was stored once. -/
def Snapshot (x : AutoIndexer) (w : World) : Prop := ∀ o, w.stored = some o → Later x o

/-- An object that the controller or the detector is given is the one stored. -/
inductive Gives (o : AutoIndexer) : (c : Call) → Answer c → Prop
  | get : Gives o .get (.ok o)
  | patch {a b : AutoIndexer} : Gives o (.patch a b) (.ok o)
  | list {os : List AutoIndexer} (h : o ∈ os) : Gives o .list (.ok os)

lemma stored_of_gives {w w' : World} {c : Call} {r : Answer c} (h : Serves True w c r w')
    {x : AutoIndexer} (hx : Gives x c r) : w'.stored = some x := by
  cases hx with
  | get =>
    rcases h with h | ⟨-, ⟨m, hm⟩, -⟩
    · simp only [serve] at h
      split at h
      · cases h
        assumption
      · cases h
    · cases hm
  | patch =>
    rcases h with h | ⟨-, ⟨m, hm⟩, -⟩
    · simp only [serve] at h
      split at h
      · cases h
        rfl
      · cases h
    · cases hm
  | list hx =>
    rcases h with h | ⟨-, ⟨m, hm⟩, -⟩
    · cases h
      simpa using hx
    · cases hm

/-- A field of what the controller knows that holds an object it was given. -/
def Recalls (f : Knows → Option AutoIndexer) : Prop :=
  f = Knows.got ∨ f = Knows.read ∨ f = Knows.base

lemma recalls_note {f : Knows → Option AutoIndexer} (hf : Recalls f) {g : Knows} {c : Call}
    {r : Answer c} {x : AutoIndexer} (h : f (note g c r) = some x) :
    f g = some x ∨ Gives x c r := by
  unfold note at h
  split at h
  · right
    obtain rfl : _ = x := by rcases hf with rfl | rfl | rfl <;> simpa using h
    exact .get
  · split at h
    · rcases hf with rfl | rfl | rfl
      · exact .inl h
      · cases h
        exact .inr .patch
      · exact .inl h
    · rcases hf with rfl | rfl | rfl
      · exact .inl h
      · cases h
        exact .inr .patch
      · cases h
        exact .inr .patch
  all_goals rcases hf with rfl | rfl | rfl <;> exact .inl h

lemma mentions_note {g : Knows} {c : Call} {r : Answer c} {x : AutoIndexer}
    (h : (note g c r).got = some x ∨ (note g c r).read = some x ∨ (note g c r).base = some x) :
    (g.got = some x ∨ g.read = some x ∨ g.base = some x) ∨ Gives x c r := by
  rcases h with h | h | h
  · exact (recalls_note (.inl rfl) h).imp_left .inl
  · exact (recalls_note (.inr (.inl rfl)) h).imp_left fun h => .inr (.inl h)
  · exact (recalls_note (.inr (.inr rfl)) h).imp_left fun h => .inr (.inr h)

lemma mentions_look {g : Seen} {c : Call} {r : Answer c} {x : AutoIndexer}
    (h : x ∈ (look g c r).listed) : x ∈ g.listed ∨ Gives x c r := by
  unfold look at h
  split at h
  · exact .inr (.list h)
  · exact .inl h
  · exact .inl h

lemma mentions_hear {w w' : World} {g : Told} {c : JobCall} {r : JobAnswer c}
    (hs : JobServes True w c r w') {x : AutoIndexer}
    (h : (hear g c r).made = some x ∨ .ok x ∈ (hear g c r).got) :
    (g.made = some x ∨ .ok x ∈ g.got) ∨ w'.stored = some x := by
  unfold hear at h
  split at h
  · rename_i r
    have hstored : r = .ok x → w'.stored = some x := by
      rintro rfl
      obtain ⟨rfl, hr | ⟨-, m, hr⟩⟩ := hs
      · unfold readAutoIndexer at hr
        split at hr
        · cases hr
          assumption
        · cases hr
      · cases hr
    have hmade : (g.made <|> r.toOption) = some x → g.made = some x ∨ r = .ok x := by
      cases g.made with
      | some o => exact fun h => .inl h
      | none =>
        intro h
        cases r with
        | ok o =>
          obtain rfl : o = x := by simpa [Except.toOption] using h
          exact .inr rfl
        | error e => cases h
    rcases h with h | h
    · rcases hmade h with h | h
      · exact .inl (.inl h)
      · exact .inr (hstored h)
    · rcases List.mem_cons.mp h with h | h
      · exact .inr (hstored h.symm)
      · exact .inl (.inr h)
  all_goals exact .inl h

/-- What the controller is given anew is what is stored. -/
lemma recalls_watch {f : Knows → Option AutoIndexer} (hf : Recalls f) {w w' : World}
    {k : account.Notes} {e : system.Event} (h : system.Happens w e w') {x : AutoIndexer}
    (hx : f (account.watch k e .controller) = some x) :
    f (k .controller) = some x ∨ w'.stored = some x := by
  match e with
  | .begin .controller =>
    rw [System.Account.watch_begin] at hx
    rcases hf with rfl | rfl | rfl <;> simp [fresh] at hx
  | .begin .detector => exact .inl hx
  | .begin .job => exact .inl hx
  | .call .controller c r =>
    rw [System.Account.watch_self] at hx
    exact (recalls_note hf hx).imp_right (stored_of_gives h)
  | .call .detector c r => exact .inl hx
  | .call .job c r => exact .inl hx
  | .finish i a => exact .inl hx
  | .crash i => exact .inl hx
  | .act a => exact .inl hx

/-- What is new in the notes is what is stored. -/
lemma mentions_watch {w w' : World} {k : account.Notes} {e : system.Event}
    (h : system.Happens w e w') {x : AutoIndexer} (hx : Mentions (account.watch k e) x) :
    Mentions k x ∨ w'.stored = some x := by
  match e with
  | .begin .controller =>
    rcases hx with hx | hx
    · simp [fresh] at hx
    · exact .inl (.inr hx)
  | .begin .detector =>
    rcases hx with hx | hx | hx
    · exact .inl (.inl hx)
    · simp [unseen] at hx
    · exact .inl (.inr (.inr hx))
  | .begin .job =>
    rcases hx with hx | hx | hx
    · exact .inl (.inl hx)
    · exact .inl (.inr (.inl hx))
    · simp [untold] at hx
  | .call .controller c r =>
    rcases hx with hx | hx
    · rw [System.Account.watch_self] at hx
      rcases mentions_note hx with hx | hx
      · exact .inl (.inl hx)
      · exact .inr (stored_of_gives h hx)
    · exact .inl (.inr hx)
  | .call .detector c r =>
    rcases hx with hx | hx | hx
    · exact .inl (.inl hx)
    · rw [System.Account.watch_self] at hx
      rcases mentions_look hx with hx | hx
      · exact .inl (.inr (.inl hx))
      · exact .inr (stored_of_gives h hx)
    · exact .inl (.inr (.inr hx))
  | .call .job c r =>
    rcases hx with hx | hx | hx
    · exact .inl (.inl hx)
    · exact .inl (.inr (.inl hx))
    · rw [System.Account.watch_self] at hx
      rcases mentions_hear h hx with hx | hx
      · exact .inl (.inr (.inr hx))
      · exact .inr hx
  | .finish i a => exact .inl hx
  | .crash i => exact .inl hx
  | .act a => exact .inl hx

/-- Whatever is mentioned was stored once. -/
def Snapshots (w : World) (k : account.Notes) : Prop := ∀ x, Mentions k x → Snapshot x w

lemma snapshots_step {w w' : World} {k : account.Notes} {e : system.Event}
    (hk : Snapshots w k) (h : system.Happens w e w') : Snapshots w' (account.watch k e) := by
  intro x hx o' ho'
  rcases mentions_watch h hx with hx | hx
  · obtain ⟨o, ho, hlater⟩ := later_of_happens h ho'
    exact (hk x hx o ho).trans hlater
  · rw [hx] at ho'
    cases ho'
    exact .refl _

/-- An object with the version that is stored is the one stored. -/
lemma Snapshot.eq {x o : AutoIndexer} {w : World} (h : Snapshot x w) (ho : w.stored = some o)
    (hv : o.resourceVersion = x.resourceVersion) : o = x := by
  rcases (h o ho).version with rfl | hlt
  · rfl
  · omega

/-- What was mentioned before an event and is stored after it was stored before it. -/
lemma eq_of_mentioned {w w' : World} {k : account.Notes} {e : system.Event} {o o' : AutoIndexer}
    (hk : Snapshots w k) (h : system.Happens w e w') (hm : Mentions k o') (ho : w.stored = some o)
    (ho' : w'.stored = some o') : o' = o := by
  obtain ⟨o1, ho1, hnew⟩ := later_of_happens h ho'
  obtain rfl := Option.some.inj (ho.symm.trans ho1)
  rcases (hk o' hm o ho).version with heq | hlt
  · exact heq.symm
  · rcases hnew.version with heq | hlt'
    · exact heq
    · omega

/-- Objects that a check has listed were listed before, or are listed now. -/
lemma listed_watch {k : account.Notes} {e : system.Event} {x : AutoIndexer}
    (hx : x ∈ (account.watch k e .detector : Seen).listed) :
    x ∈ (k .detector : Seen).listed ∨ ∃ os, e = .call .detector .list (.ok os) ∧ x ∈ os := by
  match e with
  | .begin .detector =>
    rw [System.Account.watch_begin] at hx
    cases hx
  | .begin .controller => exact .inl hx
  | .begin .job => exact .inl hx
  | .call .controller c r => exact .inl hx
  | .call .job c r => exact .inl hx
  | .finish i a => exact .inl hx
  | .crash i => exact .inl hx
  | .act a => exact .inl hx
  | .call .detector c r =>
    rw [System.Account.watch_self] at hx
    change x ∈ (look (k .detector) c r).listed at hx
    unfold look at hx
    split at hx
    · exact .inr ⟨_, rfl, hx⟩
    · exact .inl hx
    · exact .inl hx

/-- A count is known from before, or made now. -/
lemma counted_watch {k : account.Notes} {e : system.Event} {x : AutoIndexer} {n : ℕ}
    (hx : (account.watch k e .detector : Seen).Counted x (.ok n)) :
    (k .detector : Seen).Counted x (.ok n) ∨
      e = .call .detector (.httpGetDocumentCount
        (generateRAGEngineEndpoint x.spec.ragEngine x.namespace_) x.spec.indexName x.tag) (.ok n) := by
  match e with
  | .begin .detector =>
    rw [System.Account.watch_begin] at hx
    cases hx
  | .begin .controller => exact .inl hx
  | .begin .job => exact .inl hx
  | .call .controller c r => exact .inl hx
  | .call .job c r => exact .inl hx
  | .finish i a => exact .inl hx
  | .crash i => exact .inl hx
  | .act a => exact .inl hx
  | .call .detector c r =>
    rw [System.Account.watch_self] at hx
    change (look (k .detector) c r).Counted x (.ok n) at hx
    unfold look at hx
    split at hx
    · exact .inl hx
    · right
      unfold Seen.Counted at hx
      cases hx
      rfl
    · exact .inl hx

/-! ### What an event makes of the stored object -/

/-- The object with another value of `spec.suspend`. -/
def suspending (o : AutoIndexer) (b : Bool) : AutoIndexer :=
  o.withSpec { o.spec with suspend := some b }

/-- The object with another mark of its remediation. -/
def remediatedAt (o : AutoIndexer) (s : Option Stamp) : AutoIndexer :=
  { o with annotations := { o.annotations with lastDriftRemediated := s } }

/-- The object with other finalizers. -/
def finalizing (o : AutoIndexer) (fs : List String) : AutoIndexer := { o with finalizers := fs }

/-- The writes of the three programs and of the users, with their reasons and with what they
make of the stored object `o`. -/
inductive Effect (k : account.Notes) (o : AutoIndexer) : system.Event → Option AutoIndexer → Prop
  | addFinalizer {x o' : AutoIndexer} (hb : (k .controller : Knows).base = some x)
      (hx : autoIndexerFinalizer ∉ x.finalizers)
      (ho : o' = accept o (finalizing o (x.finalizers ++ [autoIndexerFinalizer]))) :
      Effect k o (.call .controller (.patch x (finalizing x (x.finalizers ++ [autoIndexerFinalizer])))
        (.ok o')) (some o')
  | suspend {x m o' : AutoIndexer} (hr : (k .controller : Knows).read = some x)
      (hb : (k .controller : Knows).base = some x) (hm : SameButConditions x m)
      (hp : x.status.indexingPhase = .driftRemediation) (hd : x.driftDetected = true)
      (ha : x.spec.driftRemediationPolicy = some .auto) (hs : x.spec.suspended = false)
      (ho : o' = accept o (suspending o true)) :
      Effect k o (.call .controller (.patch m (suspending m true)) (.ok o')) (some o')
  | resume {x m o' : AutoIndexer} (hr : (k .controller : Knows).read = some x)
      (hb : (k .controller : Knows).base = some x) (hm : SameButConditions x m)
      (hp : x.status.indexingPhase = .driftRemediation) (hd : x.driftDetected = false)
      (hi : x.spec.driftRemediationPolicy ≠ some .ignore) (hs : x.spec.suspended = true)
      (ho : o' = accept o (suspending o false)) :
      Effect k o (.call .controller (.patch m (suspending m false)) (.ok o')) (some o')
  | remediated {x m o' : AutoIndexer} {t : Time} (hr : (k .controller : Knows).read = some x)
      (hb : (k .controller : Knows).base = some x) (hm : SameButConditions x m)
      (hrem : ControllerSteps.Remediating x (k .controller : Knows).listing)
      (ht : (k .controller : Knows).clock = some t)
      (ho : o' = accept o (remediatedAt o (pick x.annotations.lastDriftRemediated
        (some (Stamp.format t)) o.annotations.lastDriftRemediated))) :
      Effect k o (.call .controller (.patch (resetStatus m)
        (remediatedAt (resetStatus m) (some (Stamp.format t)))) (.ok o')) (some o')
  | status {x r m : AutoIndexer} (hr : (k .controller : Knows).read = some r)
      (hb : (k .controller : Knows).base = some x) (hs : (k .controller : Knows).sent = false)
      (hv : m.resourceVersion = r.resourceVersion)
      (hw : ControllerSteps.Worked (k .controller : Knows).listing x r m.status)
      (hc : x.resourceVersion = m.resourceVersion ∨ o.resourceVersion = m.resourceVersion) :
      Effect k o (.call .controller (.patchStatus x m) (.ok ()))
        (some (accept o (o.withStatus (mergeStatus x.status m.status o.status))))
  | release {o' : Option AutoIndexer} (hg : (k .controller : Knows).got = some o)
      (hd : o.deleting = true)
      (ho : o' = none ∨ o' = some (accept o (finalizing o
        (o.finalizers.filter (· ≠ autoIndexerFinalizer))))) :
      Effect k o (.call .controller (.update (finalizing o
        (o.finalizers.filter (· ≠ autoIndexerFinalizer)))) (.ok ())) o'
  | mark {t : Time} {n : ℕ} (ho : o ∈ (k .detector : Seen).listed) (hs : ¬ DetectorSteps.Skipped o)
      (hc : (k .detector : Seen).Counted o (.ok n))
      (hn : int32 o.status.numOfDocumentInIndex ≠ int32 n) :
      Effect k o (.call .detector (.update (DetectorSteps.marked o t)) (.ok ()))
        (some (accept o (DetectorSteps.marked o t)))
  | clear (ho : o ∈ (k .detector : Seen).listed)
      (hd : o.annotations.driftDetected.getD "" ≠ "" ∧ o.annotations.driftDetected ≠ some "false")
      (hc : DetectorSteps.Skipped o ∨ (∃ m, (k .detector : Seen).Counted o (.error m)) ∨
        (k .detector : Seen).Agreed o) :
      Effect k o (.call .detector (.update (DetectorSteps.cleared o)) (.ok ()))
        (some (accept o (DetectorSteps.cleared o)))
  | drop {x : AutoIndexer} (ho : o.finalizers = []) (hd : o.deleting = true) :
      Effect k o (.call .detector (.update x) (.ok ())) none
  | job {body : AutoIndexer} (hl : JobSteps.Lawful (k .job : Told) (.patchStatus body))
      (hv : o.resourceVersion = body.resourceVersion) :
      Effect k o (.call .job (.patchStatus body) (.ok ())) (some (accept o (o.withStatus body.status)))
  | edits {spec : Spec} : Effect k o (.act (.edits spec)) (some (accept o (o.withSpec spec)))
  | deletes {t : Time} : Effect k o (.act .deletes) (deleted o t)

private lemma suspended_ne {x : AutoIndexer} {b : Bool} (h : x.spec.suspended = !b) :
    x.spec.suspend ≠ some b := by
  intro hs
  cases b <;> simp [Spec.suspended, hs] at h

lemma mergeMain_suspending {x m o : AutoIndexer} {b : Bool} (hm : SameButConditions x m)
    (hs : x.spec.suspended = !b) : mergeMain m (suspending m b) o = suspending o b := by
  obtain ⟨cs, -, rfl⟩ := hm
  have hne : x.spec.suspend ≠ some b := suspended_ne hs
  simp [mergeMain, suspending, mergeSpec, mergeAnnotations, AutoIndexer.withSpec,
    AutoIndexer.withStatus, pick, hne]

lemma mergeMain_remediatedAt {a o : AutoIndexer} {s : Option Stamp} :
    mergeMain a (remediatedAt a s) o =
      remediatedAt o (pick a.annotations.lastDriftRemediated s o.annotations.lastDriftRemediated) := by
  simp [mergeMain, remediatedAt, mergeSpec, mergeAnnotations]

lemma mergeMain_finalizing {a o : AutoIndexer} {f : String} :
    mergeMain a (finalizing a (a.finalizers ++ [f])) o = finalizing o (a.finalizers ++ [f]) := by
  simp [mergeMain, finalizing, mergeSpec, mergeAnnotations, pick]

lemma effect_of_controller {w w' : World} {k : account.Notes} {o : AutoIndexer} {c : Call}
    {r : Answer c} (hk : Snapshots w k) (ho : w.stored = some o)
    (hl : ControllerSteps.Lawful (k .controller) c) (hw : Written o c r w'.stored) :
    Effect k o (.call .controller c r) w'.stored := by
  generalize hs : w'.stored = s at hw
  clear hs
  cases hl with
  | plain h => cases hw <;> exact h.elim
  | get => cases hw
  | @addFinalizer x _ hb _ hx =>
    cases hw
    exact .addFinalizer hb hx (congrArg _ mergeMain_finalizing)
  | @suspend x m hr hb _ hm hp hd ha hs =>
    cases hw
    exact .suspend hr hb hm hp hd ha hs (congrArg _ (mergeMain_suspending hm hs))
  | @resume x m hr hb _ hm hp hd hi hs =>
    cases hw
    exact .resume hr hb hm hp hd hi hs (congrArg _ (mergeMain_suspending hm hs))
  | @mark x m t hr hb _ hm hrem ht =>
    have hmark : (resetStatus m).annotations.lastDriftRemediated =
        x.annotations.lastDriftRemediated := by
      rw [resetStatus_annotations]
      obtain ⟨cs, -, rfl⟩ := hm
      rfl
    have hsame : { resetStatus m with
        annotations := { m.annotations with lastDriftRemediated := some (Stamp.format t) } } =
        remediatedAt (resetStatus m) (some (Stamp.format t)) := by
      rw [← resetStatus_annotations m]
      rfl
    rw [hsame] at hw ⊢
    cases hw
    refine .remediated hr hb hm hrem ht (congrArg _ ?_)
    rw [mergeMain_remediatedAt, hmark]
  | status hr hb _ hs hv hw' =>
    cases hw with
    | patchStatus hc => exact .status hr hb hs hv hw' hc
  | remediate => cases hw
  | collect => cases hw
  | @release x js hg hd _ _ _ hf =>
    have hx : o.resourceVersion = x.resourceVersion → o = x := (hk x (.inl (.inl hg))).eq ho
    cases hw with
    | update h =>
      obtain rfl := hx h
      exact .release hg hd (.inr rfl)
    | remove h =>
      obtain rfl := hx h
      exact .release hg hd (.inl rfl)

lemma effect_of_detector {w w' : World} {k : account.Notes} {o : AutoIndexer} {c : Call}
    {r : Answer c} (hk : Snapshots w k) (ho : w.stored = some o)
    (hl : DetectorSteps.Lawful (k .detector) c) (hw : Written o c r w'.stored) :
    Effect k o (.call .detector c r) w'.stored := by
  generalize hs : w'.stored = s at hw
  clear hs
  cases hl with
  | list => cases hw
  | now => cases hw
  | count => cases hw
  | @mark x t n hx hsk hc hn =>
    have hsame : o.resourceVersion = x.resourceVersion → o = x := (hk x (.inr (.inl hx))).eq ho
    cases hw with
    | update h =>
      obtain rfl := hsame h
      exact .mark hx hsk hc hn
    | remove h hd hf =>
      obtain rfl := hsame h
      exact .drop hf hd
  | @clear x hx hdet hc =>
    have hsame : o.resourceVersion = x.resourceVersion → o = x := (hk x (.inr (.inl hx))).eq ho
    cases hw with
    | update h =>
      obtain rfl := hsame h
      exact .clear hx hdet hc
    | remove h hd hf =>
      obtain rfl := hsame h
      exact .drop hf hd

/-- The event is a write that was accepted. -/
def Accepts : system.Event → Bool
  | .call .controller c r => accepted c r
  | .call .detector c r => accepted c r
  | .call .job c r => jobAccepted c r
  | .act (.edits _) => true
  | .act .deletes => true
  | _ => false

/-- **Whatever happens leaves the stored object as it is, or is one of the writes.** -/
theorem effect_of_happens {w w' : World} {k : account.Notes} {e : system.Event}
    (hk : Snapshots w k) (hl : account.Allows k e) (h : system.Happens w e w') :
    (w'.stored = w.stored ∧ Accepts e = false) ∨
      ∃ o, w.stored = some o ∧ Effect k o e w'.stored := by
  match e with
  | .begin i => exact .inl ⟨congrArg World.stored h, rfl⟩
  | .finish i a => exact .inl ⟨congrArg World.stored h, rfl⟩
  | .crash i => exact .inl ⟨congrArg World.stored h, rfl⟩
  | .call .controller c r =>
    rcases stored_of_serves h with hs | ⟨o, ho, hw⟩
    · exact .inl hs
    · exact .inr ⟨o, ho, effect_of_controller hk ho hl hw⟩
  | .call .detector c r =>
    rcases stored_of_serves h with hs | ⟨o, ho, hw⟩
    · exact .inl hs
    · exact .inr ⟨o, ho, effect_of_detector hk ho hl hw⟩
  | .call .job c r =>
    rcases stored_of_jobServes h with hs | ⟨o, ho, hw⟩
    · exact .inl hs
    · refine .inr ⟨o, ho, ?_⟩
      generalize w'.stored = s at hw
      cases hw with
      | patchStatus hv => exact .job hl hv
  | .act a =>
    cases h with
    | edits h => exact .inr ⟨_, h, .edits⟩
    | deletes h => exact .inr ⟨_, h, .deletes⟩
    | fires => exact .inl ⟨rfl, rfl⟩
    | moves => exact .inl ⟨rfl, rfl⟩
    | gone => exact .inl ⟨rfl, rfl⟩
    | passes => exact .inl ⟨rfl, rfl⟩
    | others => exact .inl ⟨rfl, rfl⟩

/-! ### The status -/

/-- What an event makes of the status of `o`: the controller merges its patch, the job sends the
whole status, and nobody else writes it. -/
inductive Restated (o : AutoIndexer) : system.Event → Status → Prop
  | merged {a b : AutoIndexer} : Restated o (.call .controller (.patchStatus a b) (.ok ()))
      (mergeStatus a.status b.status o.status)
  | sent {body : AutoIndexer} (hv : o.resourceVersion = body.resourceVersion) :
      Restated o (.call .job (.patchStatus body) (.ok ())) body.status
  | kept {e : system.Event} (hc : ∀ a b u, e ≠ .call .controller (.patchStatus a b) (.ok u))
      (hj : ∀ body u, e ≠ .call .job (.patchStatus body) (.ok u)) : Restated o e o.status

lemma restated_of_effect {k : account.Notes} {o o' : AutoIndexer} {e : system.Event}
    (h : Effect k o e (some o')) : Restated o e o'.status := by
  have hkept : ∀ {e : system.Event}, (∀ a b u, e ≠ .call .controller (.patchStatus a b) (.ok u)) →
      (∀ body u, e ≠ .call .job (.patchStatus body) (.ok u)) → o'.status = o.status →
      Restated o e o'.status := by
    intro e hc hj hs
    rw [hs]
    exact .kept hc hj
  generalize hs : some o' = s at h
  cases h with
  | addFinalizer _ _ ho =>
    cases hs
    exact hkept (by simp) (by simp) (by simp [ho, finalizing])
  | suspend _ _ _ _ _ _ _ ho =>
    cases hs
    exact hkept (by simp) (by simp) (by simp [ho, suspending, AutoIndexer.withSpec])
  | resume _ _ _ _ _ _ _ ho =>
    cases hs
    exact hkept (by simp) (by simp) (by simp [ho, suspending, AutoIndexer.withSpec])
  | remediated _ _ _ _ _ ho =>
    cases hs
    exact hkept (by simp) (by simp) (by simp [ho, remediatedAt])
  | status =>
    cases hs
    rw [accept_status]
    exact .merged
  | release _ _ ho =>
    rcases ho with rfl | rfl
    · cases hs
    · cases hs
      exact hkept (by simp) (by simp) (by simp [finalizing])
  | mark =>
    cases hs
    exact hkept (by simp) (by simp) (by simp [DetectorSteps.marked])
  | clear =>
    cases hs
    exact hkept (by simp) (by simp) (by simp [DetectorSteps.cleared])
  | drop => cases hs
  | job _ hv =>
    cases hs
    rw [accept_status]
    exact .sent hv
  | edits =>
    cases hs
    exact hkept (by simp) (by simp) (by simp [AutoIndexer.withSpec])
  | deletes =>
    unfold deleted at hs
    split at hs
    · cases hs
    · cases hs
      exact hkept (by simp) (by simp) (by simp)

lemma restated_of_happens {w w' : World} {k : account.Notes} {e : system.Event} {o' : AutoIndexer}
    (hk : Snapshots w k) (hl : account.Allows k e) (h : system.Happens w e w')
    (ho' : w'.stored = some o') : ∃ o, w.stored = some o ∧ Restated o e o'.status := by
  rcases effect_of_happens hk hl h with ⟨hs, ha⟩ | ⟨o, ho, heffect⟩
  · refine ⟨o', hs ▸ ho', .kept ?_ ?_⟩
    · rintro a b u rfl
      cases ha
    · rintro body u rfl
      cases ha
  · rw [ho'] at heffect
    exact ⟨o, ho, restated_of_effect heffect⟩

/-! ### The phase -/

/-- The version that a job's write carries is that of the object it has read last. -/
lemma eq_of_read {w : World} {k : account.Notes} {o r : AutoIndexer}
    {rest : List (Except ApiError AutoIndexer)} (hk : Snapshots w k) (ho : w.stored = some o)
    (hr : (k .job : Told).got = .ok r :: rest) (hv : o.resourceVersion = r.resourceVersion) :
    o = r := by
  have hmem : .ok r ∈ (k .job : Told).got := by
    rw [hr]
    exact List.mem_cons_self
  exact (hk r (.inr (.inr (.inr hmem)))).eq ho hv

/-- A job writes the status back with the phase that is stored. -/
lemma phase_of_job {w : World} {k : account.Notes} {o body : AutoIndexer} (hk : Snapshots w k)
    (ho : w.stored = some o) (hl : JobSteps.Lawful (k .job : Told) (.patchStatus body))
    (hv : o.resourceVersion = body.resourceVersion) :
    body.status.indexingPhase = o.status.indexingPhase := by
  cases hl with
  | condition _ hr =>
    obtain rfl := eq_of_read hk ho hr hv
    rfl
  | base _ hr =>
    obtain rfl := eq_of_read hk ho hr hv
    rfl
  | completion _ _ hr =>
    obtain rfl := eq_of_read hk ho hr hv
    rfl

/-- Until it has sent the patch of the status, the controller knows the stored phase. -/
def PhaseKnown (w : World) (g : Knows) : Prop :=
  g.sent = false → ∀ f, Recalls f → ∀ x, f g = some x → ∀ o, w.stored = some o →
    x.status.indexingPhase = o.status.indexingPhase

/-- Only the controller's patch of the status changes the phase. -/
lemma phase_of_effect {w : World} {k : account.Notes} {o o' : AutoIndexer} {e : system.Event}
    (hk : Snapshots w k) (ho : w.stored = some o) (h : Effect k o e (some o'))
    (he : ∀ x m, e ≠ .call .controller (.patchStatus x m) (.ok ())) :
    o'.status.indexingPhase = o.status.indexingPhase := by
  have hr := restated_of_effect h
  generalize o'.status = st at hr
  cases hr with
  | merged => exact absurd rfl (he _ _)
  | kept => rfl
  | sent hv =>
    cases h with
    | job hl _ => exact phase_of_job hk ho hl hv

lemma sent_note {g : Knows} {c : Call} {r : Answer c} (h : (note g c r).sent = false) :
    g.sent = false ∧ ∀ a m, c ≠ .patchStatus a m := by
  refine ⟨?_, ?_⟩
  · unfold note at h
    split at h <;> first | exact h | cases h | (split at h <;> exact h)
  · rintro a m rfl
    cases r <;> cases h

lemma sent_watch {k : account.Notes} {e : system.Event}
    (h : (account.watch k e .controller : Knows).sent = false) :
    e = .begin .controller ∨ (k .controller : Knows).sent = false ∧
      ∀ a m r, e ≠ .call .controller (.patchStatus a m) r := by
  match e with
  | .begin .controller => exact .inl rfl
  | .begin .detector => exact .inr ⟨h, by simp⟩
  | .begin .job => exact .inr ⟨h, by simp⟩
  | .call .controller c r =>
    rw [System.Account.watch_self] at h
    obtain ⟨hs, hc⟩ := sent_note h
    refine .inr ⟨hs, ?_⟩
    rintro a m r' he
    cases he
    exact hc a m rfl
  | .call .detector c r => exact .inr ⟨h, by simp⟩
  | .call .job c r => exact .inr ⟨h, by simp⟩
  | .finish i a => exact .inr ⟨h, by simp⟩
  | .crash i => exact .inr ⟨h, by simp⟩
  | .act a => exact .inr ⟨h, by simp⟩

lemma phaseKnown_step {w w' : World} {k : account.Notes} {e : system.Event}
    (hk : Snapshots w k) (hp : PhaseKnown w (k .controller)) (hl : account.Allows k e)
    (h : system.Happens w e w') : PhaseKnown w' (account.watch k e .controller) := by
  intro hsent f hf x hx o' ho'
  rcases sent_watch hsent with rfl | ⟨hsent, he⟩
  · rw [System.Account.watch_begin] at hx
    rcases hf with rfl | rfl | rfl <;> cases hx
  rcases recalls_watch hf h hx with hx | hx
  · obtain ⟨o, ho, -⟩ := later_of_happens h ho'
    rw [hp hsent f hf x hx o ho]
    rcases effect_of_happens hk hl h with ⟨hs, -⟩ | ⟨o1, ho1, heffect⟩
    · rw [hs, ho] at ho'
      cases ho'
      rfl
    · rw [ho] at ho1
      cases ho1
      rw [ho'] at heffect
      exact (phase_of_effect hk ho heffect fun a m => he a m _).symm
  · rw [hx] at ho'
    cases ho'
    rfl

/-! ### Runs -/

/-- Nothing runs, and nothing has been told. -/
def Start {G : Type} (s : System.Config system (account.Notes × G)) : Prop :=
  Quiet s ∧ s.record.1 = account.fresh

/-- An observer that keeps the notes, and nothing else. -/
abbrev noted : System.Observer system (account.Notes × Unit) := account.observer fun _ _ => ()

/-- Besides, the record of the observer is `g`. -/
def StartWith {G : Type} (g : G) (s : System.Config system (account.Notes × G)) : Prop :=
  Start s ∧ s.record.2 = g

lemma snapshots_fresh (w : World) : Snapshots w account.fresh := by
  intro x hx
  rcases hx with hx | hx | hx
  · simp [fresh] at hx
  · simp [unseen] at hx
  · simp [untold] at hx

section

variable {G : Type} {obs : World × account.Notes × G → system.Event → G}
  {cond : World × account.Notes × G → system.Event → Prop}
  {init : System.Config system (account.Notes × G) → Prop}
  {s s' : System.Config system (account.Notes × G)} {e : system.Event}

/-- Two objects that the controller recalls are the same if their versions are. -/
def Versioned (g : Knows) : Prop :=
  ∀ f f', Recalls f → Recalls f' → ∀ x y, f g = some x → f' g = some y →
    x.resourceVersion = y.resourceVersion → x = y

lemma mentions_recalled {k : account.Notes} {f : Knows → Option AutoIndexer} (hf : Recalls f)
    {x : AutoIndexer} (h : f (k .controller) = some x) : Mentions k x := by
  rcases hf with rfl | rfl | rfl
  · exact .inl (.inl h)
  · exact .inl (.inr (.inl h))
  · exact .inl (.inr (.inr h))

lemma versioned_step {w w' : World} {k : account.Notes} {e : system.Event} (hk : Snapshots w k)
    (hv : Versioned (k .controller)) (h : system.Happens w e w') :
    Versioned (account.watch k e .controller) := by
  have hk' := snapshots_step hk h
  intro f f' hf hf' x y hx hy hxy
  rcases recalls_watch hf h hx with hx' | hx'
  · rcases recalls_watch hf' h hy with hy' | hy'
    · exact hv f f' hf hf' x y hx' hy' hxy
    · exact ((hk' x (mentions_recalled hf hx)).eq hy' hxy.symm).symm
  · exact (hk' y (mentions_recalled hf' hy)).eq hx' hxy

/-- What the notes say is true of the world. -/
structure Sound (w : World) (k : account.Notes) : Prop where
  snapshots : Snapshots w k
  phases : PhaseKnown w (k .controller)
  versions : Versioned (k .controller)

lemma sound_step {w w' : World} {k : account.Notes} {e : system.Event} (hk : Sound w k)
    (hl : account.Allows k e) (h : system.Happens w e w') : Sound w' (account.watch k e) :=
  ⟨snapshots_step hk.snapshots h, phaseKnown_step hk.snapshots hk.phases hl h,
    versioned_step hk.snapshots hk.versions h⟩

lemma sound_fresh (w : World) : Sound w account.fresh := by
  refine ⟨snapshots_fresh w, fun _ f hf x hx => ?_, fun f _ hf _ x _ hx => ?_⟩
  · rcases hf with rfl | rfl | rfl <;> cases hx
  · rcases hf with rfl | rfl | rfl <;> cases hx

/-- **An invariant of runs**: it holds at the start, and what is lawful for a program that knows
what is true keeps it. -/
theorem invariant_of_reach {I : World × account.Notes × G → Prop}
    (hinit : ∀ s, init s → Start s ∧ I s.view)
    (hstep : ∀ w k g e w', Sound w k → I (w, k, g) → cond (w, k, g) e → account.Allows k e →
      system.Happens w e w' → I (w', account.watch k e, obs (w, k, g) e))
    (h : System.Reach (account.observer obs) cond init s) :
    Sound s.world s.record.1 ∧ I s.view := by
  refine System.Account.invariant (I := fun x => Sound x.1 x.2.1 ∧ I x) ?_ ?_ h
  · intro s hs
    obtain ⟨⟨hq, hk⟩, hi⟩ := hinit s hs
    refine ⟨⟨?_, hi⟩, hq⟩
    change Sound s.world s.record.1
    rw [hk]
    exact sound_fresh _
  · rintro w k g e w' ⟨hk, hi⟩ hc hl hw
    exact ⟨sound_step hk hl hw, hstep w k g e w' hk hi hc hl hw⟩

/-- A field that a reconcile leaves alone is not changed by its patch of the status. -/
lemma merged_eq {β : Type} [DecidableEq β] {f : Status → β} {w : World} {k : account.Notes}
    {o x r m : AutoIndexer} (hk : Sound w k) (ho : w.stored = some o)
    (hf : ∀ a b c, f (mergeStatus a b c) = pick (f a) (f b) (f c))
    (hr : (k .controller : Knows).read = some r) (hb : (k .controller : Knows).base = some x)
    (hv : m.resourceVersion = r.resourceVersion)
    (hc : x.resourceVersion = m.resourceVersion ∨ o.resourceVersion = m.resourceVersion)
    (hm : f m.status = f r.status) : f (mergeStatus x.status m.status o.status) = f o.status := by
  rw [hf]
  rcases hc with hc | hc
  · have hx : x = r :=
      hk.versions _ _ (.inr (.inr rfl)) (.inr (.inl rfl)) x r hb hr (hc.trans hv)
    rw [hx, hm, pick_self]
  · have hor : o = r :=
      (hk.snapshots r (mentions_recalled (.inr (.inl rfl)) hr)).eq ho (hc.trans hv)
    rw [hm, ← hor]
    unfold pick
    split <;> rfl

/-- What a patch of the status makes of the phase. -/
lemma phase_of_merge {w : World} {k : account.Notes} {o x y m : AutoIndexer}
    (hk : Sound w k) (ho : w.stored = some o)
    (hr : (k .controller : Knows).read = some y) (hb : (k .controller : Knows).base = some x)
    (hs : (k .controller : Knows).sent = false) (hv : m.resourceVersion = y.resourceVersion)
    (hw : Worked (k .controller : Knows).listing x y m.status)
    (hc : x.resourceVersion = m.resourceVersion ∨ o.resourceVersion = m.resourceVersion) :
    (mergeStatus x.status m.status o.status).indexingPhase = o.status.indexingPhase ∨
      x.status.indexingPhase = o.status.indexingPhase ∧ PhaseStep x (k .controller : Knows).listing
        (mergeStatus x.status m.status o.status).indexingPhase := by
  rcases phase_of_worked hw with hm | ⟨rfl, hstep⟩
  · exact .inl (merged_eq (f := Status.indexingPhase) hk ho (fun _ _ _ => rfl) hr hb hv hc hm)
  · have hx : y.status.indexingPhase = o.status.indexingPhase :=
      hk.phases hs Knows.base (.inr (.inr rfl)) y hb o ho
    refine .inr ⟨hx, ?_⟩
    have hmerge : (mergeStatus y.status m.status o.status).indexingPhase = m.status.indexingPhase := by
      change pick y.status.indexingPhase m.status.indexingPhase o.status.indexingPhase = _
      rw [hx, pick_original]
    rwa [hmerge]

/-- In every run, what the notes say is true. -/
lemma sound_of_reach (hinit : ∀ s, init s → Start s)
    (h : System.Reach (account.observer obs) cond init s) : Sound s.world s.record.1 :=
  (invariant_of_reach (I := fun _ => True) (fun s hs => ⟨hinit s hs, trivial⟩)
    (fun _ _ _ _ _ _ _ _ _ _ => trivial) h).1

/-- In every run, a program does what is lawful for what it has been told. -/
lemma allows_of_reach (hinit : ∀ s, init s → Start s)
    (h : System.Reach (account.observer obs) cond init s)
    (hs : System.Step (account.observer obs) s e s') :
    account.Allows s.record.1 e ∧ system.Happens s.world e s'.world ∧
      s'.record = (account.watch s.record.1 e, obs s.view e) :=
  System.Account.allows (fun s hi => (hinit s hi).1) h hs

end

/-! ### The controller, alone -/

/-- The system before anything has happened. -/
def before {G : Type} (w : World) (g : G) : System.Config system (account.Notes × G) :=
  ⟨w, (account.fresh, g), fun _ => none⟩

lemma start_before {G : Type} (w : World) (g : G) : Start (before w g) := ⟨fun _ => rfl, rfl⟩

section

variable {G : Type} (obs : World × account.Notes × G → system.Event → G)
  (test : World × account.Notes × G → system.Event → Bool)

/-- The first `n` calls of a reconcile, with nobody else in between, and whether they all meet
the test. -/
def calling (n : ℕ) (s : System.Config system (account.Notes × G)) :
    Go Err × (World × account.Notes × G) × Bool :=
  reconcile.after (System.answer (account.observer obs) test Actor.controller serve) n
    ((s.world, account.observer obs s.view (.begin .controller)), true)

/-- The system after the first `n` calls of a reconcile. -/
def reconciling (n : ℕ) (s : System.Config system (account.Notes × G)) :
    System.Config system (account.Notes × G) :=
  let y := calling obs (fun _ _ => true) n s
  ⟨y.2.1.1, y.2.1.2, Function.update s.threads .controller (some y.1)⟩

variable {obs test} {cond : World × account.Notes × G → system.Event → Prop}
  {init : System.Config system (account.Notes × G) → Prop}
  {s : System.Config system (account.Notes × G)}

lemma reach_calling (htest : ∀ x e, test x e = true → cond x e)
    (h : System.Reach (account.observer obs) cond init s) (hs : s.threads .controller = none)
    (hb : cond s.view (.begin .controller)) (n : ℕ) (hy : (calling obs test n s).2.2 = true) :
    System.Reach (account.observer obs) cond init
      ⟨(calling obs test n s).2.1.1, (calling obs test n s).2.1.2,
        Function.update s.threads .controller (some (calling obs test n s).1)⟩ := by
  have hbegin := System.Reach.step h (.begin hs (p := reconcile) rfl) hb
  have hflag : (reconcile.after (System.answer (account.observer obs) test Actor.controller serve)
      n ((s.world, account.observer obs s.view (.begin .controller)), true)).2.2 = true := hy
  have hafter := System.Reach.after (i := Actor.controller) serve
    (fun w c => serves_serve True w c) htest hbegin
    (Function.update_self Actor.controller (some reconcile) s.threads) n rfl hflag
  rw [Function.update_idem] at hafter
  exact hafter

lemma reach_reconciling
    (h : System.Reach (account.observer obs) (fun _ _ => True) init s)
    (hs : s.threads .controller = none) (n : ℕ) :
    System.Reach (account.observer obs) (fun _ _ => True) init (reconciling obs n s) :=
  reach_calling (fun _ _ _ => trivial) h hs trivial n (System.after_flag_eq_true n _ _)

end

/-- The next call of a reconcile, when nothing goes wrong. -/
lemma step_reconcile {G : Type} (obs : System.Observer system G) {s : System.Config system G}
    {c : Call} {k : Answer c → Go Err} (hs : s.threads .controller = some (.ask c k)) :
    System.Step obs s (.call .controller c (serve s.world c).1)
      ⟨(serve s.world c).2, obs s.view (.call .controller c (serve s.world c).1),
        Function.update s.threads .controller (some (k (serve s.world c).1))⟩ :=
  .call hs (serves_serve True s.world c)

/-- Others act. -/
lemma reach_act {G : Type} {obs : System.Observer system G}
    {init : System.Config system G → Prop} {s : System.Config system G}
    (h : System.Reach obs (fun _ _ => True) init s) {a : Act} {w : World}
    (ha : Env a s.world w) :
    System.Reach obs (fun _ _ => True) init ⟨w, obs s.view (.act a), s.threads⟩ :=
  .step h (.act ha) trivial

/-- A reconcile ends. -/
lemma reach_finish {G : Type} {obs : System.Observer system G}
    {init : System.Config system G → Prop} {s : System.Config system G}
    (h : System.Reach obs (fun _ _ => True) init s) {e : Err}
    (hs : s.threads .controller = some (.ret e)) :
    System.Reach obs (fun _ _ => True) init
      ⟨s.world, obs s.view (.finish .controller e), Function.update s.threads .controller none⟩ :=
  .step h (.finish hs) trivial

/-! ### The detector, alone -/

section

variable {G : Type} (obs : World × account.Notes × G → system.Event → G)
  (test : World × account.Notes × G → system.Event → Bool)

/-- The first `n` calls of a drift check, with nobody else in between, and whether they all meet
the test. -/
def ticking (n : ℕ) (s : System.Config system (account.Notes × G)) :
    Go Unit × (World × account.Notes × G) × Bool :=
  Detector.performDriftCheck.after
    (System.answer (account.observer obs) test Actor.detector serve) n
    ((s.world, account.observer obs s.view (.begin .detector)), true)

variable {obs test} {cond : World × account.Notes × G → system.Event → Prop}
  {init : System.Config system (account.Notes × G) → Prop}
  {s : System.Config system (account.Notes × G)}

lemma reach_ticking (htest : ∀ x e, test x e = true → cond x e)
    (h : System.Reach (account.observer obs) cond init s) (hs : s.threads .detector = none)
    (hb : cond s.view (.begin .detector)) (n : ℕ) (hy : (ticking obs test n s).2.2 = true) :
    System.Reach (account.observer obs) cond init
      ⟨(ticking obs test n s).2.1.1, (ticking obs test n s).2.1.2,
        Function.update s.threads .detector (some (ticking obs test n s).1)⟩ := by
  have hbegin := System.Reach.step h (.begin hs (p := Detector.performDriftCheck) rfl) hb
  have hflag : (Detector.performDriftCheck.after
      (System.answer (account.observer obs) test Actor.detector serve) n
      ((s.world, account.observer obs s.view (.begin .detector)), true)).2.2 = true := hy
  have hafter := System.Reach.after (i := Actor.detector) serve
    (fun w c => serves_serve True w c) htest hbegin
    (Function.update_self Actor.detector (some Detector.performDriftCheck) s.threads) n rfl hflag
  rw [Function.update_idem] at hafter
  exact hafter

end

/-- The next call of a drift check, when nothing goes wrong. -/
lemma step_tick {G : Type} (obs : System.Observer system G) {s : System.Config system G}
    {c : Call} {k : Answer c → Go Unit} (hs : s.threads .detector = some (.ask c k)) :
    System.Step obs s (.call .detector c (serve s.world c).1)
      ⟨(serve s.world c).2, obs s.view (.call .detector c (serve s.world c).1),
        Function.update s.threads .detector (some (k (serve s.world c).1))⟩ :=
  .call hs (serves_serve True s.world c)

/-! ### A job, alone -/

section

variable {G : Type} (obs : World × account.Notes × G → system.Event → G)
  (test : World × account.Notes × G → system.Event → Bool)

/-- The next `n` calls of a job that goes on with `p`, when nothing goes wrong and with nobody
else in between, and whether they all meet the test. -/
def working (n : ℕ) (p : Py (Option Bool)) (s : System.Config system (account.Notes × G)) :
    Py (Option Bool) × (World × account.Notes × G) × Bool :=
  p.after (System.answer (account.observer obs) test Actor.job jobServe) n (s.view, true)

variable {obs test} {cond : World × account.Notes × G → system.Event → Prop}
  {init : System.Config system (account.Notes × G) → Prop}
  {s : System.Config system (account.Notes × G)}

/-- The next call of a job, when nothing goes wrong. -/
lemma step_job (_ : System.Reach (account.observer obs) cond init s) {c : JobCall}
    {k : JobAnswer c → Py (Option Bool)} (hs : s.threads .job = some (.ask c k)) :
    System.Step (account.observer obs) s (.call .job c (jobServe s.world c).1)
      ⟨(jobServe s.world c).2, account.observer obs s.view (.call .job c (jobServe s.world c).1),
        Function.update s.threads .job (some (k (jobServe s.world c).1))⟩ :=
  .call hs (jobServes_jobServe True s.world c)

/-- The job fails to read the object. -/
lemma reach_unread (h : System.Reach (account.observer obs) (fun _ _ => True) init s)
    {k : Except ApiError AutoIndexer → Py (Option Bool)}
    (hs : s.threads Actor.job = some (.ask JobCall.getAutoIndexer k)) (m : String) :
    System.Reach (account.observer obs) (fun _ _ => True) init
      ⟨s.world, account.observer obs s.view
          (System.Event.call Actor.job JobCall.getAutoIndexer (.error (.other m))),
        Function.update s.threads Actor.job (some (k (.error (.other m))))⟩ := by
  have hfails : JobServes True s.world .getAutoIndexer (.error (.other m)) s.world :=
    ⟨rfl, .inr ⟨trivial, m, rfl⟩⟩
  exact .step h (.call (i := Actor.job) hs hfails) trivial

/-- A job begins. -/
lemma reach_job (h : System.Reach (account.observer obs) cond init s) (r : Git.Remote)
    (hs : s.threads .job = none) (hb : cond s.view (.begin .job)) :
    System.Reach (account.observer obs) cond init
      ⟨s.world, account.observer obs s.view (.begin .job),
        Function.update s.threads .job (some (Job.main r))⟩ :=
  .step h (.begin hs ⟨r, rfl⟩) hb

lemma reach_working (htest : ∀ x e, test x e = true → cond x e)
    (h : System.Reach (account.observer obs) cond init s) {p : Py (Option Bool)}
    (hp : s.threads .job = some p) (n : ℕ) (hy : (working obs test n p s).2.2 = true) :
    System.Reach (account.observer obs) cond init
      ⟨(working obs test n p s).2.1.1, (working obs test n p s).2.1.2,
        Function.update s.threads .job (some (working obs test n p s).1)⟩ :=
  System.Reach.after (i := Actor.job) jobServe (fun w c => jobServes_jobServe True w c) htest h hp n
    rfl hy

end

end KaitoAutoIndexer.SystemSteps
