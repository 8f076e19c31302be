import KaitoAutoIndexer.SystemSteps
import KaitoAutoIndexer.ControllerSpec

/-!
The phases that the stored object goes through, as long as users edit the spec and not the status.
They are a walk in one graph, whatever is done in between; without a schedule there is only one way
through it.
-/

namespace KaitoAutoIndexer.Phases

open KaitoAutoIndexer.Lib KaitoAutoIndexer.Types
open KaitoAutoIndexer.Cluster KaitoAutoIndexer.Controller
open KaitoAutoIndexer.System KaitoAutoIndexer.SystemSteps
open KaitoAutoIndexer.ControllerSteps (Knows PhaseStep)
open KaitoAutoIndexer.ControllerSpec (demo demoWorld)

/-! ### The graph -/

/-- The turns from one phase to another. -/
def Turns : Phase → Phase → Bool
  | .unset, .pending => true
  | .pending, .running | .pending, .failed | .pending, .scheduled | .pending, .suspended => true
  | .running, .completed | .running, .failed | .running, .scheduled => true
  | .scheduled, .running | .scheduled, .suspended | .scheduled, .driftRemediation => true
  | .suspended, .scheduled => true
  | .driftRemediation, .pending => true
  | _, _ => false

/-- The turns that need no schedule. -/
def OneTimeTurns : Phase → Phase → Bool
  | .unset, .pending => true
  | .pending, .running | .pending, .failed => true
  | .running, .completed | .running, .failed => true
  | _, _ => false

variable {w w' : World} {k : account.Notes} {e : system.Event} {o o' x : AutoIndexer}
  {listing : Option (List Job)} {p : Phase} {l : List Phase}

lemma turns_of_phaseStep (h : PhaseStep x listing p) : Turns x.status.indexingPhase p = true := by
  cases h <;> simp [Turns, *]

/-! ### The history -/

/-- The phase that a patch of the status leaves. -/
def turned (w : World) : system.Event → Option Phase
  | .call .controller (.patchStatus a b) (.ok _) =>
    w.stored.map fun o => (mergeStatus a.status b.status o.status).indexingPhase
  | _ => none

/-- The phases so far, the last one first. -/
def remember (x : World × account.Notes × List Phase) (e : system.Event) : List Phase :=
  match turned x.1 e with
  | some p => if x.2.2.head? = some p then x.2.2 else p :: x.2.2
  | none => x.2.2

/-- The last phase is the stored one, and each has followed the one before by such a turn. -/
structure History (turns : Phase → Phase → Bool) (w : World) (l : List Phase) : Prop where
  last : ∀ o, w.stored = some o → l.head? = some o.status.indexingPhase
  walk : l.IsChain fun p q => turns q p = true

/-- The history starts with the phase that is stored. -/
def StartsWith (s : System.Config system (account.Notes × List Phase)) : Prop :=
  Start s ∧ ∃ o, s.world.stored = some o ∧ s.record.2 = [o.status.indexingPhase]

lemma history_start {turns : Phase → Phase → Bool} {s : System.Config system (account.Notes × List Phase)}
    (h : StartsWith s) : History turns s.world s.record.2 := by
  obtain ⟨-, o, ho, hl⟩ := h
  rw [hl]
  refine ⟨fun o' ho' => ?_, .singleton _⟩
  obtain rfl := Option.some.inj (ho.symm.trans ho')
  rfl

lemma turned_eq_none (he : ∀ a b u, e ≠ .call .controller (.patchStatus a b) (.ok u)) :
    turned w e = none := by
  unfold turned
  split
  · exact absurd rfl (he _ _ _)
  · rfl

/-- What a status patch of the controller makes of the phase. -/
lemma phase_of_patch {a b : AutoIndexer} (hk : Sound w k)
    (hl : account.Allows k (.call .controller (.patchStatus a b) (.ok ()))) (ho : w.stored = some o)
    (hc : a.resourceVersion = b.resourceVersion ∨ o.resourceVersion = b.resourceVersion) :
    (mergeStatus a.status b.status o.status).indexingPhase = o.status.indexingPhase ∨
      (k .controller : Knows).base = some a ∧ a.status.indexingPhase = o.status.indexingPhase ∧
        PhaseStep a (k .controller : Knows).listing
          (mergeStatus a.status b.status o.status).indexingPhase := by
  have hl : ControllerSteps.Lawful (k .controller) (.patchStatus a b) := hl
  cases hl with
  | plain h => exact h.elim
  | status hr hb _ hs hv hw =>
    exact (phase_of_merge hk ho hr hb hs hv hw hc).imp_right fun h => ⟨hb, h.1, h.2⟩

/-- Whatever happens, the phase that is stored is remembered, and a new one is turned to from an
object that the controller has read. -/
lemma history_step {turns : Phase → Phase → Bool} (hk : Sound w k) (hl : account.Allows k e)
    (h : system.Happens w e w') (hist : History turns w l)
    (hturns : ∀ x p, (k .controller : Knows).base = some x → l.head? = some x.status.indexingPhase →
      PhaseStep x (k .controller : Knows).listing p → turns x.status.indexingPhase p = true) :
    History turns w' (remember (w, k, l) e) := by
  by_cases he : ∃ a b u, e = .call .controller (.patchStatus a b) (.ok u)
  · obtain ⟨a, b, u, rfl⟩ := he
    have hserves : Serves True w (.patchStatus a b) (.ok u) w' := h
    rcases stored_of_serves hserves with ⟨-, hno⟩ | ⟨o, ho, hw⟩
    · cases hno
    · generalize hs : w'.stored = stored at hw
      cases hw with
      | patchStatus hc =>
        have hlast := hist.last o ho
        have hturned : turned w (.call .controller (.patchStatus a b) (.ok ())) =
            some (mergeStatus a.status b.status o.status).indexingPhase := by
          unfold turned
          rw [ho]
          rfl
        unfold remember
        rw [hturned]
        dsimp only
        have hstored : ∀ o', w'.stored = some o' → o'.status.indexingPhase =
            (mergeStatus a.status b.status o.status).indexingPhase := by
          intro o' ho'
          obtain rfl := Option.some.inj (hs.symm.trans ho')
          rw [accept_status]
          rfl
        split
        · rename_i hsame
          exact ⟨fun o' ho' => by rw [hstored o' ho', hsame], hist.walk⟩
        · rename_i hnew
          refine ⟨fun o' ho' => by rw [hstored o' ho']; rfl, ?_⟩
          rcases phase_of_patch hk hl ho hc with hsame | ⟨hb, hphase, hstep⟩
          · exact absurd (hsame ▸ hlast) hnew
          · refine List.isChain_cons.mpr ⟨fun q hq => ?_, hist.walk⟩
            obtain rfl : q = o.status.indexingPhase := by
              rw [hlast] at hq
              exact (Option.mem_some_iff.mp hq).symm
            rw [← hphase] at hlast ⊢
            exact hturns a _ hb hlast hstep
  · simp only [not_exists] at he
    unfold remember
    rw [turned_eq_none he]
    refine ⟨fun o' ho' => ?_, hist.walk⟩
    rcases effect_of_happens hk.snapshots hl h with ⟨hs, -⟩ | ⟨o, ho, heffect⟩
    · exact hist.last o' (hs ▸ ho')
    · rw [ho'] at heffect
      rw [phase_of_effect hk.snapshots ho heffect fun a b => he a b ()]
      exact hist.last o ho

/-- **In every run the phases are a walk in the graph**, made by status patches of the controller. -/
theorem phases_walk {s : System.Config system (account.Notes × List Phase)}
    (h : System.Reach (account.observer remember) (fun _ _ => True) StartsWith s) :
    History Turns s.world s.record.2 ∧ ∀ p ∈ s.record.2.tail, p ≠ .completed ∧ p ≠ .failed := by
  have hhist : History Turns s.world s.record.2 := by
    refine (invariant_of_reach (I := fun x => History Turns x.1 x.2.2)
      (fun s hs => ⟨hs.1, history_start hs⟩) ?_ h).2
    intro w k l e w' hk hist _ hl hhappens
    exact history_step hk hl hhappens hist fun x p _ _ hstep => turns_of_phaseStep hstep
  refine ⟨hhist, ?_⟩
  -- nothing is turned to from a final phase
  have hfinal : ∀ l : List Phase, l.IsChain (fun p q => Turns q p = true) →
      ∀ p ∈ l.tail, p ≠ .completed ∧ p ≠ .failed := by
    intro l hl
    induction l with
    | nil => simp
    | cons q l ih =>
      cases l with
      | nil => simp
      | cons p l =>
        obtain ⟨hqp, hl⟩ := List.isChain_cons_cons.mp hl
        intro p' hp'
        rcases List.mem_cons.mp hp' with rfl | hp'
        · constructor <;> rintro rfl <;> cases hqp
        · exact ih hl p' hp'
  exact hfinal _ hhist.walk

/-- `demo`, just created. -/
def created : AutoIndexer := { demo with status := { demo.status with indexingPhase := .unset } }

def createdWorld : World := { demoWorld with stored := some created }

/-- The start of the history of the new object. -/
def createdStart : System.Config system (account.Notes × List Phase) := before createdWorld [.unset]

lemma startsWith_created : StartsWith createdStart := ⟨start_before _ _, created, rfl, rfl⟩

/-- The first reconcile of a new object. -/
theorem phases_walk_created :
    (reconciling remember 30 createdStart).record.2 = [.pending, .unset] ∧
      History Turns (reconciling remember 30 createdStart).world [.pending, .unset] := by
  have hrun : (reconciling remember 30 createdStart).record.2 = [.pending, .unset] := by decide
  have hreach : System.Reach (account.observer remember) (fun _ _ => True) StartsWith _ :=
    reach_reconciling (.init startsWith_created) rfl 30
  exact ⟨hrun, hrun ▸ (phases_walk hreach).1⟩

/-! ### Without a schedule -/

def Unscheduled (w : World) : Prop := ∀ o, w.stored = some o → o.spec.schedule = none

/-- The ways to the end. -/
def OneTimePath (l : List Phase) : Prop :=
  l ≠ [] ∧ (l <:+ [.completed, .running, .pending, .unset] ∨
    l <:+ [.failed, .running, .pending, .unset] ∨ l <:+ [.failed, .pending, .unset])

/-- There are no other walks from the start. -/
lemma oneTimePath_of_walk (hl : l.IsChain fun p q => OneTimeTurns q p = true)
    (hlast : l.getLast? = some .unset) : OneTimePath l := by
  have hall : l = [.unset] ∨ l = [.pending, .unset] ∨ l = [.failed, .pending, .unset] ∨
      l = [.running, .pending, .unset] ∨ l = [.completed, .running, .pending, .unset] ∨
      l = [.failed, .running, .pending, .unset] := by
    induction l with
    | nil => cases hlast
    | cons q l ih =>
      cases l with
      | nil =>
        left
        simpa using hlast
      | cons p l =>
        obtain ⟨hturn, hl⟩ := List.isChain_cons_cons.mp hl
        have hpath := ih hl (by simpa using hlast)
        cases q <;> cases p <;> simp [OneTimeTurns] at hturn <;> simp_all
  rcases hall with rfl | rfl | rfl | rfl | rfl | rfl <;>
    exact ⟨by simp, by simp [List.suffix_cons_iff]⟩

lemma oneTimeTurns_of_phaseStep (h : PhaseStep x listing p) (hs : x.spec.schedule = none)
    (hx : OneTimePath l) (hl : l.head? = some x.status.indexingPhase) :
    OneTimeTurns x.status.indexingPhase p = true := by
  have hphase : x.status.indexingPhase ≠ .scheduled ∧ x.status.indexingPhase ≠ .suspended ∧
      x.status.indexingPhase ≠ .driftRemediation := by
    have hmem := List.mem_of_head? hl
    obtain ⟨-, hx | hx | hx⟩ := hx
    all_goals
      have hmem' := hx.subset hmem
      simp only [List.mem_cons, List.not_mem_nil, or_false] at hmem'
      refine ⟨?_, ?_, ?_⟩ <;> intro hp <;> rw [hp] at hmem' <;> simp at hmem'
  cases h with
  | start h => rw [h]; rfl
  | pendingSuspended _ _ hc => simp [hs] at hc
  | pendingScheduled _ _ hc => simp [hs] at hc
  | pendingFailed h => rw [h]; rfl
  | pendingRunning h => rw [h]; rfl
  | scheduledSuspended h => exact absurd h hphase.1
  | scheduledRunning h => exact absurd h hphase.1
  | drifted h => exact absurd h hphase.1
  | unsuspended h => exact absurd h hphase.2.1
  | runningFailed h => rw [h]; rfl
  | runningScheduled _ hc => simp [hs] at hc
  | runningCompleted h => rw [h]; rfl
  | driftIgnored h => exact absurd h hphase.2.2
  | driftOver h => exact absurd h hphase.2.2

/-- What the controller has read lately has no schedule. -/
def ReadUnscheduled (g : Knows) : Prop := ∀ x, g.base = some x → x.spec.schedule = none

lemma readUnscheduled_step (hk : ReadUnscheduled (k .controller)) (hw : Unscheduled w')
    (h : system.Happens w e w') : ReadUnscheduled (account.watch k e .controller) := by
  intro x hx
  rcases recalls_watch (.inr (.inr rfl)) h hx with hx | hx
  · exact hk x hx
  · exact hw x hx

/-- **A new AutoIndexer without a schedule** goes from Pending to Failed, or from Pending to Running
and from there to Completed or Failed, and that is all. -/
theorem one_time_phases {s : System.Config system (account.Notes × List Phase)}
    (h : System.Reach (account.observer remember) (fun x _ => Unscheduled x.1)
      (fun s => StartsWith s ∧ s.record.2 = [.unset]) s) :
    OneTimePath s.record.2 ∧
      ∀ o, s.world.stored = some o → s.record.2.head? = some o.status.indexingPhase := by
  have hinv : History OneTimeTurns s.world s.record.2 ∧ s.record.2.getLast? = some .unset := by
    refine ((invariant_of_reach (I := fun x => (Unscheduled x.1 → ReadUnscheduled (x.2.1 .controller)) ∧
      History OneTimeTurns x.1 x.2.2 ∧ x.2.2.getLast? = some .unset) ?_ ?_ h).2).2
    · rintro s ⟨hs, hunset⟩
      refine ⟨hs.1, fun _ x hx => ?_, history_start hs, ?_⟩
      · change (s.record.1 .controller : Knows).base = some x at hx
        rw [hs.1.2] at hx
        cases hx
      · change s.record.2.getLast? = some .unset
        rw [hunset]
        rfl
    · rintro w k l e w' hk ⟨hread, hist, hlast⟩ hw hl hhappens
      have hread := hread hw
      refine ⟨fun hw' => readUnscheduled_step hread hw' hhappens, ?_, ?_⟩
      · refine history_step hk hl hhappens hist fun x p hb hhead hstep => ?_
        exact oneTimeTurns_of_phaseStep hstep (hread x hb)
          (oneTimePath_of_walk hist.walk hlast) hhead
      · unfold remember
        split
        · split
          · exact hlast
          · rw [List.getLast?_cons_of_ne_nil (by rintro rfl; cases hlast)]
            exact hlast
        · exact hlast
  exact ⟨oneTimePath_of_walk hinv.1.walk hinv.2, hinv.1.last⟩

def unscheduledTest (x : World × account.Notes × List Phase) (_ : system.Event) : Bool :=
  x.1.stored.all fun o => o.spec.schedule.isNone

lemma unscheduled_of_test (x : World × account.Notes × List Phase) (e : system.Event)
    (h : unscheduledTest x e = true) : Unscheduled x.1 := by
  intro o ho
  unfold unscheduledTest at h
  rw [ho] at h
  simpa using h

/-- The new object has none. -/
theorem one_time_phases_created :
    OneTimePath (calling remember unscheduledTest 30 createdStart).2.1.2.2 := by
  have hbegin : Unscheduled createdStart.world := by
    intro o ho
    cases ho
    rfl
  have hinit : System.Reach (account.observer remember) (fun x _ => Unscheduled x.1)
      (fun s => StartsWith s ∧ s.record.2 = [.unset]) createdStart := .init ⟨startsWith_created, rfl⟩
  exact (one_time_phases (reach_calling unscheduled_of_test hinit rfl hbegin 30 (by decide))).1

end KaitoAutoIndexer.Phases
