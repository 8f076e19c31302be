import KaitoAutoIndexer.System
import KaitoAutoIndexer.ControllerSpec

/-!
An AutoIndexer without a drift remediation policy against one with the policy Manual. The programs
do not take an absent policy for Manual everywhere, but none of them ever sees one: the resource
definition has a default for the field, which the API server fills in when an object is read and
when it is stored.
-/

namespace KaitoAutoIndexer.AbsentPolicy

open KaitoAutoIndexer.Lib KaitoAutoIndexer.Types
open KaitoAutoIndexer.Cluster KaitoAutoIndexer.Controller KaitoAutoIndexer.System
open KaitoAutoIndexer.ControllerSpec (demo demoWorld)

/-! ### The default of the policy -/

/-- `default: {strategy: Manual}` of `driftRemediationPolicy`. -/
def fillSpec (s : Spec) : Spec :=
  { s with driftRemediationPolicy := some (s.driftRemediationPolicy.getD .manual) }

def fill (o : AutoIndexer) : AutoIndexer := o.withSpec (fillSpec o.spec)

def fillWorld (w : World) : World := { w with stored := w.stored.map fill }

/-- The spec that a user submits is filled in as well. -/
def fillAct : Act → Act
  | .edits spec => .edits (fillSpec spec)
  | a => a

/-- The system behind an API server that fills the default in. -/
abbrev served : System Actor World where
  Calls := Actor.Calls
  Answers := Actor.Answers
  Result := Actor.Result
  Act := Act
  starts := system.starts
  serve i := fun w c r w' => ∃ v, system.serve i (fillWorld w) c r v ∧ w' = fillWorld v
  env a w w' := ∃ v, Env (fillAct a) (fillWorld w) v ∧ w' = fillWorld v

/-- Everything that happened, with the world before it; the last comes first. -/
abbrev History := List (World × served.Event)

abbrev record : served.Observer History := fun x e => (x.1, e) :: x.2

/-- The event as it is once the default has been filled in. -/
def fillEvent : served.Event → served.Event
  | .act a => .act (fillAct a)
  | e => e

/-- The same programs are in flight, in worlds that look the same to them. -/
structure Alike (s s' : served.Config History) : Prop where
  world : fillWorld s.world = fillWorld s'.world
  threads : s'.threads = s.threads

lemma eq_act_of_fillEvent {a : Act} {e : served.Event} (h : fillEvent (.act a) = fillEvent e) :
    ∃ b, e = .act b ∧ fillAct a = fillAct b := by
  cases e with
  | act b => exact ⟨b, rfl, System.Event.act.inj h⟩
  | _ => cases h

lemma eq_of_fillEvent {e e' : served.Event} (he : ∀ a, e ≠ .act a) (h : fillEvent e = fillEvent e') :
    e' = e := by
  cases e' with
  | act b =>
    obtain ⟨a, rfl, -⟩ := eq_act_of_fillEvent h.symm
    exact absurd rfl (he a)
  | _ =>
    cases e with
    | act a => exact absurd rfl (he a)
    | _ => exact h.symm

variable {s s' s₁ : served.Config History} {e e' : served.Event}

/-- A step of the one run is matched by the same step of the other; an edit may leave the policy
Manual out, or have it. -/
lemma Alike.step (h : Alike s s') (hs : System.Step record s e s₁) (he : fillEvent e = fillEvent e') :
    ∃ s₁', System.Step record s' e' s₁' ∧ Alike s₁ s₁' := by
  obtain ⟨hworld, hthreads⟩ := h
  cases hs with
  | @begin i p hi hp =>
    obtain rfl := eq_of_fillEvent (by simp) he
    refine ⟨_, .begin ((congrFun hthreads i).trans hi) hp, hworld, ?_⟩
    exact congrArg (Function.update · i (some p)) hthreads
  | @call i c k r w hi hserve =>
    obtain rfl := eq_of_fillEvent (by simp) he
    obtain ⟨v, hv, rfl⟩ := hserve
    rw [hworld] at hv
    refine ⟨_, .call ((congrFun hthreads i).trans hi) ⟨v, hv, rfl⟩, rfl, ?_⟩
    exact congrArg (Function.update · i (some (k r))) hthreads
  | @finish i a hi =>
    obtain rfl := eq_of_fillEvent (by simp) he
    refine ⟨_, .finish ((congrFun hthreads i).trans hi), hworld, ?_⟩
    exact congrArg (Function.update · i none) hthreads
  | @crash i p hi =>
    obtain rfl := eq_of_fillEvent (by simp) he
    refine ⟨_, .crash ((congrFun hthreads i).trans hi), hworld, ?_⟩
    exact congrArg (Function.update · i none) hthreads
  | @act a w henv =>
    obtain ⟨b, rfl, hb⟩ := eq_act_of_fillEvent he
    obtain ⟨v, hv, rfl⟩ := henv
    rw [hworld, hb] at hv
    exact ⟨_, .act ⟨v, hv, rfl⟩, rfl, hthreads⟩

/-- Nothing has been recorded. -/
def opening (w : World) (threads : (i : Actor) → Option (served.Thread i)) : served.Config History :=
  ⟨w, [], threads⟩

abbrev Reaches (s₀ s : served.Config History) : Prop :=
  System.Reach record (fun _ _ => True) (· = s₀) s

/-- A drift is marked in the phase Scheduled, and there is no policy. -/
def unheeded : AutoIndexer :=
  { demo with
    annotations := ⟨some "true", some (.rfc3339 0), none⟩
    spec := { demo.spec with schedule := some "@hourly" }
    status := ⟨some 500000, some "abc", 1, .scheduled, 1, 0, 7, []⟩ }

def unheededWorld : World := { demoWorld with stored := some unheeded }

/-- How the API server answers when nothing goes wrong. -/
def answer (w : World) (c : Call) : Answer c × World :=
  ((serve (fillWorld w) c).1, fillWorld (serve (fillWorld w) c).2)

/-- The calls of a reconcile, with nobody else in between. -/
def called : Go Err × (World × History) × Bool :=
  reconcile.after (System.answer record (fun _ _ => true) Actor.controller answer) 30
    ((unheededWorld, [(unheededWorld, .begin Actor.controller)]), true)

def reconciledConfig : served.Config History :=
  ⟨called.2.1.1, called.2.1.2, Function.update (fun _ => none) Actor.controller (some called.1)⟩

lemma reaches_reconciled : Reaches (opening unheededWorld fun _ => none) reconciledConfig := by
  have hbegin : Reaches (opening unheededWorld fun _ => none)
      ⟨unheededWorld, [(unheededWorld, .begin Actor.controller)],
        Function.update (fun _ => none) Actor.controller (some reconcile)⟩ :=
    .step (.init rfl) (.begin (i := Actor.controller) rfl rfl) trivial
  have hserve : ∀ w c, served.serve Actor.controller w c (answer w c).1 (answer w c).2 :=
    fun w c => ⟨_, serves_serve True (fillWorld w) c, rfl⟩
  have hafter := System.Reach.after (i := Actor.controller) answer hserve (fun _ _ _ => trivial)
    hbegin (p := reconcile) rfl 30 rfl (System.after_flag_eq_true 30 _ _)
  rw [Function.update_idem] at hafter
  exact hafter

end KaitoAutoIndexer.AbsentPolicy
