import Mathlib

/-!
Programs that run by calling services and looking at the answers.

A program is a tree: it ends with a value, or makes a call and goes on with the answer.
What a call does is not part of the program; a service is a relation between the state
before the call, the call, its answer and the state after it. `Sat` says that a program
run against a service, with other writers interfering between its calls, makes permitted
calls only and ends as promised.
-/

namespace KaitoAutoIndexer.Lib

/-- A program over the calls `C`, where the call `c` is answered by a value of `R c`. -/
inductive Prog (C : Type) (R : C → Type) (α : Type) where
  | ret (a : α)
  | ask (c : C) (k : R c → Prog C R α)

variable {C : Type} {R : C → Type} {α β γ : Type}

namespace Prog

def bind : Prog C R α → (α → Prog C R β) → Prog C R β
  | ret a, f => f a
  | ask c k, f => ask c fun r => (k r).bind f

instance : Monad (Prog C R) where
  pure := ret
  bind := bind

/-- A single call, with its answer as the result. -/
def call (c : C) : Prog C R (R c) := ask c ret

@[simp] lemma pure_eq (a : α) : (pure a : Prog C R α) = ret a := rfl
@[simp] lemma ret_bind (a : α) (f : α → Prog C R β) : (ret a >>= f) = f a := rfl
@[simp] lemma ask_bind (c : C) (k : R c → Prog C R α) (f : α → Prog C R β) :
    (ask c k >>= f) = ask c fun r => k r >>= f := rfl
@[simp] lemma call_bind (c : C) (f : R c → Prog C R β) : (call c >>= f) = ask c f := rfl

lemma bind_assoc (p : Prog C R α) (f : α → Prog C R β) (g : β → Prog C R γ) :
    (p >>= f) >>= g = p >>= fun a => f a >>= g := by
  induction p with
  | ret a => rfl
  | ask c k ih => exact congrArg (ask c) (funext ih)

/-- Running a program against a service that answers every call in one way. -/
def exec {W : Type} (serve : W → (c : C) → R c × W) : Prog C R α → W → α × W
  | ret a, w => (a, w)
  | ask c k, w => exec serve (k (serve w c).1) (serve w c).2

/-- The first `n` calls of such a run. -/
def after {W : Type} (serve : W → (c : C) → R c × W) : ℕ → Prog C R α → W → Prog C R α × W
  | 0, p, w => (p, w)
  | _ + 1, ret a, w => (ret a, w)
  | n + 1, ask c k, w => after serve n (k (serve w c).1) (serve w c).2

end Prog

open Prog

/-! ### Whatever the answers -/

/-- Whatever the answers are, the program makes only calls in `φ` and ends in `P`. -/
def Obeys (φ : C → Prop) (P : α → Prop) : Prog C R α → Prop
  | .ret a => P a
  | .ask c k => φ c ∧ ∀ r, Obeys φ P (k r)

section Obeys

variable {φ ψ : C → Prop} {P : α → Prop} {Q : β → Prop}

@[simp] lemma obeys_ret (a : α) : Obeys φ P (.ret a : Prog C R α) ↔ P a := Iff.rfl

@[simp] lemma obeys_ask (c : C) (k : R c → Prog C R α) :
    Obeys φ P (.ask c k) ↔ φ c ∧ ∀ r, Obeys φ P (k r) := Iff.rfl

lemma obeys_bind (p : Prog C R α) (f : α → Prog C R β) :
    Obeys φ Q (p >>= f) ↔ Obeys φ (fun a => Obeys φ Q (f a)) p := by
  induction p with
  | ret a => rfl
  | ask c k ih => exact and_congr Iff.rfl (forall_congr' ih)

lemma Obeys.mono {P' : α → Prop} (hφ : ∀ c, φ c → ψ c) (hP : ∀ a, P a → P' a)
    {p : Prog C R α} (h : Obeys φ P p) : Obeys ψ P' p := by
  induction p with
  | ret a => exact hP a h
  | ask c k ih => exact ⟨hφ c h.1, fun r => ih r (h.2 r)⟩

lemma Obeys.bind {p : Prog C R α} {f : α → Prog C R β} (h : Obeys φ P p)
    (hf : ∀ a, P a → Obeys φ Q (f a)) : Obeys φ Q (p >>= f) :=
  (obeys_bind p f).mpr (h.mono (fun _ h => h) hf)

end Obeys

/-! ### Against a service, under interference -/

/-- A service: how a call made in one state may be answered, and the state after it. -/
abbrev Service (W : Type) (C : Type) (R : C → Type) := W → (c : C) → R c → W → Prop

/-- What others may do to the state between two calls of a program. -/
structure Rely (W : Type) where
  rel : W → W → Prop
  refl : ∀ w, rel w w
  trans : ∀ {u v w}, rel u v → rel v w → rel u w

/-- Nobody else writes. -/
def Rely.alone (W : Type) : Rely W := ⟨Eq, fun _ => rfl, Eq.trans⟩

@[simp] lemma Rely.alone_rel {W : Type} (u v : W) : (Rely.alone W).rel u v ↔ u = v := Iff.rfl

section Sat

variable {W : Type} (S : Service W C R) (rely : Rely W) (guar : W → C → Prop)

/-- Run from `w` against the service `S`, with others changing the state by `rely` before
each call and at the end, the program makes only calls permitted by `guar`, and the value
and the state it ends with satisfy `Q`. -/
def Sat (Q : α → W → Prop) : Prog C R α → W → Prop
  | .ret a, w => ∀ w', rely.rel w w' → Q a w'
  | .ask c k, w =>
    ∀ w', rely.rel w w' → guar w' c ∧ ∀ r w'', S w' c r w'' → Sat Q (k r) w''

variable {S rely guar} {Q : α → W → Prop}

lemma Sat.mono {guar' : W → C → Prop} {Q' : α → W → Prop}
    (hg : ∀ w c, guar w c → guar' w c) (hp : ∀ a w, Q a w → Q' a w)
    {p : Prog C R α} {w : W} (h : Sat S rely guar Q p w) : Sat S rely guar' Q' p w := by
  induction p generalizing w with
  | ret a => exact fun w' hw => hp a w' (h w' hw)
  | ask c k ih =>
    intro w' hw
    obtain ⟨h1, h2⟩ := h w' hw
    exact ⟨hg w' c h1, fun r w'' hs => ih r (h2 r w'' hs)⟩

/-- A running program's next call is permitted, and once it is answered the rest still
satisfies. -/
lemma Sat.step {c : C} {k : R c → Prog C R α} {w w' : W} {r : R c}
    (h : Sat S rely guar Q (.ask c k) w) (hs : S w c r w') :
    guar w c ∧ Sat S rely guar Q (k r) w' :=
  ⟨(h w (rely.refl w)).1, (h w (rely.refl w)).2 r w' hs⟩

lemma Sat.done {a : α} {w : W} (h : Sat S rely guar Q (.ret a) w) : Q a w :=
  h w (rely.refl w)

/-- Interference does not break what a program satisfies. -/
lemma Sat.stable {p : Prog C R α} {w w' : W} (h : Sat S rely guar Q p w)
    (hw : rely.rel w w') : Sat S rely guar Q p w' := by
  cases p with
  | ret a => exact fun w'' hw' => h w'' (rely.trans hw hw')
  | ask c k => exact fun w'' hw' => h w'' (rely.trans hw hw')

lemma sat_bind (p : Prog C R α) (f : α → Prog C R β) {Q : β → W → Prop} (w : W) :
    Sat S rely guar Q (p >>= f) w ↔
      Sat S rely guar (fun a w' => Sat S rely guar Q (f a) w') p w := by
  induction p generalizing w with
  | ret a => exact ⟨fun h w' hw => h.stable hw, fun h => h w (rely.refl w)⟩
  | ask c k ih =>
    refine forall_congr' fun w' => imp_congr_right fun _ => and_congr Iff.rfl ?_
    exact forall_congr' fun r => forall_congr' fun w'' => imp_congr_right fun _ => ih r w''

lemma Sat.bind {p : Prog C R α} {f : α → Prog C R β} {Q' : β → W → Prop} {w : W}
    (h : Sat S rely guar Q p w) (hf : ∀ a w', Q a w' → Sat S rely guar Q' (f a) w') :
    Sat S rely guar Q' (p >>= f) w :=
  (sat_bind p f w).mpr (h.mono (fun _ _ h => h) hf)

/-- What holds whatever the answers holds against every service. -/
lemma Obeys.sat {φ : C → Prop} {P : α → Prop} {p : Prog C R α} (h : Obeys φ P p)
    (hg : ∀ w c, φ c → guar w c) (w : W) : Sat S rely guar (fun a _ => P a) p w := by
  induction p generalizing w with
  | ret a => exact fun _ _ => h
  | ask c k ih => exact fun w' _ => ⟨hg w' c h.1, fun r w'' _ => ih r (h.2 r) w''⟩

/-- A program whose calls are in `φ` keeps what those calls and the others keep. -/
lemma Obeys.sat_keeps {φ : C → Prop} {P : α → Prop} {J : W → Prop} {p : Prog C R α} {w : W}
    (h : Obeys φ P p) (hg : ∀ w c, J w → φ c → guar w c)
    (hJ : ∀ w c r w', φ c → J w → S w c r w' → J w')
    (hr : ∀ w w', rely.rel w w' → J w → J w') (hw : J w) :
    Sat S rely guar (fun a w' => P a ∧ J w') p w := by
  induction p generalizing w with
  | ret a => exact fun w' hw' => ⟨h, hr w w' hw' hw⟩
  | ask c k ih =>
    intro w' hw'
    have hJw := hr w w' hw' hw
    exact ⟨hg w' c hJw h.1, fun r w'' hs => ih r (h.2 r) (hJ w' c r w'' h.1 hJw hs)⟩

/-- What a program does to a view of the state, it does to the state. -/
lemma Sat.view {V : Type} {f : W → V} {S' : Service V C R} {rely' : Rely V}
    {guar' : V → C → Prop} {Q' : α → V → Prop}
    (hS : ∀ w c r w', S w c r w' → S' (f w) c r (f w'))
    (hr : ∀ w w', rely.rel w w' → rely'.rel (f w) (f w')) {p : Prog C R α} {w : W}
    (h : Sat S' rely' guar' Q' p (f w)) :
    Sat S rely (fun w c => guar' (f w) c) (fun a w => Q' a (f w)) p w := by
  induction p generalizing w with
  | ret a => exact fun w' hw => h (f w') (hr w w' hw)
  | ask c k ih =>
    intro w' hw
    obtain ⟨h1, h2⟩ := h (f w') (hr w w' hw)
    exact ⟨h1, fun r w'' hs => ih r (h2 r (f w'') (hS w' c r w'' hs))⟩

end Sat

/-! ### Whatever the answers, as they are noted -/

section Tells

variable {G : Type} {note : G → (c : C) → R c → G} {lawful : G → C → Prop} {Q : α → G → Prop}
  {g : G}

/-- Every answer is possible, and noted. -/
def noting (note : G → (c : C) → R c → G) : Service G C R := fun g c r g' => g' = note g c r

variable (note lawful Q) in
/-- Run with what it has been told as its state, whatever that is told, a program makes lawful
calls only and ends in `Q`. -/
abbrev Tells (p : Prog C R α) (g : G) : Prop := Sat (noting note) (.alone G) lawful Q p g

lemma tells_ret {a : α} (h : Q a g) : Tells note lawful Q (.ret a) g := by
  rintro _ rfl
  exact h

lemma tells_ask {c : C} {k : R c → Prog C R α} (hc : lawful g c)
    (hk : ∀ r, Tells note lawful Q (k r) (note g c r)) : Tells note lawful Q (.ask c k) g := by
  rintro _ rfl
  refine ⟨hc, fun r g' hg => ?_⟩
  obtain rfl : g' = note g c r := hg
  exact hk r

/-- A program whose calls are in `φ` keeps what the notes on those calls keep. -/
lemma Obeys.tells {φ : C → Prop} {P : α → Prop} {J : G → Prop} {p : Prog C R α}
    (h : Obeys φ P p) (hg : ∀ g c, J g → φ c → lawful g c)
    (hJ : ∀ g c r, φ c → J g → J (note g c r)) (hw : J g) :
    Tells note lawful (fun a g' => P a ∧ J g') p g := by
  refine h.sat_keeps hg ?_ ?_ hw
  · rintro g1 c r _ hc h1 rfl
    exact hJ g1 c r hc h1
  · rintro _ _ rfl h1
    exact h1

end Tells

/-! ### Logs -/

section Logs

variable {g : List (Σ c, R c)} {a : α}

/-- Told the answers in the log, the program makes the calls in it and ends with the value. -/
def Logs : Prog C R α → List (Σ c, R c) → α → Prop
  | .ret a, g, b => g = [] ∧ b = a
  | .ask c k, g, b => ∃ r g', g = ⟨c, r⟩ :: g' ∧ Logs (k r) g' b

@[simp] lemma logs_ret {b : α} : Logs (.ret a : Prog C R α) g b ↔ g = [] ∧ b = a := Iff.rfl

@[simp] lemma logs_ask {c : C} {k : R c → Prog C R α} :
    Logs (.ask c k) g a ↔ ∃ r g', g = ⟨c, r⟩ :: g' ∧ Logs (k r) g' a := Iff.rfl

lemma logs_bind {p : Prog C R α} {f : α → Prog C R β} {b : β} :
    Logs (p >>= f) g b ↔ ∃ g₁ g₂ a, g = g₁ ++ g₂ ∧ Logs p g₁ a ∧ Logs (f a) g₂ b := by
  induction p generalizing g with
  | ret a =>
    constructor
    · exact fun h => ⟨[], g, a, rfl, ⟨rfl, rfl⟩, h⟩
    · rintro ⟨_, g₂, a', rfl, ⟨rfl, rfl⟩, h⟩
      exact h
  | ask c k ih =>
    constructor
    · rintro ⟨r, g', rfl, h⟩
      obtain ⟨g₁, g₂, a, rfl, h₁, h₂⟩ := (ih r).mp h
      exact ⟨⟨c, r⟩ :: g₁, g₂, a, rfl, ⟨r, g₁, rfl, h₁⟩, h₂⟩
    · rintro ⟨_, g₂, a, rfl, ⟨r, g₁, rfl, h₁⟩, h₂⟩
      exact ⟨r, g₁ ++ g₂, rfl, (ih r).mpr ⟨g₁, g₂, a, rfl, h₁, h₂⟩⟩

/-- What holds whatever the answers are holds of a log. -/
lemma Obeys.logs {φ : C → Prop} {P : α → Prop} {p : Prog C R α} (h : Obeys φ P p) (hg : Logs p g a) :
    (∀ e ∈ g, φ e.1) ∧ P a := by
  induction p generalizing g with
  | ret b =>
    obtain ⟨rfl, rfl⟩ := hg
    exact ⟨List.forall_mem_nil _, h⟩
  | ask c k ih =>
    obtain ⟨r, g', rfl, hg'⟩ := hg
    obtain ⟨hcalls, hend⟩ := ih r (h.2 r) hg'
    exact ⟨List.forall_mem_cons.mpr ⟨h.1, hcalls⟩, hend⟩

/-- The log when the calls are answered so, and the value at the end. -/
def logOf (answer : ∀ c, R c) : Prog C R α → List (Σ c, R c) × α
  | .ret a => ([], a)
  | .ask c k =>
    let x := logOf answer (k (answer c))
    (⟨c, answer c⟩ :: x.1, x.2)

lemma logs_logOf (answer : ∀ c, R c) (p : Prog C R α) : Logs p (logOf answer p).1 (logOf answer p).2 := by
  induction p with
  | ret a => exact ⟨rfl, rfl⟩
  | ask c k ih => exact ⟨answer c, _, rfl, ih (answer c)⟩

end Logs

/-! ### Alone -/

section Runs

variable {W : Type} {S : Service W C R} {Q : α → W → Prop}

/-- Run from `w` with nobody else writing, the program ends in `Q`. -/
def Runs (S : Service W C R) (Q : α → W → Prop) : Prog C R α → W → Prop
  | .ret a, w => Q a w
  | .ask c k, w => ∀ r w', S w c r w' → Runs S Q (k r) w'

@[simp] lemma runs_ret (a : α) (w : W) : Runs S Q (.ret a : Prog C R α) w ↔ Q a w := Iff.rfl

@[simp] lemma runs_ask (c : C) (k : R c → Prog C R α) (w : W) :
    Runs S Q (.ask c k) w ↔ ∀ r w', S w c r w' → Runs S Q (k r) w' := Iff.rfl

lemma runs_bind (p : Prog C R α) (f : α → Prog C R β) {Q : β → W → Prop} (w : W) :
    Runs S Q (p >>= f) w ↔ Runs S (fun a w' => Runs S Q (f a) w') p w := by
  induction p generalizing w with
  | ret a => rfl
  | ask c k ih =>
    exact forall_congr' fun r => forall_congr' fun w' => imp_congr_right fun _ => ih r w'

lemma Runs.mono {Q' : α → W → Prop} {p : Prog C R α} {w : W} (h : Runs S Q p w)
    (hp : ∀ a w, Q a w → Q' a w) : Runs S Q' p w := by
  induction p generalizing w with
  | ret a => exact hp a w h
  | ask c k ih => exact fun r w' hs => ih r (h r w' hs)

/-- A service that answers in fewer ways. -/
lemma Runs.anti {S' : Service W C R} {p : Prog C R α} {w : W} (h : Runs S Q p w)
    (hS : ∀ w c r w', S' w c r w' → S w c r w') : Runs S' Q p w := by
  induction p generalizing w with
  | ret a => exact h
  | ask c k ih => exact fun r w' hs => ih r (h r w' (hS w c r w' hs))

lemma Runs.and {Q' : α → W → Prop} {p : Prog C R α} {w : W} (h : Runs S Q p w)
    (h' : Runs S Q' p w) : Runs S (fun a w => Q a w ∧ Q' a w) p w := by
  induction p generalizing w with
  | ret a => exact ⟨h, h'⟩
  | ask c k ih => exact fun r w' hs => ih r (h r w' hs) (h' r w' hs)

lemma Runs.bind {p : Prog C R α} {f : α → Prog C R β} {Q' : β → W → Prop} {w : W}
    (h : Runs S Q p w) (hf : ∀ a w', Q a w' → Runs S Q' (f a) w') :
    Runs S Q' (p >>= f) w :=
  (runs_bind p f w).mpr (h.mono hf)

/-- A program whose calls are in `φ` keeps what those calls keep. -/
lemma Obeys.runs {φ : C → Prop} {P : α → Prop} {J : W → Prop} {p : Prog C R α}
    (h : Obeys φ P p) (hJ : ∀ w c r w', φ c → J w → S w c r w' → J w') {w : W} (hw : J w) :
    Runs S (fun a w' => P a ∧ J w') p w := by
  induction p generalizing w with
  | ret a => exact ⟨h, hw⟩
  | ask c k ih => exact fun r w' hs => ih r (h.2 r) (hJ w c r w' h.1 hw hs)

/-- What a program does to a view of the state, it does to the state, if the view is served as far
as its calls go. -/
lemma Runs.view {V : Type} {S' : Service V C R} {f : W → V} {φ : C → Prop} {P : α → Prop}
    {Q : α → V → Prop} {p : Prog C R α} {w : W} (h : Runs S' Q p (f w)) (ho : Obeys φ P p)
    (hS : ∀ w c r w', φ c → S w c r w' → S' (f w) c r (f w')) :
    Runs S (fun a w => Q a (f w)) p w := by
  induction p generalizing w with
  | ret a => exact h
  | ask c k ih => exact fun r w' hs => ih r (h r (f w') (hS w c r w' ho.1 hs)) (ho.2 r)

/-- What a program does alone, it does while it makes permitted calls only. -/
lemma Runs.sat {φ : C → Prop} {P : α → Prop} {guar : W → C → Prop} {p : Prog C R α} {w : W}
    (h : Runs S Q p w) (ho : Obeys φ P p) (hg : ∀ w c, φ c → guar w c) :
    Sat S (.alone W) guar Q p w := by
  induction p generalizing w with
  | ret a => rintro _ rfl; exact h
  | ask c k ih =>
    rintro _ rfl
    exact ⟨hg _ c ho.1, fun r w' hs => ih r (h r w' hs) (ho.2 r)⟩

lemma Sat.runs {guar : W → C → Prop} {p : Prog C R α} {w : W} (h : Sat S (.alone W) guar Q p w) :
    Runs S Q p w := by
  induction p generalizing w with
  | ret a => exact h.done
  | ask c k ih => exact fun r w' hs => ih r (h.step hs).2

/-- From `w` the program may end with `a` in `w'`. -/
def Ends (S : Service W C R) : Prog C R α → W → α → W → Prop
  | .ret a, w, a', w' => a' = a ∧ w' = w
  | .ask c k, w, a', w' => ∃ r v, S w c r v ∧ Ends S (k r) v a' w'

lemma Ends.bind {p : Prog C R α} {f : α → Prog C R β} {w v w' : W} {a : α} {b : β}
    (h : Ends S p w a v) (hf : Ends S (f a) v b w') : Ends S (p >>= f) w b w' := by
  induction p generalizing w with
  | ret a' =>
    obtain ⟨rfl, rfl⟩ := h
    exact hf
  | ask c k ih =>
    obtain ⟨r, u, hs, h⟩ := h
    exact ⟨r, u, hs, ih r h⟩

lemma Runs.ends {p : Prog C R α} {w w' : W} {a : α} (h : Runs S Q p w) (he : Ends S p w a w') :
    Q a w' := by
  induction p generalizing w with
  | ret a' =>
    obtain ⟨rfl, rfl⟩ := he
    exact h
  | ask c k ih =>
    obtain ⟨r, v, hs, he⟩ := he
    exact ih r (h r v hs) he

/-- What every answer keeps, a program that ends has kept. -/
lemma Ends.keeps {J : W → Prop} {p : Prog C R α} {w w' : W} {a : α} (h : Ends S p w a w')
    (hJ : ∀ w c r w', J w → S w c r w' → J w') (hw : J w) : J w' := by
  induction p generalizing w with
  | ret a' =>
    obtain ⟨rfl, rfl⟩ := h
    exact hw
  | ask c k ih =>
    obtain ⟨r, v, hs, h⟩ := h
    exact ih r h (hJ w c r v hw hs)

/-- However the first part of a program may end, the second part satisfies. -/
lemma Sat.ends {guar : W → C → Prop} {p : Prog C R α} {f : α → Prog C R β}
    {Q : β → W → Prop} {w w' : W} {a : α} (h : Sat S (.alone W) guar Q (p >>= f) w)
    (he : Ends S p w a w') : Sat S (.alone W) guar Q (f a) w' := by
  induction p generalizing w with
  | ret a' =>
    obtain ⟨rfl, rfl⟩ := he
    exact h
  | ask c k ih =>
    obtain ⟨r, u, hs, he⟩ := he
    exact ih r (h.step hs).2 he

/-- Answered in one way, a program that runs alone ends as promised. -/
lemma Runs.exec {serve : W → (c : C) → R c × W} {p : Prog C R α} {w : W}
    (h : Runs S Q p w) (hs : ∀ w c, S w c (serve w c).1 (serve w c).2) :
    Q (p.exec serve w).1 (p.exec serve w).2 := by
  induction p generalizing w with
  | ret a => exact h
  | ask c k ih => exact ih _ (h _ _ (hs w c))

lemma Ends.exec {serve : W → (c : C) → R c × W} (p : Prog C R α) (w : W)
    (hs : ∀ w c, S w c (serve w c).1 (serve w c).2) :
    Ends S p w (p.exec serve w).1 (p.exec serve w).2 := by
  induction p generalizing w with
  | ret a => exact ⟨rfl, rfl⟩
  | ask c k ih => exact ⟨_, _, hs w c, ih _ _⟩

lemma exec_snd_eq {serve : W → (c : C) → R c × W} (hs : ∀ w c, (serve w c).2 = w)
    (p : Prog C R α) (w : W) : (p.exec serve w).2 = w := by
  induction p with
  | ret a => rfl
  | ask c k ih => rw [Prog.exec, hs, ih]

/-! ### Alone, with the answers noted -/

section noted

variable {G : Type} {note : G → (c : C) → R c → G} {lawful : G → C → Prop} {x : W × G}

/-- The service, with the answers it gives noted. -/
def noted (S : Service W C R) (note : G → (c : C) → R c → G) : Service (W × G) C R :=
  fun x c r y => S x.1 c r y.1 ∧ y.2 = note x.2 c r

lemma Runs.noted {p : Prog C R α} (h : Runs S Q p x.1) :
    Runs (noted S note) (fun a y => Q a y.1) p x := by
  induction p generalizing x with
  | ret a => exact h
  | ask c k ih => exact fun r y hs => ih r (h r y.1 hs.1)

/-- What holds whatever a program is told holds of what it has been told, and what its lawful
calls keep is kept. -/
lemma Sat.noted_keeps {G' : Type} {note' : G' → (c : C) → R c → G'} {f : G' → G}
    {P : α → G → Prop} {J : W × G' → Prop} {p : Prog C R α} {x : W × G'}
    (hf : ∀ g c r, f (note' g c r) = note (f g) c r)
    (hJ : ∀ x c r y, lawful (f x.2) c → J x → Lib.noted S note' x c r y → J y)
    (h : Tells note lawful P p (f x.2)) (hx : J x) :
    Runs (Lib.noted S note') (fun a y => P a (f y.2) ∧ J y) p x := by
  induction p generalizing x with
  | ret a => exact ⟨h.done, hx⟩
  | ask c k ih =>
    intro r y hs
    obtain ⟨hc, hk⟩ := h.step (rfl : noting note (f x.2) c r _)
    refine ih r ?_ (hJ x c r y hc hx hs)
    rwa [hs.2, hf]

lemma Sat.noted {P : α → G → Prop} {p : Prog C R α} (h : Tells note lawful P p x.2) :
    Runs (noted S note) (fun a y => P a y.2) p x := by
  have hruns : Runs (Lib.noted S note) (fun a y => P a (id y.2) ∧ True) p x :=
    h.noted_keeps (J := fun _ => True) (fun _ _ _ => rfl) (fun _ _ _ _ _ _ _ => trivial) trivial
  exact hruns.mono fun _ _ h => h.1

/-- What holds of what a program is told is kept with the state by its lawful calls. -/
lemma Sat.keeps {P : α → G → Prop} {J : W → G → Prop} {g : G} {p : Prog C R α} {w : W}
    (h : Tells note lawful P p g)
    (hJ : ∀ w g c r w', lawful g c → J w g → S w c r w' → J w' (note g c r)) (hw : J w g) :
    Runs S (fun a w' => ∃ g', P a g' ∧ J w' g') p w := by
  induction p generalizing w g with
  | ret a => exact ⟨g, h.done, hw⟩
  | ask c k ih =>
    intro r w' hs
    obtain ⟨hc, hk⟩ := h.step (rfl : noting note g c r _)
    exact ih r hk (hJ w g c r w' hc hw hs)

/-- What holds of the result whatever a program is told. -/
lemma Sat.result {P : α → Prop} {g : G} {p : Prog C R α} {w : W}
    (h : Tells note lawful (fun a _ => P a) p g) : Runs S (fun a _ => P a) p w := by
  induction p generalizing g w with
  | ret a => exact h.done
  | ask c k ih => exact fun r _ _ => ih r (h.step rfl).2

end noted

end Runs

end KaitoAutoIndexer.Lib
