import KaitoAutoIndexer.Lib.Prog

/-!
Programs that run side by side on one state. A step is one call of one thread, the start, the
end or a crash of a thread's program, or an act of the environment. An observer keeps a record
of the events; it reads the state and never changes it.

`Outline.reach` is the rule for safety: every thread satisfies under the interference of the
others, and every step keeps the invariant and is interference the other threads put up with.
-/

namespace KaitoAutoIndexer.Lib

open Prog

/-- Threads `ι` on a state `W`, and the acts of their environment. -/
structure System (ι W : Type) where
  Calls : ι → Type
  Answers : (i : ι) → Calls i → Type
  Result : ι → Type
  Act : Type
  /-- The programs a thread may start. -/
  starts : (i : ι) → Prog (Calls i) (Answers i) (Result i) → Prop
  serve : (i : ι) → Service W (Calls i) (Answers i)
  env : Act → W → W → Prop

variable {ι W : Type}

namespace System

inductive Event (S : System ι W)
  | begin (i : ι)
  | call (i : ι) (c : S.Calls i) (r : S.Answers i c)
  | finish (i : ι) (a : S.Result i)
  | crash (i : ι)
  | act (e : S.Act)

abbrev Thread (S : System ι W) (i : ι) := Prog (S.Calls i) (S.Answers i) (S.Result i)

/-- A state, the observer's record `G`, and the programs in flight. -/
structure Config (S : System ι W) (G : Type) where
  world : W
  record : G
  threads : (i : ι) → Option (S.Thread i)

variable {S : System ι W} {G : Type}

/-- The state and the record. -/
def Config.view (s : S.Config G) : W × G := (s.world, s.record)

/-- How an observer updates its record at an event. -/
abbrev Observer (S : System ι W) (G : Type) := W × G → S.Event → G

variable (obs : S.Observer G) (cond : W × G → S.Event → Prop)

/-- The service a thread meets: steps meet `cond`, the observer looks on, and the invariant
may be relied on at every call. -/
def service (inv : W × G → Prop) (i : ι) : Service (W × G) (S.Calls i) (S.Answers i) :=
  fun x c r x' => inv x ∧ cond x (.call i c r) ∧ S.serve i x.1 c r x'.1 ∧
    x'.2 = obs x (.call i c r)

/-- What has to be shown of the threads for `inv` to hold throughout. -/
structure Outline where
  inv : W × G → Prop
  rely : ι → Rely (W × G)
  guar : (i : ι) → W × G → S.Calls i → Prop
  post : (i : ι) → S.Result i → W × G → Prop
  sat : ∀ i p x, inv x → S.starts i p → cond x (.begin i) →
    Sat (service obs cond inv i) (rely i) (guar i) (post i) p (x.1, obs x (.begin i))
  begins : ∀ i x, inv x → cond x (.begin i) → inv (x.1, obs x (.begin i)) ∧
    ∀ j, j ≠ i → (rely j).rel x (x.1, obs x (.begin i))
  calls : ∀ i x c r x', guar i x c → service obs cond inv i x c r x' →
    inv x' ∧ ∀ j, j ≠ i → (rely j).rel x x'
  finishes : ∀ i a x, inv x → post i a x → cond x (.finish i a) →
    inv (x.1, obs x (.finish i a)) ∧ ∀ j, j ≠ i → (rely j).rel x (x.1, obs x (.finish i a))
  crashes : ∀ i x, inv x → cond x (.crash i) → inv (x.1, obs x (.crash i)) ∧
    ∀ j, j ≠ i → (rely j).rel x (x.1, obs x (.crash i))
  acts : ∀ e x w, inv x → S.env e x.1 w → cond x (.act e) →
    inv (w, obs x (.act e)) ∧ ∀ j, (rely j).rel x (w, obs x (.act e))

variable {obs cond}

/-- The invariant, and that every program in flight satisfies what its thread promises. -/
def Outline.Holds (O : Outline obs cond) (s : S.Config G) : Prop :=
  O.inv s.view ∧ ∀ i p, s.threads i = some p →
    Sat (service obs cond O.inv i) (O.rely i) (O.guar i) (O.post i) p s.view

/-- A call that a thread is about to make is one it may make. -/
lemma Outline.Holds.guar (O : Outline obs cond) {s : S.Config G} (h : O.Holds s) {i : ι}
    {c : S.Calls i} {k : S.Answers i c → S.Thread i} (hi : s.threads i = some (.ask c k)) :
    O.guar i s.view c :=
  (h.2 i _ hi s.view ((O.rely i).refl _)).1

/-- A thread that has ended has kept its promise. -/
lemma Outline.Holds.post (O : Outline obs cond) {s : S.Config G} (h : O.Holds s) {i : ι}
    {a : S.Result i} (hi : s.threads i = some (.ret a)) : O.post i a s.view :=
  (h.2 i _ hi).done

/-! ### Steps and runs -/

variable [DecidableEq ι]

inductive Step (obs : S.Observer G) : S.Config G → S.Event → S.Config G → Prop
  | begin {s : S.Config G} {i : ι} {p : S.Thread i} (hi : s.threads i = none)
      (hp : S.starts i p) :
      Step obs s (.begin i)
        ⟨s.world, obs s.view (.begin i), Function.update s.threads i (some p)⟩
  | call {s : S.Config G} {i : ι} {c : S.Calls i} {k : S.Answers i c → S.Thread i}
      {r : S.Answers i c} {w : W} (hi : s.threads i = some (.ask c k))
      (hs : S.serve i s.world c r w) :
      Step obs s (.call i c r)
        ⟨w, obs s.view (.call i c r), Function.update s.threads i (some (k r))⟩
  | finish {s : S.Config G} {i : ι} {a : S.Result i} (hi : s.threads i = some (.ret a)) :
      Step obs s (.finish i a)
        ⟨s.world, obs s.view (.finish i a), Function.update s.threads i none⟩
  | crash {s : S.Config G} {i : ι} {p : S.Thread i} (hi : s.threads i = some p) :
      Step obs s (.crash i)
        ⟨s.world, obs s.view (.crash i), Function.update s.threads i none⟩
  | act {s : S.Config G} {e : S.Act} {w : W} (he : S.env e s.world w) :
      Step obs s (.act e) ⟨w, obs s.view (.act e), s.threads⟩

/-- What is reached from `init` by steps that meet `cond`. -/
inductive Reach (obs : S.Observer G) (cond : W × G → S.Event → Prop)
    (init : S.Config G → Prop) : S.Config G → Prop
  | init {s} (h : init s) : Reach obs cond init s
  | step {s e s'} (h : Reach obs cond init s) (hs : Step obs s e s') (hc : cond s.view e) :
      Reach obs cond init s'

lemma Reach.mono {cond' : W × G → S.Event → Prop} {init : S.Config G → Prop}
    (hc : ∀ x e, cond x e → cond' x e) {s : S.Config G} (h : Reach obs cond init s) :
    Reach obs cond' init s := by
  induction h with
  | init h => exact .init h
  | step _ hs hce ih => exact .step ih hs (hc _ _ hce)

/-- An observer that keeps less sees the same events. -/
lemma Step.map {G' : Type} {obs' : S.Observer G'} {f : G → G'}
    (hobs : ∀ x e, f (obs x e) = obs' (x.1, f x.2) e) {s s' : S.Config G} {e : S.Event}
    (h : Step obs s e s') :
    Step obs' ⟨s.world, f s.record, s.threads⟩ e ⟨s'.world, f s'.record, s'.threads⟩ := by
  cases h with
  | begin hi hp =>
    rw [hobs]
    exact .begin hi hp
  | call hi hs =>
    rw [hobs]
    exact .call hi hs
  | finish hi =>
    rw [hobs]
    exact .finish hi
  | crash hi =>
    rw [hobs]
    exact .crash hi
  | act he =>
    rw [hobs]
    exact .act he

lemma Reach.map {G' : Type} {obs' : S.Observer G'} {cond' : W × G' → S.Event → Prop}
    {init : S.Config G → Prop} {init' : S.Config G' → Prop} {f : G → G'}
    (hobs : ∀ x e, f (obs x e) = obs' (x.1, f x.2) e)
    (hcond : ∀ x e, cond x e → cond' (x.1, f x.2) e)
    (hinit : ∀ s, init s → init' ⟨s.world, f s.record, s.threads⟩) {s : S.Config G}
    (h : Reach obs cond init s) : Reach obs' cond' init' ⟨s.world, f s.record, s.threads⟩ := by
  induction h with
  | init h => exact .init (hinit _ h)
  | step _ hs hc ih => exact .step ih (hs.map hobs) (hcond _ _ hc)

private lemma update_some {β : ι → Type} {f : (i : ι) → Option (β i)} {i j : ι}
    {v : Option (β i)} {p : β j} (h : Function.update f i v j = some p) :
    (∃ hj : j = i, v = some (hj ▸ p)) ∨ j ≠ i ∧ f j = some p := by
  by_cases hj : j = i
  · subst hj
    left
    exact ⟨rfl, by simpa using h⟩
  · right
    exact ⟨hj, by simpa [Function.update_of_ne hj] using h⟩

lemma Outline.step (O : Outline obs cond) {s s' : S.Config G} {e : S.Event} (h : O.Holds s)
    (hs : Step obs s e s') (hc : cond s.view e) : O.Holds s' := by
  obtain ⟨hinv, hsat⟩ := h
  cases hs with
  | @begin i p hi hp =>
    obtain ⟨h1, h2⟩ := O.begins i _ hinv hc
    refine ⟨h1, fun j q hq => ?_⟩
    rcases update_some hq with ⟨rfl, hv⟩ | ⟨hj, hq⟩
    · obtain rfl : p = q := by simpa using hv
      exact O.sat j p _ hinv hp hc
    · exact (hsat j q hq).stable (h2 j hj)
  | @call i c k r w hi hw =>
    have hservice : service obs cond O.inv i s.view c r (w, obs s.view (.call i c r)) :=
      ⟨hinv, hc, hw, rfl⟩
    obtain ⟨hguar, hnext⟩ := (hsat i _ hi).step hservice
    obtain ⟨h1, h2⟩ := O.calls i _ c r _ hguar hservice
    refine ⟨h1, fun j q hq => ?_⟩
    rcases update_some hq with ⟨rfl, hv⟩ | ⟨hj, hq⟩
    · obtain rfl : k r = q := by simpa using hv
      exact hnext
    · exact (hsat j q hq).stable (h2 j hj)
  | @finish i a hi =>
    obtain ⟨h1, h2⟩ := O.finishes i a _ hinv (hsat i _ hi).done hc
    refine ⟨h1, fun j q hq => ?_⟩
    rcases update_some hq with ⟨rfl, hv⟩ | ⟨hj, hq⟩
    · cases hv
    · exact (hsat j q hq).stable (h2 j hj)
  | @crash i p hi =>
    obtain ⟨h1, h2⟩ := O.crashes i _ hinv hc
    refine ⟨h1, fun j q hq => ?_⟩
    rcases update_some hq with ⟨rfl, hv⟩ | ⟨hj, hq⟩
    · cases hv
    · exact (hsat j q hq).stable (h2 j hj)
  | @act e w he =>
    obtain ⟨h1, h2⟩ := O.acts e _ w hinv he hc
    exact ⟨h1, fun j q hq => (hsat j q hq).stable (h2 j)⟩

/-- The rule: from states with the invariant and no program in flight, it always holds. -/
theorem Outline.reach (O : Outline obs cond) {init : S.Config G → Prop}
    (hinit : ∀ s, init s → O.inv s.view ∧ ∀ i, s.threads i = none) {s : S.Config G}
    (h : Reach obs cond init s) : O.Holds s := by
  induction h with
  | init h =>
    obtain ⟨h1, h2⟩ := hinit _ h
    exact ⟨h1, fun i p hp => by simp [h2 i] at hp⟩
  | step _ hs hc ih => exact O.step ih hs hc

/-! ### What every thread is told -/

/-- For every thread: what it may have been told since it began, and what it may do then. -/
structure Account (S : System ι W) where
  Know : ι → Type
  fresh : (i : ι) → Know i
  note : (i : ι) → Know i → (c : S.Calls i) → S.Answers i c → Know i
  lawful : (i : ι) → Know i → S.Calls i → Prop
  ends : (i : ι) → S.Result i → Know i → Prop
  tells : ∀ i p, S.starts i p → Tells (note i) (lawful i) (ends i) p (fresh i)

/-- What an event does to the state. -/
def Happens (S : System ι W) (w : W) : S.Event → W → Prop
  | .call i c r, w' => S.serve i w c r w'
  | .act e, w' => S.env e w w'
  | _, w' => w' = w

namespace Account

variable (A : Account S)

abbrev Notes := (i : ι) → A.Know i

/-- The notes after an event. -/
def watch (k : A.Notes) : S.Event → A.Notes
  | .begin i => Function.update k i (A.fresh i)
  | .call i c r => Function.update k i (A.note i (k i) c r)
  | _ => k

/-- What the notes say of an event. -/
def Allows (k : A.Notes) : S.Event → Prop
  | .call i c _ => A.lawful i (k i) c
  | .finish i a => A.ends i a (k i)
  | _ => True

/-- An observer that also keeps the notes. -/
def observer (obs : W × A.Notes × G → S.Event → G) : S.Observer (A.Notes × G) :=
  fun x e => (A.watch x.2.1 e, obs x e)

lemma watch_of_ne {k : A.Notes} {i j : ι} {c : S.Calls i} {r : S.Answers i c} (h : j ≠ i) :
    A.watch k (.call i c r) j = k j := Function.update_of_ne h _ _

@[simp] lemma watch_self {k : A.Notes} {i : ι} {c : S.Calls i} {r : S.Answers i c} :
    A.watch k (.call i c r) i = A.note i (k i) c r := Function.update_self _ _ _

@[simp] lemma watch_begin {k : A.Notes} {i : ι} : A.watch k (.begin i) i = A.fresh i :=
  Function.update_self _ _ _

/-- Others leave the notes of a thread alone. -/
def mine (i : ι) : Rely (W × A.Notes × G) where
  rel x x' := x'.2.1 i = x.2.1 i
  refl _ := rfl
  trans h h' := h'.trans h

variable {A} {obs : W × A.Notes × G → S.Event → G} {cond : W × A.Notes × G → S.Event → Prop}

/-- Every thread does what its notes allow. -/
def outline (A : Account S) (obs : W × A.Notes × G → S.Event → G)
    (cond : W × A.Notes × G → S.Event → Prop) : Outline (A.observer obs) cond where
  inv _ := True
  rely := A.mine
  guar i x c := A.lawful i (x.2.1 i) c
  post i a x := A.ends i a (x.2.1 i)
  sat i p x _ hp _ := by
    have h : Tells (A.note i) (A.lawful i) (A.ends i) p (A.watch x.2.1 (.begin i) i) := by
      rw [watch_begin]
      exact A.tells i p hp
    refine h.view (f := fun y : W × A.Notes × G => y.2.1 i) ?_ ?_
    · rintro y c r y' ⟨-, -, -, hy⟩
      change y'.2.1 i = A.note i (y.2.1 i) c r
      rw [hy]
      exact A.watch_self
    · exact fun _ _ hr => Eq.symm hr
  begins i x _ _ := ⟨trivial, fun j hj => Function.update_of_ne hj _ _⟩
  calls i x c r x' _ hx := by
    obtain ⟨-, -, -, hx⟩ := hx
    refine ⟨trivial, fun j hj => ?_⟩
    change x'.2.1 j = x.2.1 j
    rw [hx]
    exact A.watch_of_ne hj
  finishes i a x _ _ _ := ⟨trivial, fun _ _ => rfl⟩
  crashes i x _ _ := ⟨trivial, fun _ _ => rfl⟩
  acts e x w _ _ _ := ⟨trivial, fun _ => rfl⟩

variable {init : S.Config (A.Notes × G) → Prop} {s s' : S.Config (A.Notes × G)} {e : S.Event}

/-- Whatever happens in a run is allowed by the notes. -/
theorem allows (hinit : ∀ s, init s → ∀ i, s.threads i = none)
    (h : Reach (A.observer obs) cond init s) (hs : Step (A.observer obs) s e s') :
    A.Allows s.record.1 e ∧ S.Happens s.world e s'.world ∧
      s'.record = (A.watch s.record.1 e, obs s.view e) := by
  have hO := (outline A obs cond).reach (fun s hi => ⟨trivial, hinit s hi⟩) h
  cases hs with
  | begin hi hp => exact ⟨trivial, rfl, rfl⟩
  | call hi hw => exact ⟨hO.guar (outline A obs cond) hi, hw, rfl⟩
  | finish hi => exact ⟨hO.post (outline A obs cond) hi, rfl, rfl⟩
  | crash hi => exact ⟨trivial, rfl, rfl⟩
  | act he => exact ⟨trivial, he, rfl⟩

/-- **An invariant of runs**: it holds at the start, and whatever the notes allow keeps it. -/
theorem invariant {I : W × A.Notes × G → Prop}
    (hinit : ∀ s, init s → I s.view ∧ ∀ i, s.threads i = none)
    (hstep : ∀ w k g e w', I (w, k, g) → cond (w, k, g) e → A.Allows k e → S.Happens w e w' →
      I (w', A.watch k e, obs (w, k, g) e))
    (h : Reach (A.observer obs) cond init s) : I s.view := by
  induction h with
  | init h => exact (hinit _ h).1
  | @step s e s' h hs hc ih =>
    obtain ⟨hallow, hw, hr⟩ := allows (fun s hi => (hinit s hi).2) h hs
    have hnext := hstep s.world s.record.1 s.record.2 e s'.world ih hc hallow hw
    change I (s'.world, s'.record)
    rw [hr]
    exact hnext

end Account

/-! ### A thread that runs alone -/

/-- One way to answer every call of a thread, with the record kept; the flag says whether
every call so far met the test. -/
def answer (obs : S.Observer G) (test : W × G → S.Event → Bool) (i : ι)
    (serve : W → (c : S.Calls i) → S.Answers i c × W) (x : (W × G) × Bool) (c : S.Calls i) :
    S.Answers i c × (W × G) × Bool :=
  let (r, w) := serve x.1.1 c
  (r, (w, obs x.1 (.call i c r)), x.2 && test x.1 (.call i c r))

variable {test : W × G → S.Event → Bool} {i : ι}
  {serve : W → (c : S.Calls i) → S.Answers i c × W}

omit [DecidableEq ι] in
variable (obs test serve) in
private lemma after_flag (n : ℕ) (p : S.Thread i) (x : W × G) :
    (p.after (answer obs test i serve) n (x, false)).2.2 = false := by
  induction n generalizing p x with
  | zero => rfl
  | succ n ih =>
    cases p with
    | ret a => rfl
    | ask c k => exact ih _ _

private lemma reach_of_after {init : S.Config G → Prop}
    (hserve : ∀ w c, S.serve i w c (serve w c).1 (serve w c).2)
    (htest : ∀ x e, test x e = true → cond x e) {s : S.Config G} (h : Reach obs cond init s)
    {p q : S.Thread i} (hp : s.threads i = some p) {n : ℕ} {x : W × G}
    (hx : p.after (answer obs test i serve) n (s.view, true) = (q, x, true)) :
    Reach obs cond init ⟨x.1, x.2, Function.update s.threads i (some q)⟩ := by
  induction n generalizing s p with
  | zero =>
    obtain ⟨rfl, rfl⟩ : p = q ∧ s.view = x := by simpa [Prog.after] using hx
    rwa [← hp, Function.update_eq_self]
  | succ n ih =>
    cases p with
    | ret a =>
      obtain ⟨rfl, rfl⟩ : Prog.ret a = q ∧ s.view = x := by simpa [Prog.after] using hx
      rwa [← hp, Function.update_eq_self]
    | ask c k =>
      set r := (serve s.world c).1 with hr
      set w := (serve s.world c).2 with hw
      have hx' : (k r).after (answer obs test i serve) n
          ((w, obs s.view (.call i c r)), true && test s.view (.call i c r)) = (q, x, true) := hx
      have hflag : test s.view (.call i c r) = true := by
        by_contra hf
        have h0 := after_flag obs test serve n (k r) (w, obs s.view (.call i c r))
        rw [Bool.not_eq_true] at hf
        rw [hf, Bool.and_false] at hx'
        rw [hx'] at h0
        simp at h0
      rw [hflag] at hx'
      have hcall : Step obs s (.call i c r)
          ⟨w, obs s.view (.call i c r), Function.update s.threads i (some (k r))⟩ :=
        .call hp (hserve s.world c)
      have hnext := ih (Reach.step h hcall (htest _ _ hflag)) (by simp [hr]) hx'
      simpa using hnext

/-- A program in flight may make its next calls with nobody else in between. -/
lemma Reach.after {init : S.Config G → Prop} (serve : W → (c : S.Calls i) → S.Answers i c × W)
    (hserve : ∀ w c, S.serve i w c (serve w c).1 (serve w c).2)
    (htest : ∀ x e, test x e = true → cond x e) {s : S.Config G} (h : Reach obs cond init s)
    {p : S.Thread i} (hp : s.threads i = some p) (n : ℕ) {y : S.Thread i × (W × G) × Bool}
    (hy : p.after (answer obs test i serve) n (s.view, true) = y) (hx : y.2.2 = true) :
    Reach obs cond init ⟨y.2.1.1, y.2.1.2, Function.update s.threads i (some y.1)⟩ := by
  obtain ⟨q, x, b⟩ := y
  obtain rfl : b = true := hx
  exact reach_of_after hserve htest h hp hy

omit [DecidableEq ι] in
lemma after_flag_eq_true (n : ℕ) (p : S.Thread i) (x : W × G) :
    (p.after (answer obs (fun _ _ => true) i serve) n (x, true)).2.2 = true := by
  induction n generalizing p x with
  | zero => rfl
  | succ n ih =>
    cases p with
    | ret a => rfl
    | ask c k => exact ih _ _

/-! ### Simulations -/

/-- Any number of steps. -/
abbrev Steps (obs : S.Observer G) : S.Config G → S.Config G → Prop :=
  Relation.ReflTransGen fun s s' => ∃ e, Step obs s e s'

lemma Reach.steps {init : S.Config G → Prop} {s s' : S.Config G}
    (h : Reach obs (fun _ _ => True) init s) (hs : Steps obs s s') :
    Reach obs (fun _ _ => True) init s' := by
  induction hs with
  | refl => exact h
  | tail _ hstep ih =>
    obtain ⟨e, hstep⟩ := hstep
    exact .step ih hstep trivial

/-- The rule for simulations: where every step is matched by steps, every run is matched by one. -/
theorem Reach.simulates {κ V H : Type} [DecidableEq κ] {T : System κ V} {obs' : T.Observer H}
    {init : S.Config G → Prop} {init' : T.Config H → Prop} {rel : S.Config G → T.Config H → Prop}
    (hinit : ∀ s, init s → ∃ s', init' s' ∧ rel s s')
    (hstep : ∀ {s e s₁ s'}, rel s s' → Step obs s e s₁ → ∃ s₁', Steps obs' s' s₁' ∧ rel s₁ s₁')
    {s : S.Config G} (h : Reach obs cond init s) :
    ∃ s', Reach obs' (fun _ _ => True) init' s' ∧ rel s s' := by
  induction h with
  | init h =>
    obtain ⟨s', hs', hrel⟩ := hinit _ h
    exact ⟨s', .init hs', hrel⟩
  | step _ hs _ ih =>
    obtain ⟨s', hs', hrel⟩ := ih
    obtain ⟨s₁', hsteps, hrel⟩ := hstep hrel hs
    exact ⟨s₁', hs'.steps hsteps, hrel⟩

end System

end KaitoAutoIndexer.Lib
