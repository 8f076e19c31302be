import KaitoAutoIndexer.StaleVerdict

/-!
What stands behind the mark of a drift, and behind the deletion of an index that follows from it:
a count, made while the AutoIndexer was what it was when it was marked, that found another number of
documents than its status says.
-/

namespace KaitoAutoIndexer.Alarms

open KaitoAutoIndexer.Lib KaitoAutoIndexer.Types KaitoAutoIndexer.Cluster
open KaitoAutoIndexer.Controller KaitoAutoIndexer.System KaitoAutoIndexer.SystemSteps
open KaitoAutoIndexer.ControllerSteps (Knows)
open KaitoAutoIndexer.DetectorSteps (Seen Skipped cleared)
open KaitoAutoIndexer.DriftMark (Detects driftDetected_of_effect)
open KaitoAutoIndexer.StaleVerdict (count counted_eq Remediates lostWorld)

/-! ### The counts behind the marks -/

/-- The world at the last count of the detector that was answered, and the world at the count on
which the last mark of a drift rests. -/
structure Log where
  counted : Option World
  alarm : Option World

def blank : Log := ⟨none, none⟩

def witness (x : World × account.Notes × Log) : system.Event → Log
  | .call .detector (.httpGetDocumentCount _ _ _) (.ok _) => { x.2.2 with counted := some x.1 }
  | .call .detector (.update obj) (.ok _) =>
    if obj.driftDetected then { x.2.2 with alarm := x.2.2.counted } else x.2.2
  | _ => x.2.2

/-- In the world `u` the AutoIndexer `x` is one to check, and it has drifted. -/
structure TrueAlarm (u : World) (x : AutoIndexer) : Prop where
  stored : u.stored = some x
  checked : ¬ Skipped x
  drift : x.status.numOfDocumentInIndex ≠ count u x

/-- The last alarm was true, of the AutoIndexer that is stored in `w`, or of an earlier version. -/
def Alarmed (g : Log) (w : World) : Prop :=
  ∃ u x, g.alarm = some u ∧ TrueAlarm u x ∧ Snapshot x w

variable {w w' : World} {k : account.Notes} {g : Log} {e : system.Event} {o o' x : AutoIndexer}

lemma Snapshot.happens (hx : Snapshot x w) (h : system.Happens w e w') : Snapshot x w' := by
  intro o' ho'
  obtain ⟨o, ho, hlater⟩ := later_of_happens h ho'
  exact (hx o ho).trans hlater

lemma Alarmed.happens (ha : Alarmed g w) (h : system.Happens w e w') : Alarmed g w' := by
  obtain ⟨u, x, hu, halarm, hx⟩ := ha
  exact ⟨u, x, hu, halarm, Snapshot.happens hx h⟩

/-! ### What the log says -/

/-- The stored object has the mark, or the controller has seen it with the mark. -/
def Noticed (w : World) (k : account.Notes) : Prop :=
  (∃ o, w.stored = some o ∧ o.driftDetected = true) ∨
    ∃ f x, Recalls f ∧ f (k .controller) = some x ∧ x.driftDetected = true

structure Inv (w : World) (k : account.Notes) (g : Log) : Prop where
  counted : ∀ o n, w.stored = some o → o ∈ (k .detector : Seen).listed →
    (k .detector : Seen).Counted o (.ok n) →
      ∃ u, g.counted = some u ∧ u.stored = some o ∧ n = count u o
  alarm : Noticed w k → Alarmed g w

/-- The log keeps the last count, but for a new one. -/
lemma counted_witness (he : ∀ ep i a n, e ≠ .call .detector (.httpGetDocumentCount ep i a) (.ok n)) :
    (witness (w, k, g) e).counted = g.counted := by
  unfold witness
  split
  · exact absurd rfl (he _ _ _ _)
  · split <;> rfl
  · rfl

/-- The log keeps the last alarm, but for a new one. -/
lemma alarm_witness (he : Detects e = false) : (witness (w, k, g) e).alarm = g.alarm := by
  unfold witness
  split
  · rfl
  · rename_i obj a
    rw [if_neg (by simpa [Detects] using he)]
  · rfl

lemma counted_step (hk : Sound w k) (hinv : Inv w k g) (hl : account.Allows k e)
    (h : system.Happens w e w') {n : ℕ} (ho' : w'.stored = some o')
    (hlist : o' ∈ (account.watch k e .detector : Seen).listed)
    (hcount : (account.watch k e .detector : Seen).Counted o' (.ok n)) :
    ∃ u, (witness (w, k, g) e).counted = some u ∧ u.stored = some o' ∧ n = count u o' := by
  by_cases he : ∃ ep i a m, e = .call .detector (.httpGetDocumentCount ep i a) (.ok m)
  · obtain ⟨ep, i, a, m, rfl⟩ := he
    rw [System.Account.watch_self] at hcount
    obtain ⟨rfl, rfl, rfl, rfl⟩ : ep = _ ∧ i = _ ∧ a = _ ∧ m = n := by
      simpa [Seen.Counted, DetectorSteps.look] using hcount
    obtain ⟨hn, rfl⟩ := counted_eq h
    exact ⟨w', rfl, ho', hn⟩
  · rw [counted_witness fun ep i a m hm => he ⟨ep, i, a, m, hm⟩]
    have hcounted : (k .detector : Seen).Counted o' (.ok n) := by
      rcases counted_watch hcount with hcounted | rfl
      · exact hcounted
      · exact absurd ⟨_, _, _, _, rfl⟩ he
    have hlist : o' ∈ (k .detector : Seen).listed := by
      rcases listed_watch hlist with hlist | ⟨os, rfl, -⟩
      · exact hlist
      · -- a check lists before it counts
        cases hl with
        | list hfresh =>
          rw [hfresh] at hcounted
          cases hcounted
    obtain ⟨o, ho, -⟩ := later_of_happens h ho'
    obtain rfl := eq_of_mentioned hk.snapshots h (.inr (.inl hlist)) ho ho'
    exact hinv.counted o' n ho hlist hcounted

/-- A new alarm is true. -/
lemma alarmed_of_detects (hk : Sound w k) (hinv : Inv w k g) (hl : account.Allows k e)
    (h : system.Happens w e w') (hd : Detects e = true) : Alarmed (witness (w, k, g) e) w' := by
  unfold Detects at hd
  split at hd
  · rename_i obj a
    have hwitness : witness (w, k, g) (.call .detector (.update obj) (.ok a)) =
        { g with alarm := g.counted } := if_pos hd
    -- the update is accepted only with the version that is stored
    obtain ⟨o, ho, hv⟩ : ∃ o, w.stored = some o ∧ o.resourceVersion = obj.resourceVersion := by
      rcases h with h | ⟨-, ⟨m, hm⟩, -⟩
      · simp only [Cluster.serve] at h
        split at h
        · rename_i o ho
          refine ⟨o, ho, ?_⟩
          by_contra hne
          rw [if_pos hne] at h
          cases h
        · cases h
      · cases hm
    rw [hwitness]
    cases hl with
    | @mark x t n hlist hskip hcounted hn =>
      obtain rfl : o = x := (hk.snapshots x (.inr (.inl hlist))).eq ho hv
      obtain ⟨u, hu, hstored, hheld⟩ := hinv.counted o n ho hlist hcounted
      exact ⟨u, o, hu, ⟨hstored, hskip, fun heq => hn (congrArg int32 (heq.trans hheld.symm))⟩,
        Snapshot.happens (hk.snapshots o (.inr (.inl hlist))) h⟩
    | clear => simp [cleared, AutoIndexer.driftDetected] at hd
  · cases hd

lemma alarm_step (hk : Sound w k) (hinv : Inv w k g) (hl : account.Allows k e)
    (h : system.Happens w e w') (hn : Noticed w' (account.watch k e)) :
    Alarmed (witness (w, k, g) e) w' := by
  cases hd : Detects e with
  | true => exact alarmed_of_detects hk hinv hl h hd
  | false =>
    -- the mark was there before
    have hstored : ∀ o', w'.stored = some o' → o'.driftDetected = true → Noticed w k := by
      intro o' ho' hmark
      rcases effect_of_happens hk.snapshots hl h with ⟨hs, -⟩ | ⟨o, ho, heffect⟩
      · exact .inl ⟨o', hs ▸ ho', hmark⟩
      · rw [ho'] at heffect
        refine .inl ⟨o, ho, ?_⟩
        by_contra hnot
        rw [driftDetected_of_effect hk ho heffect hd (by simpa using hnot)] at hmark
        cases hmark
    have hbefore : Noticed w k := by
      rcases hn with ⟨o', ho', hmark⟩ | ⟨f, x, hf, hx, hmark⟩
      · exact hstored o' ho' hmark
      · rcases recalls_watch hf h hx with hx | hx
        · exact .inr ⟨f, x, hf, hx, hmark⟩
        · exact hstored x hx hmark
    obtain ⟨u, x, hu, halarm, hx⟩ := (hinv.alarm hbefore).happens h
    exact ⟨u, x, (alarm_witness hd).trans hu, halarm, hx⟩

/-! ### Runs -/

/-- Nothing is in flight, and no drift is marked. -/
def Opening (s : System.Config system (account.Notes × Log)) : Prop :=
  StartWith blank s ∧ ∀ o, s.world.stored = some o → o.driftDetected = false

variable {cond : World × account.Notes × Log → system.Event → Prop}
  {s s' : System.Config system (account.Notes × Log)}

lemma inv_of_reach (h : System.Reach (account.observer witness) cond Opening s) :
    Sound s.world s.record.1 ∧ Inv s.world s.record.1 s.record.2 := by
  refine invariant_of_reach (I := fun x => Inv x.1 x.2.1 x.2.2) ?_ ?_ h
  · rintro s ⟨⟨hstart, hr⟩, hopen⟩
    refine ⟨hstart, ?_⟩
    change Inv s.world s.record.1 s.record.2
    rw [hstart.2, hr]
    refine ⟨fun o n _ hlist => ?_, ?_⟩
    · cases hlist
    · rintro (⟨o, ho, hmark⟩ | ⟨f, x, hf, hx, -⟩)
      · rw [hopen o ho] at hmark
        cases hmark
      · rcases hf with rfl | rfl | rfl <;> cases hx
  · intro w k g e w' hk hinv _ hl hw
    exact ⟨fun o n ho hlist hcount => counted_step hk hinv hl hw ho hlist hcount,
      fun hn => alarm_step hk hinv hl hw hn⟩

/-- A remediation that deletes an index has seen the mark. -/
lemma noticed_of_remediates (hl : account.Allows k e) (hr : Remediates k e) : Noticed w k := by
  unfold Remediates at hr
  split at hr
  · obtain ⟨y, hy, hlive⟩ := hr
    cases hl with
    | plain hplain => exact hplain.elim
    | @remediate x _ _ hread _ _ _ hrem =>
      exact .inr ⟨Knows.read, x, .inr (.inl rfl), hread, hrem.detected⟩
    | collect hgot hdeleting =>
      rw [hgot] at hy
      cases hy
      rw [hdeleting] at hlive
      cases hlive
  · exact hr.elim

/-- **No false alarms**: behind every mark of a drift, and behind every deletion of an index in a
remediation, stands a count that was made while the AutoIndexer was scheduled and not suspended, and
that found another number of documents than its status said at that time. -/
theorem alarms_true (h : System.Reach (account.observer witness) (fun _ _ => True) Opening s) :
    (∀ o, s.world.stored = some o → o.driftDetected = true → Alarmed s.record.2 s.world) ∧
      ∀ e s', System.Step (account.observer witness) s e s' → Remediates s.record.1 e →
        Alarmed s.record.2 s.world := by
  obtain ⟨-, hinv⟩ := inv_of_reach h
  refine ⟨fun o ho hmark => hinv.alarm (.inl ⟨o, ho, hmark⟩), fun e s' hs hr => ?_⟩
  obtain ⟨hl, -, -⟩ := allows_of_reach (fun s hs => hs.1.1) h hs
  exact hinv.alarm (noticed_of_remediates hl hr)

/-- The first ten calls of a check over the lost document. -/
def checking : Go Unit × (World × account.Notes × Log) × Bool :=
  ticking witness (fun _ _ => true) 10 (before lostWorld blank)

/-- The check, when it has marked the drift. -/
def alarmed : System.Config system (account.Notes × Log) :=
  ⟨checking.2.1.1, checking.2.1.2,
    Function.update (before lostWorld blank).threads .detector (some checking.1)⟩

lemma checking_run : checking.2.2 = true ∧ alarmed.world.stored.any AutoIndexer.driftDetected = true := by
  decide +kernel

lemma reach_alarmed : System.Reach (account.observer witness) (fun _ _ => True) Opening alarmed := by
  have hbefore : Opening (before lostWorld blank) := by
    refine ⟨⟨start_before lostWorld _, rfl⟩, ?_⟩
    rintro o ⟨⟩
    decide
  exact reach_ticking (fun _ _ _ => trivial) (.init hbefore) rfl trivial 10 checking_run.1

theorem alarms_true_lost : ∃ o, alarmed.world.stored = some o ∧ o.driftDetected = true ∧
    Alarmed alarmed.record.2 alarmed.world := by
  obtain ⟨o, ho, hmark⟩ := (Option.any_eq_true _ _).mp checking_run.2
  exact ⟨o, ho, hmark, (alarms_true reach_alarmed).1 o ho hmark⟩

end KaitoAutoIndexer.Alarms
