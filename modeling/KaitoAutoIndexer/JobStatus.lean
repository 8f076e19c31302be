import KaitoAutoIndexer.ControllerSpec

/-!
The classification of the Jobs of an AutoIndexer, and what it depends on.
-/

namespace KaitoAutoIndexer.JobStatus

open KaitoAutoIndexer.Types KaitoAutoIndexer.Cluster KaitoAutoIndexer.Controller

variable {js : List Job} {j : Job} {s : JobScan}

/-- What `getJobStatus` returns. -/
def jobStatus (js : List Job) : ℕ × ℕ × ℕ × Bool :=
  ((scanJobs js).running, (scanJobs js).failed, (scanJobs js).completed, (scanJobs js).latestJobFailed)

def Running (j : Job) : Prop := 0 < j.active

def Failing (j : Job) : Prop := j.active = 0 ∧ 0 < j.failed

def Completed (j : Job) : Prop := j.active = 0 ∧ j.failed = 0 ∧ 0 < j.succeeded

instance : DecidablePred Running := fun j => inferInstanceAs (Decidable (0 < j.active))
instance : DecidablePred Failing := fun _ => inferInstanceAs (Decidable (_ ∧ _))
instance : DecidablePred Completed := fun _ => inferInstanceAs (Decidable (_ ∧ _ ∧ _))

/-- The start times, in the order of the list. -/
def starts (js : List Job) : List Time := js.filterMap Job.startTime

lemma mem_starts {t : Time} : t ∈ starts js ↔ ∃ j ∈ js, j.startTime = some t := List.mem_filterMap

/-- None of the Jobs with a pod started after `t`. -/
def NoneAfter (js : List Job) (t : Time) : Prop :=
  ∀ j ∈ js, j.waiting = false → ∀ u, j.startTime = some u → u ≤ t

/-! ### A turn -/

lemma waiting_of_failing (hj : Failing j) : j.waiting = false := by
  have hne : j.failed ≠ 0 := hj.2.ne'
  simp [Job.waiting, hne]

/-- A Job is counted by its pods. -/
lemma scanJob_counts (s : JobScan) (j : Job) :
    (scanJob s j).running = s.running + (if Running j then 1 else 0) ∧
    (scanJob s j).failed = s.failed + (if Failing j then 1 else 0) ∧
    (scanJob s j).completed = s.completed + (if Completed j then 1 else 0) := by
  unfold scanJob Running Failing Completed
  extract_lets last later last'
  rcases Nat.eq_zero_or_pos j.active with ha | ha
  · rcases Nat.eq_zero_or_pos j.failed with hf | hf
    · by_cases hs : 0 < j.succeeded <;> simp [ha, hf, hs]
    · have hne : j.failed ≠ 0 := by omega
      simp [ha, hf, hne]
  · have hne : j.active ≠ 0 := by omega
    simp [ha, hne]

/-- A Job that did not start is not looked at for the latest. -/
lemma scanJob_unstarted (hj : j.startTime = none) :
    (scanJob s j).lastJobTimestamp = s.lastJobTimestamp ∧
      (scanJob s j).latestJobFailed = s.latestJobFailed := by
  unfold scanJob startedAfter
  cases s.lastJobTimestamp <;> simp only [hj] <;> split_ifs <;> simp_all

/-- The first start time is compared with itself. -/
lemma scanJob_first {t : Time} (hj : j.startTime = some t) (hs : s.lastJobTimestamp = none) :
    (scanJob s j).lastJobTimestamp = some t ∧
      (scanJob s j).latestJobFailed = s.latestJobFailed := by
  unfold scanJob startedAfter
  simp only [hj, hs, Option.isNone_none, if_true, lt_irrefl, decide_false, Bool.false_eq_true, if_false]
  split_ifs <;> exact ⟨rfl, rfl⟩

lemma scanJob_later {t l : Time} (hj : j.startTime = some t) (hs : s.lastJobTimestamp = some l)
    (hlt : l < t) (hw : j.waiting = false) :
    (scanJob s j).lastJobTimestamp = some t ∧
      ((scanJob s j).latestJobFailed = true ↔ Failing j) := by
  unfold scanJob startedAfter Failing
  simp only [hj, hs, Option.isNone_some, Bool.false_eq_true, if_false, hlt, decide_true, if_true]
  split_ifs with ha hf hsucc
  · exact ⟨rfl, by simp; omega⟩
  · exact ⟨rfl, by simp; omega⟩
  · exact ⟨rfl, by simp; omega⟩
  · simp [Job.waiting] at hw
    omega

lemma scanJob_kept {t l : Time} (hj : j.startTime = some t) (hs : s.lastJobTimestamp = some l)
    (hk : ¬ l < t ∨ j.waiting = true) :
    (scanJob s j).lastJobTimestamp = some l ∧
      (scanJob s j).latestJobFailed = s.latestJobFailed := by
  unfold scanJob startedAfter
  simp only [hj, hs, Option.isNone_some, Bool.false_eq_true, if_false]
  rcases hk with hlt | hw
  · simp only [hlt, decide_false, Bool.false_eq_true, if_false]
    split_ifs <;> exact ⟨rfl, rfl⟩
  · simp only [Job.waiting, Bool.and_eq_true, beq_iff_eq] at hw
    simp [hw]

/-! ### The scan -/

/-- Having seen `seen`, the last start time is the first of all, or that of a Job with a pod, and
the latest Job is taken to have failed if it has and is not the first. -/
structure Tracks (seen : List Job) (last : Option Time) (latestJobFailed : Bool) : Prop where
  unset : last = none → starts seen = [] ∧ latestJobFailed = false
  first : ∀ l, last = some l → ∃ t, (starts seen).head? = some t ∧ t ≤ l ∧
    (t = l ∨ ∃ j ∈ seen, j.waiting = false ∧ j.startTime = some l)
  noneAfter : ∀ l, last = some l → NoneAfter seen l
  latest : ∀ l, last = some l → (latestJobFailed = true ↔
    (starts seen).head? ≠ some l ∧ ∃ j ∈ seen, Failing j ∧ j.startTime = some l)

variable {seen : List Job} {l t : Time} {failed : Bool}

lemma starts_snoc (seen : List Job) (j : Job) :
    starts (seen ++ [j]) = starts seen ++ j.startTime.toList := by
  simp only [starts, List.filterMap_append]
  cases hj : j.startTime <;> simp [hj]

lemma noneAfter_snoc (hn : NoneAfter seen l)
    (hj : j.waiting = false → ∀ u, j.startTime = some u → u ≤ l) : NoneAfter (seen ++ [j]) l := by
  intro x hx hw u hu
  rcases List.mem_append.mp hx with hx | hx
  · exact hn x hx hw u hu
  · rw [List.mem_singleton] at hx
    subst hx
    exact hj hw u hu

lemma tracks_nil : Tracks [] none false := by
  constructor <;> simp [starts]

lemma Tracks.unstarted {last : Option Time} (h : Tracks seen last failed) (hj : j.startTime = none) :
    Tracks (seen ++ [j]) last failed where
  unset hl := by simpa [starts_snoc, hj] using h.unset hl
  first l hl := by
    obtain ⟨t, ht, hle, hor⟩ := h.first l hl
    refine ⟨t, by simpa [starts_snoc, hj] using ht, hle, hor.imp_right ?_⟩
    rintro ⟨x, hx, hw⟩
    exact ⟨x, List.mem_append_left _ hx, hw⟩
  noneAfter l hl := noneAfter_snoc (h.noneAfter l hl) fun _ u hu => by simp [hj] at hu
  latest l hl := by simpa [starts_snoc, hj, or_and_right, exists_or] using h.latest l hl

lemma Tracks.start (h : Tracks seen none failed) (hj : j.startTime = some t) :
    Tracks (seen ++ [j]) (some t) failed := by
  obtain ⟨hstarts, hfailed⟩ := h.unset rfl
  have hhead : (starts (seen ++ [j])).head? = some t := by simp [starts_snoc, hstarts, hj]
  have hnone : ∀ x ∈ seen, ∀ u, x.startTime ≠ some u := by
    intro x hx u hu
    have hmem : u ∈ starts seen := mem_starts.mpr ⟨x, hx, hu⟩
    simp [hstarts] at hmem
  refine ⟨nofun, ?_, ?_, ?_⟩
  · rintro _ ⟨⟩
    exact ⟨t, hhead, le_rfl, .inl rfl⟩
  · rintro _ ⟨⟩
    refine noneAfter_snoc (fun x hx _ u hu => absurd hu (hnone x hx u)) fun _ u hu => ?_
    exact (Option.some.inj (hj.symm.trans hu)).ge
  · rintro _ ⟨⟩
    rw [hfailed, hhead]
    simp

lemma Tracks.later (h : Tracks seen (some l) failed) (hj : j.startTime = some t) (hlt : l < t)
    (hw : j.waiting = false) {failed' : Bool} (hf : failed' = true ↔ Failing j) :
    Tracks (seen ++ [j]) (some t) failed' := by
  obtain ⟨t₀, hhead, hle, -⟩ := h.first l rfl
  have hhead' : (starts (seen ++ [j])).head? = some t₀ := by
    rw [starts_snoc, List.head?_append, hhead]
    rfl
  refine ⟨nofun, ?_, ?_, ?_⟩
  · rintro _ ⟨⟩
    exact ⟨t₀, hhead', hle.trans hlt.le, .inr ⟨j, by simp, hw, hj⟩⟩
  · rintro _ ⟨⟩
    refine noneAfter_snoc (fun x hx hw u hu => (h.noneAfter l rfl x hx hw u hu).trans hlt.le) ?_
    exact fun _ u hu => (Option.some.inj (hj.symm.trans hu)).ge
  · rintro _ ⟨⟩
    have hne : t₀ ≠ t := (hle.trans_lt hlt).ne
    rw [hf, hhead']
    constructor
    · exact fun hfail => ⟨by simpa using hne, j, by simp, hfail, hj⟩
    · rintro ⟨-, x, hx, hfail, hxt⟩
      rcases List.mem_append.mp hx with hx | hx
      · -- a Job with a pod seen before did not start this late
        have hxl := h.noneAfter l rfl x hx (waiting_of_failing hfail) t hxt
        exact absurd hxl (not_le.mpr hlt)
      · rwa [List.mem_singleton.mp hx] at hfail

lemma Tracks.kept (h : Tracks seen (some l) failed) (hj : j.startTime = some t)
    (hk : ¬ l < t ∨ j.waiting = true) (hn : t ∉ starts seen) :
    Tracks (seen ++ [j]) (some l) failed := by
  obtain ⟨t₀, hhead, hle, hor⟩ := h.first l rfl
  have hhead' : (starts (seen ++ [j])).head? = some t₀ := by
    rw [starts_snoc, List.head?_append, hhead]
    rfl
  have hne : l ≠ t := by
    rintro rfl
    rcases hor with rfl | ⟨x, hx, -, hxl⟩
    · exact hn (List.mem_of_head? hhead)
    · exact hn (mem_starts.mpr ⟨x, hx, hxl⟩)
  refine ⟨nofun, ?_, ?_, ?_⟩
  · rintro _ ⟨⟩
    refine ⟨t₀, hhead', hle, hor.imp_right ?_⟩
    rintro ⟨x, hx, hw⟩
    exact ⟨x, List.mem_append_left _ hx, hw⟩
  · rintro _ ⟨⟩
    refine noneAfter_snoc (h.noneAfter l rfl) fun hw u hu => ?_
    rw [← Option.some.inj (hj.symm.trans hu)]
    rcases hk with hlt | hw'
    · exact not_lt.mp hlt
    · rw [hw] at hw'
      cases hw'
  · rintro _ ⟨⟩
    rw [h.latest l rfl, hhead, hhead']
    simp [or_and_right, exists_or, hj, hne.symm]

lemma tracks_step (h : Tracks seen s.lastJobTimestamp s.latestJobFailed)
    (hn : (starts (seen ++ [j])).Nodup) :
    Tracks (seen ++ [j]) (scanJob s j).lastJobTimestamp (scanJob s j).latestJobFailed := by
  cases hj : j.startTime with
  | none =>
    obtain ⟨hl, hf⟩ := scanJob_unstarted (s := s) hj
    rw [hl, hf]
    exact h.unstarted hj
  | some t =>
    cases hs : s.lastJobTimestamp with
    | none =>
      obtain ⟨hl, hf⟩ := scanJob_first hj hs
      rw [hl, hf]
      exact (hs ▸ h).start hj
    | some l =>
      have h := hs ▸ h
      by_cases hlater : l < t ∧ j.waiting = false
      · obtain ⟨hl, hf⟩ := scanJob_later hj hs hlater.1 hlater.2
        rw [hl]
        exact h.later hj hlater.1 hlater.2 hf
      · have hk : ¬ l < t ∨ j.waiting = true := by
          rw [not_and_or] at hlater
          exact hlater.imp_right (by simp)
        obtain ⟨hl, hf⟩ := scanJob_kept hj hs hk
        rw [hl, hf]
        refine h.kept hj hk fun hmem => ?_
        rw [starts_snoc, hj] at hn
        exact List.disjoint_of_nodup_append hn hmem (by simp)

/-- The scan of a list whose start times are distinct. -/
lemma tracks_scanJobs (hn : (starts js).Nodup) :
    Tracks js (scanJobs js).lastJobTimestamp (scanJobs js).latestJobFailed := by
  induction js using List.reverseRecOn with
  | nil => exact tracks_nil
  | append_singleton js j ih =>
    have hn' : (starts js).Nodup := by
      rw [starts_snoc] at hn
      exact hn.of_append_left
    have hfold : scanJobs (js ++ [j]) = scanJob (scanJobs js) j := by
      simp [scanJobs, List.foldl_append]
    rw [hfold]
    exact tracks_step (ih hn') hn

/-- Every Job is counted once, by its pods. -/
lemma scanJobs_counts (js : List Job) : (scanJobs js).running = js.countP Running ∧
    (scanJobs js).failed = js.countP Failing ∧ (scanJobs js).completed = js.countP Completed := by
  induction js using List.reverseRecOn with
  | nil => exact ⟨rfl, rfl, rfl⟩
  | append_singleton js j ih =>
    obtain ⟨hrun, hfail, hcomp⟩ := ih
    have hfold : scanJobs (js ++ [j]) = scanJob (scanJobs js) j := by
      simp [scanJobs, List.foldl_append]
    obtain ⟨hrun', hfail', hcomp'⟩ := scanJob_counts (scanJobs js) j
    rw [hfold, hrun', hfail', hcomp', hrun, hfail, hcomp]
    simp [List.countP_append, List.countP_singleton]

/-- The latest Job is taken to have failed if it has, among those with a pod, and the first of the
list did not start later. -/
lemma latestJobFailed_iff (hn : (starts js).Nodup) : (scanJobs js).latestJobFailed = true ↔
    ∃ m ∈ js, Failing m ∧ ∃ t, m.startTime = some t ∧ NoneAfter js t ∧
      ∃ t₀, (starts js).head? = some t₀ ∧ t₀ < t := by
  have h := tracks_scanJobs hn
  cases hl : (scanJobs js).lastJobTimestamp with
  | none =>
    obtain ⟨hstarts, hfailed⟩ := h.unset hl
    simp [hfailed, hstarts]
  | some l =>
    obtain ⟨t₀, hhead, hle, hor⟩ := h.first l hl
    rw [h.latest l hl]
    constructor
    · rintro ⟨hne, m, hm, hfail, hml⟩
      have hne : t₀ ≠ l := by simpa [hhead] using hne
      exact ⟨m, hm, hfail, l, hml, h.noneAfter l hl, t₀, hhead, lt_of_le_of_ne hle hne⟩
    · rintro ⟨m, hm, hfail, t, hmt, hafter, t₁, hhead', hlt⟩
      obtain rfl : t₁ = t₀ := Option.some.inj (hhead'.symm.trans hhead)
      have htl : t ≤ l := h.noneAfter l hl m hm (waiting_of_failing hfail) t hmt
      have hlt' : l ≤ t := by
        rcases hor with rfl | ⟨x, hx, hw, hxl⟩
        · exact hlt.le
        · exact hafter x hx hw l hxl
      obtain rfl : t = l := le_antisymm htl hlt'
      exact ⟨by simpa [hhead] using hlt.ne, m, hm, hfail, hmt⟩

/-! ### The classification -/

/-- The latest Job of those that started. -/
def LatestStarted (js : List Job) (m : Job) : Prop :=
  m ∈ js ∧ ∃ t, m.startTime = some t ∧ ∀ u ∈ starts js, u ≤ t

/-- The result does not depend on the order, tells whether the latest of the Jobs that started has
failed, and counts every Job with a succeeded pod, and none active, as completed. -/
structure WellClassified (js : List Job) : Prop where
  order : ∀ js', js'.Perm js → jobStatus js' = jobStatus js
  latest : (jobStatus js).2.2.2 = true ↔
    ∃ m, LatestStarted js m ∧ m.active = 0 ∧ m.succeeded = 0 ∧ 0 < m.failed
  completed : (jobStatus js).2.2.1 = js.countP fun j => j.active = 0 ∧ 0 < j.succeeded

/-- No inactive Job has pods of both kinds, and if the latest of the Jobs with a pod has failed, it
is the earliest of all that started, and a Job without a pod started later. -/
structure Unambiguous (js : List Job) : Prop where
  pure : ∀ j ∈ js, ¬ (j.active = 0 ∧ 0 < j.failed ∧ 0 < j.succeeded)
  failing : ∀ m ∈ js, Failing m → ∀ t, m.startTime = some t → NoneAfter js t →
    (∀ u ∈ starts js, t ≤ u) ∧ ∃ u ∈ starts js, t < u

lemma noneAfter_perm {js js' : List Job} (hp : js'.Perm js) (hn : NoneAfter js t) :
    NoneAfter js' t := fun j hj => hn j (hp.mem_iff.mp hj)

lemma starts_perm {js js' : List Job} (hp : js'.Perm js) : (starts js').Perm (starts js) :=
  hp.filterMap _

/-- With `m` at the head of the list no later Job has failed. -/
lemma latestJobFailed_cons {m : Job} (hn : (starts (m :: js)).Nodup) (hm : m.startTime = some t)
    (hafter : NoneAfter (m :: js) t) :
    (scanJobs (m :: js)).latestJobFailed = false := by
  rw [Bool.eq_false_iff]
  intro hf
  obtain ⟨x, hx, hfail, u, hu, -, t₀, hhead, hlt⟩ := (latestJobFailed_iff hn).mp hf
  have hhead' : (starts (m :: js)).head? = some t := by simp [starts, hm]
  obtain rfl : t = t₀ := Option.some.inj (hhead'.symm.trans hhead)
  exact absurd (hafter x hx (waiting_of_failing hfail) u hu) (not_le.mpr hlt)

/-- With an earlier Job at the head of the list the latest one has failed. -/
lemma latestJobFailed_cons_of_lt {m j : Job} {u : Time} (hn : (starts (j :: js)).Nodup)
    (hmem : m ∈ j :: js) (hfail : Failing m) (hm : m.startTime = some t)
    (hafter : NoneAfter (j :: js) t) (hj : j.startTime = some u) (hlt : u < t) :
    (scanJobs (j :: js)).latestJobFailed = true :=
  (latestJobFailed_iff hn).mpr ⟨m, hmem, hfail, t, hm, hafter, u, by simp [starts, hj], hlt⟩

lemma countP_completed (hpure : ∀ j ∈ js, ¬ (j.active = 0 ∧ 0 < j.failed ∧ 0 < j.succeeded)) :
    js.countP Completed = js.countP fun j => j.active = 0 ∧ 0 < j.succeeded := by
  refine List.countP_congr fun j hj => ?_
  have hj := hpure j hj
  rw [decide_eq_true_iff, decide_eq_true_iff, Completed]
  omega

/-- If the counts agree, no Job is left out. -/
lemma pure_of_countP
    (hc : js.countP Completed = js.countP fun j => j.active = 0 ∧ 0 < j.succeeded) :
    ∀ j ∈ js, ¬ (j.active = 0 ∧ 0 < j.failed ∧ 0 < j.succeeded) := by
  rintro j hj ⟨ha, hf, hs⟩
  have hsub : (js.filter fun j => Completed j).Sublist
      (js.filter fun j => j.active = 0 ∧ 0 < j.succeeded) := by
    refine List.monotone_filter_right js fun j hj => ?_
    rw [decide_eq_true_iff] at hj ⊢
    exact ⟨hj.1, hj.2.2⟩
  have heq := hsub.eq_of_length (by simpa [List.countP_eq_length_filter] using hc)
  have hmem : j ∈ js.filter fun j => Completed j := by
    rw [heq]
    simp [hj, ha, hs]
  have hcompleted : Completed j := by simpa using (List.mem_filter.mp hmem).2
  exact absurd hcompleted.2.1 (by omega)

/-- The Jobs are classified well exactly if they are unambiguous. -/
theorem wellClassified_iff (hn : (starts js).Nodup) : WellClassified js ↔ Unambiguous js := by
  have hcounts := fun js : List Job => scanJobs_counts js
  constructor
  · intro h
    have hpure : ∀ j ∈ js, ¬ (j.active = 0 ∧ 0 < j.failed ∧ 0 < j.succeeded) :=
      pure_of_countP ((hcounts js).2.2.symm.trans h.completed)
    refine ⟨hpure, fun m hm hfail t hmt hafter => ?_⟩
    -- listed first, the failed Job is not seen
    have hfirst : (m :: js.erase m).Perm js := (List.perm_cons_erase hm).symm
    have hunseen : (scanJobs js).latestJobFailed = false := by
      have hsame := congrArg (·.2.2.2) (h.order _ hfirst)
      rw [← latestJobFailed_cons ((starts_perm hfirst).nodup_iff.mpr hn) hmt
        (noneAfter_perm hfirst hafter)]
      exact hsame.symm
    constructor
    · intro u hu
      refine not_lt.mp fun hlt => ?_
      obtain ⟨j, hj, hju⟩ := mem_starts.mp hu
      have hfirst : (j :: js.erase j).Perm js := (List.perm_cons_erase hj).symm
      have hsame := congrArg (·.2.2.2) (h.order _ hfirst)
      have hseen := latestJobFailed_cons_of_lt ((starts_perm hfirst).nodup_iff.mpr hn)
        (hfirst.mem_iff.mpr hm) hfail hmt (noneAfter_perm hfirst hafter) hju hlt
      simp only [jobStatus, hseen, hunseen] at hsame
      cases hsame
    · by_contra hno
      push Not at hno
      have hzero : m.succeeded = 0 := by
        have hm := hpure m hm
        have hfail := hfail
        unfold Failing at hfail
        omega
      have hlatest := h.latest.mpr ⟨m, ⟨hm, t, hmt, hno⟩, hfail.1, hzero, hfail.2⟩
      simp only [jobStatus, hunseen] at hlatest
      cases hlatest
  · intro h
    have hunseen : ∀ js', js'.Perm js → (scanJobs js').latestJobFailed = false := by
      intro js' hp
      rw [Bool.eq_false_iff]
      intro hf
      obtain ⟨m, hm, hfail, t, hmt, hafter, t₀, hhead, hlt⟩ :=
        (latestJobFailed_iff ((starts_perm hp).nodup_iff.mpr hn)).mp hf
      have hearliest := (h.failing m (hp.mem_iff.mp hm) hfail t hmt (noneAfter_perm hp.symm hafter)).1
      have hmem : t₀ ∈ starts js := (starts_perm hp).mem_iff.mp (List.mem_of_head? hhead)
      exact absurd (hearliest t₀ hmem) (not_le.mpr hlt)
    refine ⟨fun js' hp => ?_, ?_, ?_⟩
    · obtain ⟨hr, hf, hc⟩ := hcounts js
      obtain ⟨hr', hf', hc'⟩ := hcounts js'
      simp only [jobStatus, hr, hf, hc, hr', hf', hc', hunseen js' hp, hunseen js (.refl _),
        hp.countP_eq]
    · simp only [jobStatus, hunseen js (.refl _), Bool.false_eq_true, false_iff]
      rintro ⟨m, ⟨hm, t, hmt, hlast⟩, ha, hs, hf⟩
      have hafter : NoneAfter js t := fun j hj _ u hu => hlast u (mem_starts.mpr ⟨j, hj, hu⟩)
      obtain ⟨u, hu, hlt⟩ := (h.failing m hm ⟨ha, hf⟩ t hmt hafter).2
      exact absurd (hlast u hu) (not_le.mpr hlt)
    · exact (hcounts js).2.2.trans (countP_completed h.pure)

def demoJob (active succeeded failed : ℕ) (startTime : Option Time) : Job :=
  ⟨"demo-job", active, succeeded, failed, startTime, ControllerSpec.demoTemplate⟩

theorem wellClassified_iff_demo :
    WellClassified [demoJob 0 1 0 (some 1), demoJob 1 0 0 none, demoJob 0 0 1 (some 2)] ↔
      Unambiguous [demoJob 0 1 0 (some 1), demoJob 1 0 0 none, demoJob 0 0 1 (some 2)] :=
  wellClassified_iff (by decide)

/-- The only Job has failed, and is not seen. -/
theorem not_wellClassified :
    ¬ ∀ js : List Job, (starts js).Nodup → WellClassified js := by
  intro hall
  have h := hall [demoJob 0 0 1 (some 1)] (by decide)
  have hlatest := h.latest.mpr ⟨demoJob 0 0 1 (some 1), ⟨by simp, 1, rfl, by decide⟩, by decide⟩
  exact absurd hlatest (by decide)

end KaitoAutoIndexer.JobStatus
