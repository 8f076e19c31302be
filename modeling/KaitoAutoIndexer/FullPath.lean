import KaitoAutoIndexer.Job

/-!
When a run of the indexing job takes in its whole source again, and not the increment since
an earlier run.
-/

namespace KaitoAutoIndexer.FullPath

open KaitoAutoIndexer.Types KaitoAutoIndexer.Conditions
open KaitoAutoIndexer.JobClient KaitoAutoIndexer.Git KaitoAutoIndexer.Kusto KaitoAutoIndexer.Job

/-- Git: `_index_all_files` runs. Database: `initialQuery` runs. A static source has no other
way. -/
def takesFullPath (lastTimestamp : Option Time) : Handler → Prop
  | .git h => h.path = .full
  | .static _ => True
  | .database h => h.query lastTimestamp = .ok (.plain h.initialQuery)

/-- A run that reads the object takes the full path. -/
def FullRun (o : AutoIndexer) : Prop :=
  ∀ h, createDataSourceHandler o = some h → takesFullPath o.status.lastIndexingTimestamp h

/-- The full path is taken whatever the conditions are: a commit is pinned, or nothing has
been indexed yet. -/
def fullAnyway (lastTimestamp : Option Time) : Handler → Prop
  | .git h => h.commit.any (· ≠ "") ∨ h.lastIndexedCommit = ""
  | .static _ => True
  | .database _ => lastTimestamp = none

/-- The full path is taken even without an `AutoIndexerError` condition. -/
def FullAnyway (o : AutoIndexer) : Prop :=
  ∀ h, createDataSourceHandler o = some h → fullAnyway o.status.lastIndexingTimestamp h

lemma path_eq_full_iff (h : GitHandler) :
    h.path = .full ↔
      hadErrors h.conditions = true ∨ h.commit.any (· ≠ "") ∨ h.lastIndexedCommit = "" := by
  unfold GitHandler.path
  generalize h.commit.any (· ≠ "") = pinned
  cases pinned
  · by_cases hl : h.lastIndexedCommit = "" <;> cases hadErrors h.conditions <;> simp [hl]
  · simp

lemma query_eq_initial_iff (h : KustoHandler) (t : Option Time) :
    h.query t = .ok (.plain h.initialQuery) ↔ hadErrors h.conditions = true ∨ t = none := by
  unfold KustoHandler.query
  cases t with
  | none => simp
  | some t =>
    cases he : hadErrors h.conditions
    · cases h.incrementalQuery <;> simp
    · simp

/-- The handler of an object sees its conditions. -/
lemma takesFullPath_iff {o : AutoIndexer} {h : Handler} (hh : createDataSourceHandler o = some h)
    (lastTimestamp : Option Time) : takesFullPath lastTimestamp h ↔
      hadErrors o.status.conditions = true ∨ fullAnyway lastTimestamp h := by
  cases h with
  | git g =>
    have hc : g.conditions = o.status.conditions := by
      unfold createDataSourceHandler at hh
      repeat' split at hh
      all_goals simp_all [gitHandler]
      rw [← hh]
    rw [← hc]
    exact path_eq_full_iff g
  | static s => simp [takesFullPath, fullAnyway]
  | database d =>
    have hc : d.conditions = o.status.conditions := by
      unfold createDataSourceHandler at hh
      repeat' split at hh
      all_goals simp_all [kustoHandler]
      rw [← hh]
    rw [← hc]
    exact query_eq_initial_iff d _

lemma fullRun_iff (o : AutoIndexer) :
    FullRun o ↔ hadErrors o.status.conditions = true ∨ FullAnyway o := by
  unfold FullRun FullAnyway
  by_cases he : hadErrors o.status.conditions = true
  · simp only [he, true_or, iff_true]
    exact fun h hh => (takesFullPath_iff hh _).mpr (.inl he)
  · simp only [he, false_or, Bool.false_eq_true]
    refine forall_congr' fun h => imp_congr_right fun hh => ?_
    rw [takesFullPath_iff hh]
    simp [he]

/-- `FullAnyway` looks at the spec, the commit and the timestamp only. -/
lemma FullAnyway.congr {a b : AutoIndexer} (hs : b.spec = a.spec)
    (hc : b.status.lastIndexedCommit = a.status.lastIndexedCommit)
    (ht : b.status.lastIndexingTimestamp = a.status.lastIndexingTimestamp)
    (ha : FullAnyway a) : FullAnyway b := by
  intro h hh
  rw [ht]
  unfold createDataSourceHandler at hh
  rw [hs] at hh
  split at hh
  · cases hh
  rename_i hne
  split at hh
  · rename_i htype
    split at hh
    · rename_i g hg
      split at hh
      · cases hh
      rename_i hr
      cases hh
      have := ha (.git (gitHandler a g)) (by simp [createDataSourceHandler, hne, htype, hg, hr])
      simpa [fullAnyway, gitHandler, hc] using this
    · cases hh
  · obtain ⟨_, -, rfl⟩ := Option.map_eq_some_iff.mp hh
    trivial
  · rename_i htype
    split at hh
    · rename_i d hd
      split at hh
      · cases hh
      rename_i hr
      cases hh
      exact ha (.database (kustoHandler a d)) (by simp [createDataSourceHandler, hne, htype, hd, hr])
    · cases hh

lemma fullAnyway_of_git {o : AutoIndexer} (ht : o.spec.dataSource.type = .git)
    (hc : o.status.lastIndexedCommit = some "") : FullAnyway o := by
  intro h hh
  unfold createDataSourceHandler at hh
  split at hh
  · cases hh
  simp only [ht] at hh
  split at hh
  · split at hh
    · cases hh
    · cases hh
      exact .inr (by simp [gitHandler, hc])
  · cases hh

end KaitoAutoIndexer.FullPath
