import KaitoAutoIndexer.Admission
import KaitoAutoIndexer.System
import KaitoAutoIndexer.ControllerSpec

/-!
The query of a run over a database, for every AutoIndexer that the webhook admits.
-/

namespace KaitoAutoIndexer.KustoQueries

open KaitoAutoIndexer.Lib KaitoAutoIndexer.Lib.Separated KaitoAutoIndexer.Types
open KaitoAutoIndexer.Conditions
open KaitoAutoIndexer.Cluster KaitoAutoIndexer.JobClient KaitoAutoIndexer.Kusto
open KaitoAutoIndexer.Job KaitoAutoIndexer.Admission KaitoAutoIndexer.System
open KaitoAutoIndexer.Text (splitAround isoformat)
open KaitoAutoIndexer.ControllerSpec (demo demoWorld)

/-! ### Substitution -/

/-- Every occurrence of `var` in `q` is replaced by `value`. -/
def Replaced (var value q r : String) : Prop :=
  ∃ pieces : List (List Char), q.toList = var.toList.intercalate pieces ∧
    (∀ x ∈ pieces, ¬ var.toList <:+: x) ∧ r.toList = value.toList.intercalate pieces

lemma replaced_splitAround {var value q : String} (hvar : var.toList ≠ []) :
    Replaced var value q (value.intercalate (splitAround var.toList q.toList)) := by
  refine ⟨cut var.toList q.toList, (intercalate_cut hvar _).symm, ?_, ?_⟩
  · exact fun x hx => (apart_cut hvar _).not_within hx
  · rw [String.toList_intercalate, splitAround, List.map_map]
    simp

lemma intercalate_eq_nil {v : List Char} (hv : v ≠ []) (pieces : List (List Char)) :
    v.intercalate pieces = [] ↔ pieces = [] ∨ pieces = [[]] := by
  match pieces with
  | [] => simp
  | [x] => simp
  | x :: y :: rest => simp [List.intercalate_cons_cons, hv]

/-- The text is empty afterwards if it was before. -/
lemma Replaced.eq_empty_iff {var value q r : String} (h : Replaced var value q r)
    (hvar : var ≠ "") (hvalue : value ≠ "") : r = "" ↔ q = "" := by
  obtain ⟨pieces, hq, -, hr⟩ := h
  have hempty : ∀ s : String, s = "" ↔ s.toList = [] := fun s => String.toList_eq_nil_iff.symm
  rw [hempty r, hempty q, hq, hr, intercalate_eq_nil (by simpa using hvalue),
    intercalate_eq_nil (by simpa using hvar)]

/-! ### What is wanted -/

/-- The webhook takes the object, when it is created or after an edit. -/
def Admitted (p : Parsers) (o : AutoIndexer) : Prop :=
  ∃ base, (apiSpec o.spec).validate p base = .ok []

/-- A query that is built of this database source: the initial one, or the incremental one with the
stored timestamp in it. -/
structure Built (o : AutoIndexer) (d : DatabaseDataSource) (q : Query) : Prop where
  ne_empty : q.text ≠ ""
  uses : q.text = d.initialQuery ∨ ∃ iq t, d.incrementalQuery = some iq ∧
    o.status.lastIndexingTimestamp = some t ∧ Replaced timestampVariable (isoformat t) iq q.text

/-- The job that is made of the object has a handler, and the handler builds its query, whatever
calls fail. -/
def RunsQuery (o : AutoIndexer) (d : DatabaseDataSource) (w : World) : Prop :=
  ∃ h, createDataSourceHandler o = some (.database h) ∧
    Runs (JobServes True) (fun r _ => ∃ q, r = .ok q ∧ Built o d q) h.buildQuery w

/-- A run begins with the initial query, or has an incremental one that is not empty. -/
def Queries (o : AutoIndexer) (d : DatabaseDataSource) : Prop :=
  o.status.lastIndexingTimestamp = none ∨ hadErrors o.status.conditions = true ∨
    ∃ iq, d.incrementalQuery = some iq ∧ iq ≠ ""

/-! ### Admission -/

variable {p : Parsers} {o : AutoIndexer} {d : DatabaseDataSource} {w : World}

lemma valid_of_admitted (h : Admitted p o) : Valid p (apiSpec o.spec) := by
  obtain ⟨base, h⟩ := h
  exact validate_eq_nil.mp h

/-- What the webhook has checked of a database source. -/
lemma database_of_valid (h : Valid p (apiSpec o.spec)) (ht : o.spec.dataSource.type = .database) :
    ∃ d, o.spec.dataSource.database = some d ∧ d.initialQuery ≠ "" := by
  have hsource := h.dataSource
  simp only [apiSpec, apiDataSource, DataSourceSpec.validate, ht] at hsource
  rw [if_neg (by decide), if_neg (by decide), if_neg (by decide), if_pos trivial] at hsource
  split at hsource
  · cases hsource
  · rename_i d hd
    have hvalid : databaseValidate d = [] := Except.ok.inj hsource
    unfold databaseValidate at hvalid
    split at hvalid
    · cases hvalid
    · split at hvalid
      · cases hvalid
      · rename_i hinitial
        exact ⟨d, hd, hinitial⟩

/-- The job makes a handler of what is admitted. -/
lemma createDataSourceHandler_of_admitted (h : Admitted p o)
    (ht : o.spec.dataSource.type = .database) (hd : o.spec.dataSource.database = some d)
    (hl : d.language = "Kusto") :
    createDataSourceHandler o = some (.database (kustoHandler o d)) ∧ d.initialQuery ≠ "" := by
  have hvalid := valid_of_admitted h
  obtain ⟨d', hd', hinitial⟩ := database_of_valid hvalid ht
  obtain rfl : d = d' := Option.some.inj (hd.symm.trans hd')
  have hnames : ¬ (o.spec.indexName = "" ∨ o.spec.ragEngine = "") := by
    rintro (hindex | hrag)
    · exact hvalid.indexName.1 hindex
    · exact hvalid.ragEngine hrag
  have hlang : ¬ (d.language ≠ "Kusto" ∨ d.initialQuery = "") := by
    rintro (hne | hempty)
    · exact hne hl
    · exact hinitial hempty
  unfold createDataSourceHandler
  rw [if_neg hnames, ht, hd]
  dsimp only
  rw [if_neg hlang]
  exact ⟨rfl, hinitial⟩

/-! ### The query -/

lemma isoformat_ne (t : Time) : isoformat t ≠ "" := by
  have hend : ∃ s, isoformat t = s ++ "Z" := ⟨_, rfl⟩
  obtain ⟨s, hs⟩ := hend
  rw [hs]
  simp

lemma built_initial (hinitial : d.initialQuery ≠ "") : Built o d (.plain d.initialQuery) :=
  ⟨hinitial, .inl rfl⟩

/-- The incremental query, with the timestamp in it. -/
lemma built_stamped {iq : String} {t : Time} (hiq : d.incrementalQuery = some iq) (hne : iq ≠ "")
    (ht : o.status.lastIndexingTimestamp = some t) :
    Built o d (.stamped (splitAround timestampVariable.toList iq.toList) t) := by
  have hrep : Replaced timestampVariable (isoformat t) iq
      (Query.stamped (splitAround timestampVariable.toList iq.toList) t).text :=
    replaced_splitAround (by decide)
  refine ⟨fun hempty => hne ?_, .inr ⟨iq, t, hiq, ht, hrep⟩⟩
  exact (hrep.eq_empty_iff (by decide) (isoformat_ne t)).mp hempty

lemma query_built (hinitial : d.initialQuery ≠ "") (h : Queries o d) {last : Option Time}
    (hlast : last = none ∨ last = o.status.lastIndexingTimestamp) :
    ∃ q, (kustoHandler o d).query last = .ok q ∧ Built o d q := by
  cases last with
  | none => exact ⟨_, rfl, built_initial hinitial⟩
  | some t =>
    have ht : o.status.lastIndexingTimestamp = some t := (hlast.resolve_left (by simp)).symm
    unfold KustoHandler.query kustoHandler
    dsimp only
    split
    · exact ⟨_, rfl, built_initial hinitial⟩
    · rename_i herr
      rcases h with h | h | ⟨iq, hiq, hne⟩
      · rw [h] at ht
        cases ht
      · exact absurd h herr
      · rw [hiq]
        exact ⟨_, rfl, built_stamped hiq hne ht⟩

/-- Without an incremental query that is not empty, there is none to build after the first run. -/
lemma not_built {t : Time} (herr : ¬ hadErrors o.status.conditions = true)
    (hiq : ¬ ∃ iq, d.incrementalQuery = some iq ∧ iq ≠ "") :
    ¬ ∃ q, (kustoHandler o d).query (some t) = .ok q ∧ Built o d q := by
  rintro ⟨q, hq, hbuilt⟩
  unfold KustoHandler.query kustoHandler at hq
  dsimp only at hq
  rw [if_neg herr] at hq
  split at hq
  · rename_i iq hsome
    obtain rfl : iq = "" := by
      by_contra hne
      exact hiq ⟨iq, hsome, hne⟩
    refine hbuilt.ne_empty ?_
    rw [← Except.ok.inj hq]
    rfl
  · cases hq

/-- **The query of a run over a database**: the job that is made of an admitted AutoIndexer builds
it if the run begins with the initial query, or has an incremental one that is not empty, and only
then. -/
theorem runsQuery_iff (h : Admitted p o) (ht : o.spec.dataSource.type = .database)
    (hd : o.spec.dataSource.database = some d) (hl : d.language = "Kusto")
    (hw : w.stored = some o) : RunsQuery o d w ↔ Queries o d := by
  obtain ⟨hmade, hinitial⟩ := createDataSourceHandler_of_admitted h ht hd hl
  constructor
  · rintro ⟨handler, hhandler, hruns⟩
    have hsame : handler = kustoHandler o d := by
      rw [hmade] at hhandler
      exact (Handler.database.inj (Option.some.inj hhandler)).symm
    subst hsame
    -- the calls work
    have hbuilt := hruns (.ok o) w ⟨rfl, .inl (by rw [readAutoIndexer, hw])⟩
    change ∃ q, (kustoHandler o d).query o.status.lastIndexingTimestamp = .ok q ∧ Built o d q at hbuilt
    by_contra hnot
    rw [Queries, not_or, not_or] at hnot
    obtain ⟨hlast, herr, hiq⟩ := hnot
    obtain ⟨t, hlast⟩ := Option.ne_none_iff_exists'.mp hlast
    rw [hlast] at hbuilt
    exact not_built herr hiq hbuilt
  · intro hq
    refine ⟨_, hmade, ?_⟩
    rintro r w' ⟨rfl, hr⟩
    match r with
    | .error .notFound => exact query_built hinitial hq (.inl rfl)
    | .error .conflict => exact query_built hinitial hq (.inl rfl)
    | .error (.other m) => exact query_built hinitial hq (.inl rfl)
    | .ok o' =>
      have hread : o' = o := by
        rcases hr with hr | ⟨-, m, hr⟩
        · rw [readAutoIndexer, hw] at hr
          exact Except.ok.inj hr
        · cases hr
      exact query_built hinitial hq (.inr (by rw [hread]))

/-! ### A second run -/

/-- An AutoIndexer over a database that has been indexed. -/
def indexed (incrementalQuery : Option String) : AutoIndexer :=
  { demo with
    spec := { demo.spec with dataSource :=
      ⟨.database, none, none, some ⟨"Kusto", "cluster('c').database('d').T", incrementalQuery⟩⟩ }
    status := { demo.status with lastIndexingTimestamp := some 1000000 } }

def sinceQuery : String := "cluster('c').database('d').T | where at > $LAST_INDEXING_TIMESTAMP"

/-- No data source has a URL, and no credentials have an identifier. -/
def noParsers : Parsers := ⟨fun _ => .error "", fun _ => false⟩

lemma admitted_indexed (incrementalQuery : Option String) :
    Admitted noParsers (indexed incrementalQuery) := by
  refine ⟨none, validate_eq_nil.mpr ⟨?_, ?_, ?_, ?_, ?_, ?_⟩⟩
  · exact show "rag" ≠ "" by decide
  · exact show "index" ≠ "" ∧ patIndexName.test "index".toList = true by decide
  · rfl
  · intro x hx
    cases hx
  · intro c hc
    cases hc
  · intro x hx
    cases hx

theorem runsQuery_indexed :
    RunsQuery (indexed (some sinceQuery)) ⟨"Kusto", "cluster('c').database('d').T", some sinceQuery⟩
      { demoWorld with stored := some (indexed (some sinceQuery)) } :=
  (runsQuery_iff (admitted_indexed _) rfl rfl rfl rfl).mpr (.inr (.inr ⟨sinceQuery, rfl, by decide⟩))

/-- The incremental query is optional, and the second run needs it. -/
theorem not_runsQuery :
    ¬ ∀ (p : Parsers) (o : AutoIndexer) (d : DatabaseDataSource) (w : World), Admitted p o →
      o.spec.dataSource.type = .database → o.spec.dataSource.database = some d →
      d.language = "Kusto" → w.stored = some o → RunsQuery o d w := by
  intro h
  obtain ⟨handler, hhandler, hruns⟩ := h noParsers (indexed none) _
    { demoWorld with stored := some (indexed none) } (admitted_indexed none) rfl rfl rfl rfl
  obtain ⟨q, hq, -⟩ := hruns (.ok (indexed none)) _ ⟨rfl, .inl rfl⟩
  obtain rfl : handler = kustoHandler (indexed none) ⟨"Kusto", "cluster('c').database('d').T", none⟩ :=
    (Handler.database.inj (Option.some.inj hhandler)).symm
  cases hq

end KaitoAutoIndexer.KustoQueries
