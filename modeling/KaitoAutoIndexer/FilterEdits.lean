import KaitoAutoIndexer.DiffRuns
import KaitoAutoIndexer.NothingLost

/-!
Whether an edit of the path filter takes effect with the next run. The run does not know under
which filter the documents that are there were made: a full run adds to them, and an incremental
one looks only at the files that have changed.
-/

namespace KaitoAutoIndexer.FilterEdits

open KaitoAutoIndexer.Lib KaitoAutoIndexer.Types
open KaitoAutoIndexer.Rag KaitoAutoIndexer.JobClient KaitoAutoIndexer.Git
open KaitoAutoIndexer.GitSpec hiding texts
open KaitoAutoIndexer.Incremental (paths Action.paths action_paths DiffOf IsChange)
open KaitoAutoIndexer.DiffRuns
open KaitoAutoIndexer.NothingLost (queued texts Taken mem_readings mem_texts)

/-! ### Paths with documents -/

/-- `A` has a document of the path. -/
def HasDocument (A : String) (docs : List Document) (p : String) : Prop :=
  ∃ d ∈ docsAt docs p, d.owner = some A

/-- The action puts the document that `y` is to another path, and `A` has no other of this one. -/
def Removes (A : String) (first : List Document → Option Document) (docs : List Document)
    (p : String) (a : Action) : Prop :=
  ∃ p' x, a = .replace p p' x ∧ p' ≠ p ∧
    ∃ y, first (docsAt docs p) = some y ∧ (docsAt docs p).filter (·.owner = some A) = [y]

variable {first : List Document → Option Document} {h : GitHandler} {r : Remote} {c : Checkout}
  {l l' l₁ l₂ : List Document} {p : String} {a : Action} {s s' : Store} {t : Tree}

/-- The engine lists this document first. -/
abbrev firstOf (first : List Document → Option Document) : Choice := fun l y => first l = some y

lemma hasDocument_append {A : String} :
    HasDocument A (l ++ l') p ↔ HasDocument A l p ∨ HasDocument A l' p := by
  unfold HasDocument
  simp only [docsAt_append, List.mem_append, or_and_right, exists_or]

lemma hasDocument_cons {A : String} {d : Document} :
    HasDocument A (d :: l) p ↔ d.filePath = some p ∧ d.owner = some A ∨ HasDocument A l p := by
  unfold HasDocument
  simp only [docsAt_cons, List.mem_append, or_and_right, exists_or]
  by_cases hd : d.filePath = some p <;> simp [hd]

lemma hasDocument_iff_filter_ne_nil {A : String} :
    HasDocument A l p ↔ (docsAt l p).filter (·.owner = some A) ≠ [] := by
  simp [HasDocument, List.filter_eq_nil_iff]

/-- A document leaves its path. -/
lemma hasDocument_without {A : String} {y : Document} (hy : y.filePath = some p) :
    HasDocument A l₁ p ∨ HasDocument A l₂ p ↔
      HasDocument A (l₁ ++ y :: l₂) p ∧
        (docsAt (l₁ ++ y :: l₂) p).filter (·.owner = some A) ≠ [y] := by
  simp only [hasDocument_iff_filter_ne_nil, docsAt_append, docsAt_cons, if_pos hy,
    List.singleton_append, List.filter_append, List.filter_cons]
  by_cases ho : y.owner = some A
  · simp only [ho, decide_true, if_true]
    generalize (docsAt l₁ p).filter (·.owner = some A) = m₁
    generalize (docsAt l₂ p).filter (·.owner = some A) = m₂
    cases m₁ <;> simp
  · have hne : (docsAt l₁ p).filter (·.owner = some A) ++ (docsAt l₂ p).filter (·.owner = some A) ≠
        [y] := by
      intro he
      have hmem : y ∈ (docsAt l₁ p).filter (·.owner = some A) ++
          (docsAt l₂ p).filter (·.owner = some A) := he ▸ List.mem_singleton_self y
      rw [← List.filter_append] at hmem
      exact ho (by simpa using (List.mem_filter.mp hmem).2)
    simp only [ho, decide_false, Bool.false_eq_true, if_false, ne_eq, List.append_eq_nil_iff]
    tauto

/-- What a change makes of the paths with documents. -/
lemma hasDocument_changed (hc : Changed (firstOf first) h a l l') (p : String) :
    HasDocument h.autoindexerName l' p ↔ (∃ x, (p, x) ∈ queued a) ∨
      HasDocument h.autoindexerName l p ∧ ¬ Removes h.autoindexerName first l p a := by
  have hstays : (∀ p' x, a ≠ .replace p p' x) → ¬ Removes h.autoindexerName first l p a := by
    rintro ha ⟨p', x, hr, -⟩
    exact ha p' x hr
  cases hc with
  | nothing => simp [queued, hstays (by simp)]
  | delete => simp [queued, hstays (by simp)]
  | @create q x d l hd =>
    simp only [queued, hstays (by simp), hasDocument_append, hasDocument_cons, hd.filePath, hd.owner]
    simp [HasDocument, or_comm, eq_comm]
  | @found old q x y d l₁ l₂ hold hpick hd =>
    have hq : (∃ x', (p, x') ∈ queued (.replace old q x)) ↔ q = p := by simp [queued, eq_comm]
    rw [hq, hasDocument_append, hasDocument_cons, hd.filePath, hd.owner, or_left_comm]
    by_cases hqp : q = p
    · simp [hqp]
    · simp only [hqp, Option.some_inj, false_and, false_or]
      by_cases hop : old = p
      · subst hop
        rw [hasDocument_without hold]
        refine and_congr_right fun _ => not_congr ⟨fun hone => ?_, ?_⟩
        · exact ⟨q, x, rfl, hqp, y, hpick, hone⟩
        · rintro ⟨_, _, -, -, y', hy', hone⟩
          obtain rfl : y = y' := Option.some_inj.mp (hpick.symm.trans hy')
          exact hone
      · have hne : ¬ Removes h.autoindexerName first (l₁ ++ y :: l₂) p (.replace old q x) :=
          hstays fun p' x' he => hop (Action.replace.inj he).1
        simp [hasDocument_append, hasDocument_cons, hold, hop, hne]
  | @missing old q x d l hno hd =>
    have hrem : ¬ (HasDocument h.autoindexerName l p ∧
        Removes h.autoindexerName first l p (.replace old q x)) := by
      rintro ⟨⟨d', hd', -⟩, p', x', he, -⟩
      rw [← (Action.replace.inj he).1, hno] at hd'
      cases hd'
    simp only [queued, hasDocument_append, hasDocument_cons, hd.filePath, hd.owner]
    have hnil : ¬ HasDocument h.autoindexerName [] p := by simp [HasDocument]
    simp only [hnil, List.mem_singleton, Prod.mk.injEq, Option.some_inj]
    constructor
    · rintro (hl | ⟨rfl, -⟩ | hf)
      · exact .inr ⟨hl, fun hr => hrem ⟨hl, hr⟩⟩
      · exact .inl ⟨x, rfl, rfl⟩
      · exact hf.elim
    · rintro (⟨_, rfl, -⟩ | ⟨hl, -⟩)
      · exact .inr (.inl ⟨rfl, trivial⟩)
      · exact .inl hl

lemma queued_paths {x : String} (hx : (p, x) ∈ queued a) : p ∈ Action.paths a := by
  cases a with
  | create q y =>
    simp only [queued, List.mem_singleton, Prod.mk.injEq] at hx
    simp [Action.paths, hx.1]
  | replace old q y =>
    simp only [queued, List.mem_singleton, Prod.mk.injEq] at hx
    simp [Action.paths, hx.1]
  | nothing => cases hx
  | delete q => cases hx

lemma Removes.paths {A : String} (hr : Removes A first l p a) : p ∈ Action.paths a := by
  obtain ⟨p', x, rfl, -⟩ := hr
  simp [Action.paths]

/-- What the changes of the list make of the paths with documents. -/
lemma hasDocument_carried {items : List DiffItem} (hn : (items.flatMap paths).Nodup)
    (hc : Carried (firstOf first) h r c items l l') (p : String) :
    HasDocument h.autoindexerName l' p ↔
      (∃ x, (p, x) ∈ items.flatMap fun d => queued (action h r c d)) ∨
        HasDocument h.autoindexerName l p ∧
          ¬ ∃ d ∈ items, Removes h.autoindexerName first l p (action h r c d) := by
  induction items generalizing l with
  | nil =>
    obtain rfl : l' = l := hc
    simp
  | cons d items ih =>
    obtain ⟨l₁, hd, hrest⟩ := hc
    rw [List.flatMap_cons, List.nodup_append'] at hn
    have hqueued : (∃ x, (p, x) ∈ (d :: items).flatMap fun d => queued (action h r c d)) ↔
        (∃ x, (p, x) ∈ queued (action h r c d)) ∨
          ∃ x, (p, x) ∈ items.flatMap fun d => queued (action h r c d) := by
      simp only [List.flatMap_cons, List.mem_append, exists_or]
    have hremoves : (∃ d' ∈ d :: items, Removes h.autoindexerName first l p (action h r c d')) ↔
        Removes h.autoindexerName first l p (action h r c d) ∨
          ∃ d' ∈ items, Removes h.autoindexerName first l p (action h r c d') := by
      simp only [List.mem_cons, or_and_right, exists_or, exists_eq_left]
    rw [ih hn.2.1 hrest, hasDocument_changed hd, hqueued, hremoves]
    by_cases hp : p ∈ Action.paths (action h r c d)
    · -- no other change is about this path
      have hothers : ∀ d' ∈ items, p ∉ Action.paths (action h r c d') := fun d' hd' hp' =>
        hn.2.2 (action_paths d p hp) (List.mem_flatMap.mpr ⟨d', hd', action_paths d' p hp'⟩)
      have hnone : ¬ ∃ x, (p, x) ∈ items.flatMap fun d => queued (action h r c d) := by
        rintro ⟨x, hx⟩
        obtain ⟨d', hd', hx⟩ := List.mem_flatMap.mp hx
        exact hothers d' hd' (queued_paths hx)
      have hstays : ∀ m, ¬ ∃ d ∈ items, Removes h.autoindexerName first m p (action h r c d) := by
        rintro m ⟨d', hd', hr⟩
        exact hothers d' hd' hr.paths
      simp only [hnone, hstays, or_false, false_or, not_false_eq_true, and_true]
    · have hsame : docsAt l₁ p = docsAt l p := hd.docsAt_of_notMem hp
      have hnone : ¬ ∃ x, (p, x) ∈ queued (action h r c d) := fun ⟨x, hx⟩ => hp (queued_paths hx)
      have hstays : ¬ Removes h.autoindexerName first l p (action h r c d) := fun hr => hp hr.paths
      have hlater : (∃ d ∈ items, Removes h.autoindexerName first l₁ p (action h r c d)) ↔
          ∃ d ∈ items, Removes h.autoindexerName first l p (action h r c d) := by
        unfold Removes
        rw [hsame]
      simp only [hnone, hstays, hlater, false_or, not_false_eq_true, and_true]

/-! ### A run -/

/-- The changes that the run goes by. -/
def changes (h : GitHandler) (c : Checkout) : List DiffItem :=
  match h.path, c.diff h.lastIndexedCommit with
  | .incremental, .ok items => items
  | _, _ => []

lemma hasDocument_made {made : List (String × String)} {docs : List Document}
    (hm : List.Forall₂ (fun e d => IsDocument h e.1 e.2 d) made docs) :
    HasDocument h.autoindexerName docs p ↔ ∃ x, (p, x) ∈ made := by
  induction hm with
  | nil => simp [HasDocument]
  | @cons e d made docs hd _ ih =>
    rw [hasDocument_cons, ih, hd.filePath, hd.owner]
    constructor
    · rintro (⟨hp, -⟩ | ⟨x, hx⟩)
      · exact ⟨e.2, by simp [← Option.some_inj.mp hp]⟩
      · exact ⟨x, List.mem_cons_of_mem _ hx⟩
    · rintro ⟨x, hx⟩
      rcases List.mem_cons.mp hx with rfl | hx
      · exact .inl ⟨rfl, rfl⟩
      · exact .inr ⟨x, hx⟩

/-- What an error-free run makes of the paths with documents. -/
def Leaves (h : GitHandler) (r : Remote) (c : Checkout) (first : List Document → Option Document)
    (s s' : Store) : Prop :=
  ∀ p, HasDocument h.autoindexerName (documents s') p ↔ (∃ x, (p, x) ∈ texts h r c) ∨
    HasDocument h.autoindexerName (documents s) p ∧
      ¬ ∃ d ∈ changes h c, Removes h.autoindexerName first (documents s) p (action h r c d)

lemma indexAllFiles_leaves (htexts : texts h r c = readings c (getRepositoryFiles h r c))
    (hchanges : changes h c = []) :
    Runs (choosing True (firstOf first)) (fun e s' => e = [] → Leaves h r c first s s')
      (indexAllFiles h r c []) s := by
  refine (choosing_runs (indexAllFiles_runs [] s)).mono ?_
  rintro e s' (⟨-, new, hnew, hmade⟩ | ⟨-, he⟩) hfine p
  · rw [hnew, htexts, hchanges, hasDocument_append, hasDocument_made hmade, or_comm]
    simp
  · exact absurd hfine he

lemma indexRepository_leaves (hids : (ids s).Nodup) (hsetup : setupRepository h r = .ok c)
    (hn : ((changes h c).flatMap paths).Nodup) :
    Runs (choosing True (firstOf first)) (fun out s' => out.1 = [] → Leaves h r c first s s')
      (h.indexRepository r) s := by
  unfold GitHandler.indexRepository
  rw [hsetup]
  dsimp only
  cases hp : h.path with
  | full =>
    have htexts : texts h r c = readings c (getRepositoryFiles h r c) := by
      unfold texts
      rw [hp]
    have hchanges : changes h c = [] := by
      unfold changes
      rw [hp]
    exact (indexAllFiles_leaves htexts hchanges).bind fun e s' he => he
  | incremental =>
    cases hd : c.diff h.lastIndexedCommit with
    | ok items =>
      have htexts : texts h r c = items.flatMap fun d => queued (action h r c d) := by
        unfold texts
        rw [hp, hd]
      have hchanges : changes h c = items := by
        unfold changes
        rw [hp, hd]
      rw [hchanges] at hn
      refine (indexDiffFiles_carried hids hd hn []).bind ?_
      rintro _ s' ⟨-, errors, rfl, hcarried⟩ hfine p
      rw [htexts, hchanges]
      exact hasDocument_carried hn (hcarried fun _ => hfine) p
    | error e =>
      have htexts : texts h r c = readings c (getRepositoryFiles h r c) := by
        unfold texts
        rw [hp, hd]
      have hchanges : changes h c = [] := by
        unfold changes
        rw [hp, hd]
      unfold indexDiffFiles
      rw [hd]
      cases e with
      | badName =>
        refine Runs.bind (Q := fun out s' => ∃ e, out = .ok e ∧ (e = [] → Leaves h r c first s s'))
          ?_ ?_
        · exact (indexAllFiles_leaves htexts hchanges).bind fun e s' he => ⟨e, rfl, he⟩
        · rintro _ s' ⟨e, rfl, he⟩
          exact he
      | other m => exact fun hfine => by simp at hfine

lemma updateIndex_leaves (hids : (ids s).Nodup) (hsetup : setupRepository h r = .ok c)
    (hn : ((changes h c).flatMap paths).Nodup) :
    Runs (choosing True (firstOf first)) (fun out s' => out.returned = [] → Leaves h r c first s s')
      (h.updateIndex r) s := by
  unfold GitHandler.updateIndex
  simp only [ask_bind, runs_ask]
  rintro start s1 rfl
  refine (indexRepository_leaves hids hsetup hn).bind ?_
  rintro ⟨errors, commit⟩ s2 h2
  rintro stop s3 rfl
  exact h2

/-! ### What the filter selects -/

lemma readText_eq_some {x : String} : readText c p = some x ↔ c.read p = .ok x ∧ x ≠ "" := by
  unfold readText readFileContent
  cases c.read p with
  | error e => simp [Except.toOption]
  | ok y =>
    simp only [Except.toOption, Option.filter_eq_some_iff, Option.some_inj, Except.ok.injEq,
      decide_eq_true_eq]

lemma readText_of_queued {d : DiffItem} {x : String} (hx : (p, x) ∈ queued (action h r c d)) :
    readText c p = some x := by
  unfold action at hx
  split at hx
  · cases hx
  · have hone : ∀ {q : String} {o : Option String} {f : String → Option Action},
        o = readText c q → (∀ y a, f y = some a → queued a = [(q, y)]) →
        (p, x) ∈ queued ((o.bind f).getD .nothing) → readText c p = some x := by
      rintro q o f rfl hf hx
      cases hy : readText c q with
      | none => simp [hy, queued] at hx
      | some y =>
        cases ha : f y with
        | none => simp [hy, ha, queued] at hx
        | some a =>
          simp only [hy, Option.bind_some, ha, Option.getD_some, hf y a ha, List.mem_singleton,
            Prod.mk.injEq] at hx
          rw [hx.1, hx.2, hy]
    cases hct : d.changeType with
    | added =>
      simp only [hct, Option.map_eq_bind] at hx
      exact hone rfl (by simp [queued]) hx
    | modified =>
      simp only [hct, Option.map_eq_bind] at hx
      exact hone rfl (by simp [queued]) hx
    | renamed =>
      simp only [hct] at hx
      refine hone rfl (fun y a ha => ?_) hx
      obtain ⟨b, -, rfl⟩ := Option.map_eq_some_iff.mp ha
      rfl
    | deleted => simp [hct, queued] at hx
    | typeChanged => simp [hct, queued] at hx
    | copied => simp [hct, queued] at hx

lemma readText_of_texts {x : String} (hx : (p, x) ∈ texts h r c) : readText c p = some x := by
  unfold texts at hx
  split at hx
  · obtain ⟨d, -, hx⟩ := List.mem_flatMap.mp hx
    exact readText_of_queued hx
  · exact (mem_readings.mp hx).2

lemma exists_texts_iff : (∃ x, (p, x) ∈ texts h r c) ↔ Taken h r c p ∧ (readText c p).isSome := by
  constructor
  · rintro ⟨x, hx⟩
    have hread := readText_of_texts hx
    obtain ⟨hok, hne⟩ := readText_eq_some.mp hread
    exact ⟨(mem_texts hok hne).mp hx, by simp [hread]⟩
  · rintro ⟨ht, hs⟩
    obtain ⟨x, hread⟩ := Option.isSome_iff_exists.mp hs
    obtain ⟨hok, hne⟩ := readText_eq_some.mp hread
    exact ⟨x, (mem_texts hok hne).mpr ht⟩

/-- The changes lead to the tree. -/
def LeadTo (t : Tree) (items : List DiffItem) : Prop := ∃ t₁, DiffOf t₁ t items

/-- What the run makes a document of is selected. -/
lemma wanted_of_texts (hc : Shows c t) (hd : LeadTo t (changes h c)) {x : String}
    (hx : (p, x) ∈ texts h r c) : wanted h r t p = some x := by
  obtain ⟨hok, hne⟩ := readText_eq_some.mp (readText_of_texts hx)
  have htaken := (mem_texts hok hne).mp hx
  have hin : shouldIndexFile h r p = true ∧ (t p).isSome := by
    obtain ⟨t₁, hdiff⟩ := hd
    unfold Taken at htaken
    unfold changes at hdiff
    split at htaken
    · rename_i items hp hitems
      obtain ⟨d, hdi, rfl, ⟨hs, hproc⟩, -⟩ := htaken
      simp only [hp, hitems] at hdiff
      have hchange := hdiff.each d hdi
      unfold IsChange at hchange
      refine ⟨hs, ?_⟩
      rcases hproc with hct | hct | hct <;> simp only [hct] at hchange
      · exact hchange.2
      · exact hchange.2
      · exact hchange.2.1
    · obtain ⟨hl, hs⟩ := mem_getRepositoryFiles.mp htaken
      exact ⟨hs, (hc.files p (head_ne_git_of_shouldIndexFile hs)).mp (mem_files_of_listed hl)⟩
  simp [wanted, hin.1, hc.read p x hin.2 hok, hne]

/-- A path that a document leaves is not in the tree any more. -/
lemma wanted_of_removes {A : String} {docs : List Document} (hd : LeadTo t (changes h c))
    (hr : ∃ d ∈ changes h c, Removes A first docs p (action h r c d)) : wanted h r t p = none := by
  obtain ⟨d, hdi, p', x, ha, hne, -⟩ := hr
  obtain ⟨t₁, hdiff⟩ := hd
  have hchange := hdiff.each d hdi
  have hrenamed : d.changeType = .renamed ∧ d.aPath = some p := by
    unfold action at ha
    split at ha
    · cases ha
    · cases hct : d.changeType with
      | renamed =>
        simp only [hct] at ha
        cases hread : readText c d.filePath with
        | none => simp [hread] at ha
        | some y =>
          cases hpath : d.aPath.filter (· ≠ "") with
          | none =>
            simp only [hread, Option.bind_some, hpath] at ha
            cases ha
          | some b =>
            simp only [hread, hpath, Option.bind_some, Option.map_some, Option.getD_some,
              Action.replace.injEq] at ha
            rw [ha.1] at hpath
            exact ⟨rfl, (Option.filter_eq_some_iff.mp hpath).1⟩
      | modified =>
        simp only [hct] at ha
        cases hread : readText c d.filePath with
        | none => simp [hread] at ha
        | some y =>
          simp only [hread, Option.map_some, Option.getD_some, Action.replace.injEq] at ha
          exact absurd (ha.2.1.symm.trans ha.1) hne
      | added => cases hread : readText c d.filePath <;> simp [hct, hread] at ha
      | deleted => simp [hct] at ha
      | typeChanged => simp [hct] at ha
      | copied => simp [hct] at ha
  unfold IsChange at hchange
  simp only [hrenamed.1] at hchange
  obtain ⟨-, -, a, hapath, -, -, hgone⟩ := hchange
  obtain rfl : a = p := Option.some_inj.mp (hapath.symm.trans hrenamed.2)
  exact Incremental.wanted_of_none hgone

/-! ### A sequence of runs -/

/-- A run, however the requests go. -/
structure Turn where
  handler : GitHandler
  remote : Remote
  checkout : Checkout
  /-- The tree at the commit that is checked out. -/
  tree : Tree
  first : List Document → Option Document
  before : Store
  out : Outcome
  after : Store
  setup : setupRepository handler remote = .ok checkout
  shows : Shows checkout tree
  diff : LeadTo tree (changes handler checkout)
  ends : Ends (choosing True (firstOf first)) (handler.updateIndex remote) before out after

/-- The run has reported no error. -/
def Turn.Clean (t : Turn) : Prop := t.out.returned = []

/-- The paths with documents are those with a text that the filter selects. -/
def Turn.TakesEffect (t : Turn) : Prop :=
  ∀ p, HasDocument t.handler.autoindexerName (documents t.after) p ↔
    (wanted t.handler t.remote t.tree p).isSome

/-- Whatever is selected had a document or is gone through and read, and whatever had a document is
selected, or is the old path of a renamed file that is gone through and read, and whose document moves
along. -/
structure Turn.Suffices (t : Turn) : Prop where
  included : ∀ p, (wanted t.handler t.remote t.tree p).isSome →
    HasDocument t.handler.autoindexerName (documents t.before) p ∨
      Taken t.handler t.remote t.checkout p ∧ (readText t.checkout p).isSome
  excluded : ∀ p, HasDocument t.handler.autoindexerName (documents t.before) p →
    (wanted t.handler t.remote t.tree p).isSome ∨ ∃ d ∈ changes t.handler t.checkout,
      Removes t.handler.autoindexerName t.first (documents t.before) p
        (action t.handler t.remote t.checkout d)

/-- Runs one after the other, the last one first, each under a filter of its own. Others may write
to the index in between. -/
inductive Sequence (s : Store) : List Turn → Store → Prop
  | start : Sequence s [] s
  | run {l : List Turn} (t : Turn) (h : Sequence s l t.before) : Sequence s (t :: l) t.after
  | others {l : List Turn} {v v' : Store} (h : Sequence s l v) (hv : (ids v').Nodup) :
      Sequence s l v'

lemma nodup_of_choosing {pick : Choice} {s s' : Store} {call : JobCall} {a : JobAnswer call}
    (hs : choosing True pick s call a s') (hn : (ids s).Nodup) : (ids s').Nodup := by
  cases call with
  | rag target q =>
    obtain ⟨hs, -⟩ := hs
    cases q with
    | indexDocuments docs =>
      cases a with
      | ok u => exact Added.nodup hs hn
      | error e =>
        rcases hs.2 with rfl | hadd
        · exact hn
        · exact hadd.nodup hn
    | updateDocuments us =>
      cases a with
      | ok u =>
        obtain rfl : s' = replaceAll us s := hs
        rwa [ids_replaceAll]
      | error e =>
        rcases hs.2 with rfl | rfl
        · exact hn
        · rwa [ids_replaceAll]
    | listDocuments f n =>
      cases a with
      | ok resp => exact hs.1 ▸ hn
      | error e => exact hs.2 ▸ hn
  | _ => exact (show s' = s from hs) ▸ hn

lemma Sequence.nodup {s v : Store} {l : List Turn} (h : Sequence s l v) (hs : (ids s).Nodup) :
    (ids v).Nodup := by
  induction h with
  | start => exact hs
  | run t _ ih => exact t.ends.keeps (fun _ _ _ _ hn hc => nodup_of_choosing hc hn) ih
  | others _ hv _ => exact hv

lemma Turn.takesEffect_iff (t : Turn) (hids : (ids t.before).Nodup) (hclean : t.Clean) :
    t.TakesEffect ↔ t.Suffices := by
  have hn : ((changes t.handler t.checkout).flatMap paths).Nodup := by
    obtain ⟨t₁, hd⟩ := t.diff
    exact hd.nodup
  have hleaves : Leaves t.handler t.remote t.checkout t.first t.before t.after :=
    (updateIndex_leaves hids t.setup hn).ends t.ends hclean
  have hwanted : ∀ {p}, (∃ x, (p, x) ∈ texts t.handler t.remote t.checkout) →
      (wanted t.handler t.remote t.tree p).isSome := by
    rintro p ⟨x, hx⟩
    rw [wanted_of_texts t.shows t.diff hx]
    rfl
  constructor
  · intro heffect
    refine ⟨fun p hp => ?_, fun p hp => ?_⟩
    · rcases (hleaves p).mp ((heffect p).mpr hp) with hx | ⟨hbefore, -⟩
      · exact .inr (exists_texts_iff.mp hx)
      · exact .inl hbefore
    · by_cases hr : ∃ d ∈ changes t.handler t.checkout, Removes t.handler.autoindexerName t.first
          (documents t.before) p (action t.handler t.remote t.checkout d)
      · exact .inr hr
      · exact .inl ((heffect p).mp ((hleaves p).mpr (.inr ⟨hp, hr⟩)))
  · intro hsuff p
    rw [hleaves p]
    constructor
    · rintro (hx | ⟨hbefore, hstays⟩)
      · exact hwanted hx
      · exact (hsuff.excluded p hbefore).resolve_right hstays
    · intro hp
      rcases hsuff.included p hp with hbefore | htaken
      · refine .inr ⟨hbefore, fun hr => ?_⟩
        rw [wanted_of_removes t.diff hr] at hp
        cases hp
      · exact .inl (exists_texts_iff.mpr htaken)

/-- **Edits of the path filter take effect with an error-free run** exactly when whatever the filter
selects had a document before or is gone through and read by the run, and whatever had a document is
still selected, or was renamed to a path that the run goes through and reads. -/
theorem sequence_takes_effect_iff {s v : Store} {l : List Turn} (hs : (ids s).Nodup)
    (h : Sequence s l v) :
    (∀ t ∈ l, t.Clean → t.TakesEffect) ↔ ∀ t ∈ l, t.Clean → t.Suffices := by
  induction h with
  | start => simp
  | run t h ih =>
    rw [List.forall_mem_cons, List.forall_mem_cons, ih]
    exact and_congr_left fun _ => forall_congr' fun hc => t.takesEffect_iff (h.nodup hs) hc
  | others _ _ ih => exact ih

/-! ### A filter that is lifted -/

/-- The patterns are paths. -/
def editRemote : Remote := { demoRemote [] with matchesAny := fun patterns p => patterns.contains p }

/-- Before the first run, with `a.md` excluded. -/
def excludingHandler : GitHandler :=
  { demoHandler with excludePaths := ["a.md"], lastIndexedCommit := "" }

/-- After it, with the filter lifted. -/
def liftedHandler : GitHandler := { demoHandler with lastIndexedCommit := "decaf" }

lemma choosing_indexServe (s : Store) (call : JobCall) :
    choosing True (firstOf List.head?) s call (indexServe s call).1 (indexServe s call).2 := by
  cases call with
  | rag target q =>
    refine ⟨Rag.serves_serve True s q, ?_⟩
    cases q with
    | listDocuments f n =>
      intro y hy
      have hfound : (s.filter fun d => d.doc.matches f).head? = some y := by
        have hy : ((s.filter fun d => d.doc.matches f).take n).head? = some y := hy
        rw [List.head?_take] at hy
        split at hy
        · cases hy
        · exact hy
      have hdocs : (documents s).filter (·.matches f) =
          documents (s.filter fun d => d.doc.matches f) := by
        simp [documents, List.filter_map, Function.comp_def]
      change ((documents s).filter (·.matches f)).head? = some y.doc
      rw [hdocs]
      simp only [documents, List.head?_map, hfound, Option.map_some]
    | indexDocuments docs => trivial
    | updateDocuments us => trivial
  | _ => rfl

lemma leadTo_nil (t : Tree) : LeadTo t [] := ⟨t, by simp, by simp, by simp⟩

/-- A run of the handler on the repository that has the one file `a.md`, and no changes since the
last run. -/
def editTurn (h : GitHandler) (hsetup : setupRepository h editRemote = .ok (demoCheckout []))
    (hchanges : changes h (demoCheckout []) = []) (before : Store) : Turn where
  handler := h
  remote := editRemote
  checkout := demoCheckout []
  tree := demoTree
  first := List.head?
  before := before
  out := ((h.updateIndex editRemote).exec indexServe before).1
  after := ((h.updateIndex editRemote).exec indexServe before).2
  setup := hsetup
  shows := demo_shows []
  diff := by
    rw [hchanges]
    exact leadTo_nil demoTree
  ends := Ends.exec _ _ choosing_indexServe

def excludingTurn : Turn := editTurn excludingHandler rfl rfl []

def liftedTurn : Turn := editTurn liftedHandler rfl rfl excludingTurn.after

/-- A run with the filter lifted that has no commit to go on from. -/
def fullTurn : Turn := editTurn { liftedHandler with lastIndexedCommit := "" } rfl rfl excludingTurn.after

lemma excludingTurn_suffices : excludingTurn.Suffices := by
  refine ⟨fun p hp => ?_, fun p hp => ?_⟩
  · have htree : p = "a.md" := by
      by_contra hne
      simp [excludingTurn, editTurn, wanted, demoTree, hne] at hp
    subst htree
    exact absurd hp (by decide)
  · obtain ⟨d, hd, -⟩ := hp
    cases hd

lemma fullTurn_suffices : fullTurn.Suffices := by
  refine ⟨fun p hp => ?_, fun p hp => ?_⟩
  · have htree : p = "a.md" := by
      by_contra hne
      simp [fullTurn, editTurn, wanted, demoTree, hne] at hp
    subst htree
    refine .inr ⟨?_, by decide⟩
    change "a.md" ∈ getRepositoryFiles _ _ _
    decide
  · obtain ⟨d, hd, -⟩ := hp
    have hnone : documents fullTurn.before = [] := by decide
    rw [hnone] at hd
    cases hd

/-- The full run indexes `a.md`, which the run before it has left out. -/
theorem sequence_takes_effect_full :
    (∀ t ∈ [fullTurn, excludingTurn], t.Clean → t.TakesEffect) ∧ fullTurn.Clean ∧
      (wanted fullTurn.handler fullTurn.remote fullTurn.tree "a.md").isSome = true := by
  have hclean : fullTurn.out.returned = [] := by decide
  refine ⟨?_, hclean, by decide⟩
  refine (sequence_takes_effect_iff (s := []) List.nodup_nil
    (.run fullTurn (.run excludingTurn .start))).mpr ?_
  intro t ht _
  rcases List.mem_pair.mp ht with rfl | rfl
  · exact fullTurn_suffices
  · exact excludingTurn_suffices

/-- The lifted filter selects `a.md`, and an incremental run after the edit does not index it. -/
theorem not_sequence_takes_effect : ¬ ∀ (s v : Store) (l : List Turn), (ids s).Nodup →
    Sequence s l v → ∀ t ∈ l, t.Clean → t.TakesEffect := by
  intro hall
  have hclean : liftedTurn.out.returned = [] := by decide
  have heffect := hall [] _ [liftedTurn, excludingTurn] List.nodup_nil
    (.run liftedTurn (.run excludingTurn .start)) liftedTurn List.mem_cons_self hclean
  have hsuff := (liftedTurn.takesEffect_iff (by decide) hclean).mp heffect
  rcases hsuff.included "a.md" (by decide) with ⟨d, hd, -⟩ | ⟨⟨d, hd, -⟩, -⟩
  · have hnone : docsAt (documents liftedTurn.before) "a.md" = [] := by decide
    rw [hnone] at hd
    cases hd
  · cases hd

end KaitoAutoIndexer.FilterEdits
