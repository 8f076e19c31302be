import KaitoAutoIndexer.GitSpec

/-!
The documents that the RAG engine accepts in a Git run, and the files that the run had to
process.
-/

namespace KaitoAutoIndexer.NothingLost

open KaitoAutoIndexer.Lib KaitoAutoIndexer.Types
open KaitoAutoIndexer.Rag KaitoAutoIndexer.JobClient KaitoAutoIndexer.Git
open KaitoAutoIndexer.GitSpec (IsDocument readings Action action demoHandler demoCheckout demoRemote)

/-! ### What is accepted -/

/-- The documents of the requests that the engine has answered well. -/
def accept (g : List Document) : (c : JobCall) → JobAnswer c → List Document
  | .rag _ (.indexDocuments docs), .ok _ => g ++ docs
  | .rag _ (.updateDocuments us), .ok _ => g ++ us.map StoredDocument.doc
  | _, _ => g

abbrev Accepts {α : Type} (Q : α → List Document → Prop) (p : Py α) (g : List Document) : Prop :=
  Tells accept (fun _ _ => True) Q p g

/-- The texts of files, with their paths, that the documents were made of. -/
structure Covers (h : GitHandler) (made : List (String × String)) (docs : List Document) : Prop where
  all : ∀ e ∈ made, ∃ d ∈ docs, IsDocument h e.1 e.2 d
  only : ∀ d ∈ docs, ∃ e ∈ made, IsDocument h e.1 e.2 d

variable {α : Type} {Q : α → List Document → Prop} {h : GitHandler} {r : Remote} {c : Checkout}
  {g g' docs docs' : List Document} {made : List (String × String)}

lemma accepts_ask {c : JobCall} {k : JobAnswer c → Py α} (hk : ∀ a, Accepts Q (k a) (accept g c a)) :
    Accepts Q (ask c >>= k) g := tells_ask trivial hk

lemma covers_nil : Covers h [] [] := ⟨nofun, nofun⟩

lemma Covers.add {p x : String} {d : Document} (hc : Covers h made docs) (hd : IsDocument h p x d)
    (hdocs : ∀ d', d' ∈ docs' ↔ d' ∈ docs ∨ d' = d) : Covers h (made ++ [(p, x)]) docs' := by
  refine ⟨fun e he => ?_, fun d' hd' => ?_⟩
  · rcases List.mem_append.mp he with he | he
    · obtain ⟨d', hd', hfor⟩ := hc.all e he
      exact ⟨d', (hdocs d').mpr (.inl hd'), hfor⟩
    · obtain rfl := List.mem_singleton.mp he
      exact ⟨d, (hdocs d).mpr (.inr rfl), hd⟩
  · rcases (hdocs d').mp hd' with hd' | rfl
    · obtain ⟨e, he, hfor⟩ := hc.only d' hd'
      exact ⟨e, List.mem_append_left _ he, hfor⟩
    · exact ⟨(p, x), by simp, hd⟩

lemma Covers.congr (hc : Covers h made docs) (hdocs : ∀ d, d ∈ docs' ↔ d ∈ docs) :
    Covers h made docs' := by
  refine ⟨fun e he => ?_, fun d hd => hc.only d ((hdocs d).mp hd)⟩
  obtain ⟨d, hd, hfor⟩ := hc.all e he
  exact ⟨d, (hdocs d).mpr hd, hfor⟩

/-- There is a document of the text `x` of the file at `p`. -/
def Has (docs : List Document) (p x : String) : Prop :=
  ∃ d ∈ docs, d.filePath = some p ∧ d.text = x

lemma Covers.has_iff (hc : Covers h made docs) (p x : String) : Has docs p x ↔ (p, x) ∈ made := by
  constructor
  · rintro ⟨d, hd, hp, rfl⟩
    obtain ⟨e, he, hfor⟩ := hc.only d hd
    have hep : e.1 = p := Option.some_inj.mp (hfor.filePath.symm.trans hp)
    rwa [← hep, hfor.text]
  · intro hm
    obtain ⟨d, hd, hfor⟩ := hc.all _ hm
    exact ⟨d, hd, hfor.filePath, hfor.text⟩

lemma createDocument_accepts (p content changeType : String) :
    Accepts (fun d g' => IsDocument h p content d ∧ g' = g) (createDocument h c p content changeType) g := by
  refine accepts_ask fun t => tells_ret ⟨⟨?_, ?_, rfl⟩, rfl⟩
  · simp [Document.owner]
  · simp [Document.filePath, List.lookup]

lemma indexDocumentsBatch_accepts (docs : List Document) (errors : List String) :
    Accepts (fun errors' g' => errors' = [] → errors = [] ∧ g' = g ++ docs)
      (indexDocumentsBatch h docs errors) g := by
  refine accepts_ask fun a => ?_
  cases a with
  | ok u => exact tells_ret fun he => ⟨he, rfl⟩
  | error e => exact tells_ret fun he => by simp at he

lemma updateDocumentsBatch_accepts (us : List StoredDocument) (errors : List String) :
    Accepts (fun errors' g' => errors' = [] → errors = [] ∧ g' = g ++ us.map StoredDocument.doc)
      (updateDocumentsBatch h us errors) g := by
  refine accepts_ask fun a => ?_
  cases a with
  | ok u => exact tells_ret fun he => ⟨he, rfl⟩
  | error e => exact tells_ret fun he => by simp at he

/-! ### The full run -/

lemma readings_append (files files' : List String) :
    readings c (files ++ files') = readings c files ++ readings c files' := List.filterMap_append

/-- What was accepted or is pending are the documents of the files so far. -/
lemma indexAllLoop_accepts (files done : List String) (docs : List Document) (errors : List String)
    (hc : errors = [] → Covers h (readings c done) (g ++ docs)) :
    Accepts (fun a g' => a.2 = [] → Covers h (readings c (done ++ files)) (g' ++ a.1))
      (indexAllLoop h c files docs errors) g := by
  induction files generalizing done docs errors g with
  | nil => exact tells_ret (by rwa [List.append_nil])
  | cons p files ih =>
    have hdone : done ++ p :: files = (done ++ [p]) ++ files := by simp
    rw [hdone]
    unfold indexAllLoop
    cases hp : readText c p with
    | none =>
      refine ih _ docs errors fun he => ?_
      simpa [readings_append, readings, hp] using hc he
    | some x =>
      refine (createDocument_accepts p x "full").bind ?_
      rintro d g1 ⟨hd, rfl⟩
      have hadd : errors = [] → Covers h (readings c (done ++ [p])) (g1 ++ (docs ++ [d])) := by
        intro he
        have hcov : Covers h (readings c done ++ [(p, x)]) (g1 ++ (docs ++ [d])) :=
          (hc he).add hd (by simp [or_assoc])
        rw [readings_append]
        simpa [readings, hp] using hcov
      dsimp only
      split
      · refine (indexDocumentsBatch_accepts _ _).bind fun e g2 h2 => ih _ [] e fun he => ?_
        obtain ⟨he', rfl⟩ := h2 he
        rw [List.append_nil]
        exact hadd he'
      · exact ih _ _ errors hadd

lemma indexAllFiles_accepts :
    Accepts (fun errors g' => errors = [] → Covers h (readings c (getRepositoryFiles h r c)) g')
      (indexAllFiles h r c []) [] := by
  refine (indexAllLoop_accepts (getRepositoryFiles h r c) [] [] [] fun _ => covers_nil).bind ?_
  rintro ⟨docs, e⟩ g1 h1
  dsimp only
  split
  · refine (indexDocumentsBatch_accepts _ _).mono (fun _ _ h => h) fun e' g2 h2 he => ?_
    obtain ⟨he', rfl⟩ := h2 he
    exact h1 he'
  · rename_i hdocs
    obtain rfl : docs = [] := not_not.mp hdocs
    refine tells_ret fun he => ?_
    simpa using h1 he

/-! ### The incremental run -/

/-- The text that a change makes a document of. -/
def queued : Action → List (String × String)
  | .create p x => [(p, x)]
  | .replace _ p x => [(p, x)]
  | _ => []

/-- Without errors so far, what was accepted or is queued are the documents made so far. -/
def Pooled (h : GitHandler) (made : List (String × String)) (q : Pending) (g : List Document) : Prop :=
  q.errors = [] → Covers h made (g ++ (q.createDocs ++ q.updateDocs.map StoredDocument.doc))

variable {q : Pending}

lemma lookup_accepts (path purpose : String) (errors : List String) :
    Accepts (fun a g' => g' = g ∧ (a.2 = [] → errors = [])) (lookup h path purpose errors) g := by
  refine accepts_ask fun a => ?_
  cases a with
  | ok u => exact tells_ret ⟨rfl, fun he => he⟩
  | error e => exact tells_ret ⟨rfl, fun he => by simp at he⟩

lemma queueReplacement_accepts (hq : Pooled h made q g) (old p x purpose changeType : String) :
    Accepts (fun q' g' => Pooled h (made ++ [(p, x)]) q' g')
      (queueReplacement h c q old p x purpose changeType) g := by
  refine (lookup_accepts old purpose q.errors).bind ?_
  rintro ⟨found, e⟩ _ ⟨rfl, he⟩
  cases found with
  | some y =>
    refine (createDocument_accepts p x changeType).bind ?_
    rintro d g1 ⟨hd, rfl⟩
    refine tells_ret fun he' => (hq (he he')).add hd fun d' => ?_
    simp [or_assoc]
  | none =>
    refine (createDocument_accepts p x "added").bind ?_
    rintro d g1 ⟨hd, rfl⟩
    refine tells_ret fun he' => (hq (he he')).add hd fun d' => ?_
    simp only [List.mem_append, List.mem_singleton]
    tauto

lemma queueItem_accepts (hq : Pooled h made q g) (d : DiffItem) :
    Accepts (fun a g' => Pooled h (made ++ queued (action h r c d)) a.1 g') (queueItem h r c q d) g := by
  have hnone : Pooled h (made ++ []) q g := by rwa [List.append_nil]
  unfold queueItem action
  by_cases hs : shouldIndexFile h r d.filePath = true
  · simp only [hs, not_true_eq_false, if_false]
    cases d.changeType with
    | added =>
      cases readText c d.filePath with
      | none => exact tells_ret hnone
      | some x =>
        refine (createDocument_accepts d.filePath x "added").bind ?_
        rintro doc g1 ⟨hd, rfl⟩
        refine tells_ret fun he => (hq he).add hd fun d' => ?_
        simp only [List.mem_append, List.mem_singleton]
        tauto
    | modified =>
      cases readText c d.filePath with
      | none => exact tells_ret hnone
      | some x => exact (queueReplacement_accepts hq _ _ _ _ _).bind fun q' g' h' => tells_ret h'
    | deleted =>
      refine (lookup_accepts d.filePath "deletion" q.errors).bind ?_
      rintro ⟨found, e⟩ _ ⟨rfl, he⟩
      cases found with
      | none => exact tells_ret fun he' => hnone (he he')
      | some y => exact tells_ret fun he' => hnone (he he')
    | renamed =>
      cases readText c d.filePath with
      | none => exact tells_ret hnone
      | some x =>
        dsimp only
        cases d.aPath.filter (· ≠ "") with
        | none => exact tells_ret hnone
        | some a => exact (queueReplacement_accepts hq _ _ _ _ _).bind fun q' g' h' => tells_ret h'
    | typeChanged => exact tells_ret hnone
    | copied => exact tells_ret hnone
  · simp only [hs, if_true, not_false_eq_true, Bool.false_eq_true]
    exact tells_ret hnone

/-- A flush moves documents from the queues to what was accepted, or leaves an error. -/
lemma flush_accepts (n : ℕ) (hq : Pooled h made q g) :
    Accepts (fun q' g' => Pooled h made q' g' ∧
      (n = 1 → q'.createDocs = [] ∧ q'.updateDocs = [])) (flush h n q) g := by
  have hcreates : Accepts (fun q' g' => Pooled h made q' g' ∧ (n = 1 → q'.createDocs = []))
      (flushCreates h n q) g := by
    unfold flushCreates
    split
    · refine (indexDocumentsBatch_accepts _ _).bind fun e g1 h1 => tells_ret ⟨fun he => ?_, fun _ => rfl⟩
      obtain ⟨he', rfl⟩ := h1 he
      refine (hq he').congr fun d => ?_
      simp only [List.mem_append, List.not_mem_nil, false_or]
      tauto
    · rename_i hlen
      refine tells_ret ⟨hq, ?_⟩
      rintro rfl
      exact List.eq_nil_of_length_eq_zero (by omega)
  refine hcreates.bind ?_
  rintro q1 g1 ⟨hq1, hn1⟩
  have hupdates : Accepts (fun q' g' => Pooled h made q' g' ∧
      (n = 1 → q'.createDocs = [] ∧ q'.updateDocs = [])) (flushUpdates h n q1) g1 := by
    unfold flushUpdates
    split
    · refine (updateDocumentsBatch_accepts _ _).bind fun e g2 h2 =>
        tells_ret ⟨fun he => ?_, fun hn => ⟨hn1 hn, rfl⟩⟩
      obtain ⟨he', rfl⟩ := h2 he
      refine (hq1 he').congr fun d => ?_
      simp only [List.mem_append, List.map_nil, List.not_mem_nil, or_false]
      tauto
    · rename_i hlen
      refine tells_ret ⟨hq1, fun hn => ⟨hn1 hn, ?_⟩⟩
      subst hn
      exact List.eq_nil_of_length_eq_zero (by omega)
  refine hupdates.bind ?_
  rintro q2 g2 ⟨hq2, hn2⟩
  refine tells_ret ?_
  unfold flushDeletes
  split
  · refine ⟨fun he => hq2 ?_, hn2⟩
    cases hd : q2.deleteDocIds with
    | nil => simpa [deleteDocumentsBatch, hd] using he
    | cons i ids => simp [deleteDocumentsBatch, hd] at he
  · exact ⟨hq2, hn2⟩

lemma indexDiffLoop_accepts (items : List DiffItem) (hq : Pooled h made q g) :
    Accepts (fun q' g' => Pooled h (made ++ items.flatMap fun d => queued (action h r c d)) q' g')
      (indexDiffLoop h r c items q) g := by
  induction items generalizing made q g with
  | nil => exact tells_ret (by simpa using hq)
  | cons d items ih =>
    refine (queueItem_accepts hq d).bind ?_
    rintro ⟨q1, reached⟩ g1 h1
    have hflush : Accepts (fun q' g' => Pooled h (made ++ queued (action h r c d)) q' g')
        (if reached = true then flushFull h q1 else pure q1) g1 := by
      split
      · exact (flush_accepts 10 h1).mono (fun _ _ h => h) fun _ _ h => h.1
      · exact tells_ret h1
    refine hflush.bind fun q2 g2 h2 => ?_
    rw [List.flatMap_cons, ← List.append_assoc]
    exact ih h2

/-! ### A run -/

/-- The change makes the run process the file. -/
def Processes (h : GitHandler) (r : Remote) (d : DiffItem) : Prop :=
  shouldIndexFile h r d.filePath = true ∧
    (d.changeType = .added ∨ d.changeType = .modified ∨ d.changeType = .renamed)

/-- The files that the run has to process: the indexable ones, or those of the changes since the
last run. -/
def ToProcess (h : GitHandler) (r : Remote) (c : Checkout) (p : String) : Prop :=
  match h.path, c.diff h.lastIndexedCommit with
  | .incremental, .ok items => ∃ d ∈ items, d.filePath = p ∧ Processes h r d
  | _, _ => p ∈ c.files ∧ shouldIndexFile h r p = true

/-- The run gets to the file: the walk does not leave its directory out, and a renamed file has
an old path. -/
def Taken (h : GitHandler) (r : Remote) (c : Checkout) (p : String) : Prop :=
  match h.path, c.diff h.lastIndexedCommit with
  | .incremental, .ok items => ∃ d ∈ items, d.filePath = p ∧ Processes h r d ∧
      (d.changeType = .renamed → d.aPath.any (· ≠ ""))
  | _, _ => p ∈ getRepositoryFiles h r c

/-- The texts that the run makes documents of. -/
def texts (h : GitHandler) (r : Remote) (c : Checkout) : List (String × String) :=
  match h.path, c.diff h.lastIndexedCommit with
  | .incremental, .ok items => items.flatMap fun d => queued (action h r c d)
  | _, _ => readings c (getRepositoryFiles h r c)

lemma mem_readings {files : List String} {p x : String} :
    (p, x) ∈ readings c files ↔ p ∈ files ∧ readText c p = some x := by
  simp only [readings, List.mem_filterMap, Option.map_eq_some_iff, Prod.mk.injEq]
  constructor
  · rintro ⟨p', hp, x', hx, rfl, rfl⟩
    exact ⟨hp, hx⟩
  · rintro ⟨hp, hx⟩
    exact ⟨p, hp, x, hx, rfl, rfl⟩

lemma mem_queued {d : DiffItem} {p x : String} (hx : readText c p = some x) :
    (p, x) ∈ queued (action h r c d) ↔ d.filePath = p ∧ Processes h r d ∧
      (d.changeType = .renamed → d.aPath.any (· ≠ "")) := by
  unfold action Processes
  by_cases hs : shouldIndexFile h r d.filePath = true
  · simp only [hs, not_true_eq_false, if_false]
    by_cases hp : d.filePath = p
    · subst hp
      cases d.changeType with
      | added => simp [hx, queued]
      | modified => simp [hx, queued]
      | renamed =>
        cases ha : d.aPath with
        | none => simp [hx, queued]
        | some a => by_cases hne : a = "" <;> simp [hx, queued, hne, Option.filter]
      | deleted => simp [queued]
      | typeChanged => simp [queued]
      | copied => simp [queued]
    · have hno : ∀ y, (p, x) ≠ (d.filePath, y) := fun y he => hp (Prod.mk.inj he).1.symm
      cases d.changeType with
      | added => cases readText c d.filePath <;> simp [queued, hp, hno]
      | modified => cases readText c d.filePath <;> simp [queued, hp, hno]
      | renamed =>
        cases readText c d.filePath with
        | none => simp [queued, hp]
        | some y => cases d.aPath.filter (· ≠ "") <;> simp [queued, hp, hno]
      | deleted => simp [queued, hp]
      | typeChanged => simp [queued, hp]
      | copied => simp [queued, hp]
  · simp [hs, queued]

lemma mem_texts {p x : String} (hread : c.read p = .ok x) (hx : x ≠ "") :
    (p, x) ∈ texts h r c ↔ Taken h r c p := by
  have htext : readText c p = some x := by
    simp [readText, readFileContent, hread, Except.toOption, Option.filter, hx]
  have hfull : (p, x) ∈ readings c (getRepositoryFiles h r c) ↔ p ∈ getRepositoryFiles h r c := by
    rw [mem_readings, htext]
    simp
  unfold texts Taken
  split
  · simp only [List.mem_flatMap, mem_queued htext]
  · exact hfull

/-- Without errors, what was accepted are the documents of the texts. -/
lemma updateIndex_accepts (h : GitHandler) (r : Remote) :
    Accepts (fun out g => out.returned = [] → ∃ c, setupRepository h r = .ok c ∧
      Covers h (texts h r c) g) (h.updateIndex r) [] := by
  have hindex : Accepts (fun a g => a.1 = [] → ∃ c, setupRepository h r = .ok c ∧
      Covers h (texts h r c) g) (h.indexRepository r) [] := by
    unfold GitHandler.indexRepository
    cases hs : setupRepository h r with
    | error e => exact tells_ret fun he => by simp at he
    | ok c =>
      have hfull : Accepts (fun errors g => errors = [] → Covers h (readings c
          (getRepositoryFiles h r c)) g) (indexAllFiles h r c []) [] := indexAllFiles_accepts
      dsimp only
      cases hp : h.path with
      | full =>
        refine hfull.bind fun errors g1 h1 => tells_ret fun he => ⟨c, rfl, ?_⟩
        unfold texts
        rw [hp]
        exact h1 he
      | incremental =>
        have hdiff : Accepts (fun a g => ∀ errors, a = .ok errors → errors = [] →
            Covers h (texts h r c) g) (indexDiffFiles h r c []) [] := by
          unfold indexDiffFiles
          cases hd : c.diff h.lastIndexedCommit with
          | error e =>
            cases e with
            | badName =>
              refine hfull.bind fun errors g1 h1 => tells_ret ?_
              rintro _ ⟨⟩ he
              unfold texts
              rw [hp, hd]
              exact h1 he
            | other m =>
              refine tells_ret ?_
              rintro _ ⟨⟩
          | ok items =>
            have hstart : Pooled h [] ⟨[], [], [], []⟩ [] := fun _ => covers_nil
            refine (indexDiffLoop_accepts items hstart).bind fun q1 g1 h1 =>
              (flush_accepts 1 h1).bind ?_
            rintro q2 g2 ⟨h2, hn⟩
            refine tells_ret ?_
            rintro _ ⟨⟩ he
            have hcov := h2 he
            rw [(hn rfl).1, (hn rfl).2] at hcov
            unfold texts
            rw [hp, hd]
            simpa using hcov
        refine hdiff.bind ?_
        rintro (e | errors) g1 h1
        · exact tells_ret fun he => by simp at he
        · exact tells_ret fun he => ⟨c, rfl, h1 errors rfl he⟩
  refine accepts_ask fun start => hindex.bind ?_
  rintro ⟨errors, commit⟩ g1 h1
  exact accepts_ask fun stop => tells_ret h1

/-- **An error-free Git run has lost nothing** exactly when it could read every file it had to
process and has got to each of them that has a text. -/
theorem updateIndex_lost_nothing_iff (h : GitHandler) (r : Remote) :
    Accepts (fun out accepted => out.returned = [] → ∃ c, setupRepository h r = .ok c ∧
      ((∀ p, ToProcess h r c p → ∃ x, c.read p = .ok x ∧ (x ≠ "" → Has accepted p x)) ↔
        ∀ p, ToProcess h r c p → ∃ x, c.read p = .ok x ∧ (x ≠ "" → Taken h r c p)))
      (h.updateIndex r) [] := by
  refine (updateIndex_accepts h r).mono (fun _ _ h => h) fun out g hout he => ?_
  obtain ⟨c, hs, hcov⟩ := hout he
  refine ⟨c, hs, forall₂_congr fun p _ => exists_congr fun x => and_congr_right fun hread =>
    forall_congr' fun hx => ?_⟩
  rw [hcov.has_iff, mem_texts hread hx]

/-! ### A file that cannot be read -/

lemma indexAllLoop_unread (hread : ∀ p, readText c p = none) (files : List String)
    (docs : List Document) (errors : List String) :
    indexAllLoop h c files docs errors = pure (docs, errors) := by
  induction files with
  | nil => rfl
  | cons p files ih =>
    unfold indexAllLoop
    rw [hread p]
    exact ih

/-- A full run over files none of which can be read asks for nothing and has no error. -/
lemma indexRepository_unread (hpath : h.path = .full) (hs : setupRepository h r = .ok c)
    (hread : ∀ p, readText c p = none) : h.indexRepository r = pure ([], some c.head) := by
  unfold GitHandler.indexRepository indexAllFiles
  rw [hs, hpath]
  dsimp only
  rw [indexAllLoop_unread hread]
  rfl

/-- The first run of the example's handler. -/
def firstHandler : GitHandler := { demoHandler with lastIndexedCommit := "" }

/-- A repository with one file, which cannot be read. -/
def brokenCheckout : Checkout := { demoCheckout [] with read := fun _ => .error "bad encoding" }

def brokenRemote : Remote := { demoRemote [] with clone := .ok brokenCheckout }

/-- The run returns no error, and the file is lost. -/
theorem not_updateIndex_lost_nothing :
    ¬ ∀ (h : GitHandler) (r : Remote), Accepts (fun out accepted => out.returned = [] →
      ∃ c, setupRepository h r = .ok c ∧
        ∀ p, ToProcess h r c p → ∃ x, c.read p = .ok x ∧ (x ≠ "" → Has accepted p x))
      (h.updateIndex r) [] := by
  intro h
  have hs : setupRepository firstHandler brokenRemote = .ok brokenCheckout := rfl
  have hrun := h firstHandler brokenRemote
  unfold GitHandler.updateIndex at hrun
  rw [indexRepository_unread rfl hs fun _ => rfl] at hrun
  have hout := ((hrun.step (r := 0) rfl).2.step (r := 0) rfl).2.done
  obtain ⟨c, hc, hall⟩ := hout rfl
  obtain rfl : brokenCheckout = c := Except.ok.inj (hs.symm.trans hc)
  have hmem : "a.md" ∈ brokenCheckout.files := by
    change "a.md" ∈ (demoCheckout []).files
    simp [GitSpec.demo_files]
  have hindex : shouldIndexFile firstHandler brokenRemote "a.md" = true := by decide
  obtain ⟨x, hx, -⟩ := hall "a.md" ⟨hmem, hindex⟩
  cases hx

end KaitoAutoIndexer.NothingLost
