import KaitoAutoIndexer.Git
import KaitoAutoIndexer.Lib.Keyed

/-!
The trees of a repository, what it means that documents mirror one, and what the routines of
the Git handler do to the index they work on when nobody else writes to it.
-/

namespace KaitoAutoIndexer.GitSpec

open KaitoAutoIndexer.Lib KaitoAutoIndexer.Types
open KaitoAutoIndexer.Rag KaitoAutoIndexer.JobClient KaitoAutoIndexer.Git

/-- The index that a handler works on. The other calls of a job do not touch it. -/
def indexService (mayFail : Prop) : Service Store JobCall JobAnswer
  | s, .rag _ q, r, s' => Rag.Serves mayFail s q r s'
  | s, _, _, s' => s' = s

/-- One way in which the service answers. -/
def indexServe (s : Store) : (c : JobCall) → JobAnswer c × Store
  | .rag _ q => Rag.serve s q
  | .now => (0, s)
  | .getAutoIndexer => (.error .notFound, s)
  | .patchStatus _ => (.ok (), s)
  | .kusto _ => (.ok [], s)
  | .fetch _ => (.ok none, s)

lemma indexService_indexServe (mayFail : Prop) (s : Store) (c : JobCall) :
    indexService mayFail s c (indexServe s c).1 (indexServe s c).2 := by
  cases c with
  | rag target q => exact Rag.serves_serve mayFail s q
  | _ => rfl

variable {mayFail : Prop} {s : Store} {h : GitHandler} {r : Remote} {c : Checkout}

/-! ### Trees and documents -/

/-- The files of a tree by their paths, with the text extracted from each. -/
abbrev Tree := String → Option String

/-- What the tree has to index: the non-empty texts of the files to be indexed. -/
def wanted (h : GitHandler) (r : Remote) (t : Tree) (p : String) : Option String :=
  if shouldIndexFile h r p then (t p).filter (· ≠ "") else none

/-- The working directory shows the tree: apart from Git's own directory it has the files of
the tree, each once, and what is read of a file is its text. -/
structure Shows (c : Checkout) (t : Tree) : Prop where
  nodup : c.files.Nodup
  files : ∀ p, (Text.pathParts p).head? ≠ some ".git".toList → (p ∈ c.files ↔ (t p).isSome)
  read : ∀ p x, (t p).isSome → c.read p = .ok x → t p = some x

/-- The texts of the documents of a path. -/
def texts (docs : List Document) (path : Option String) : List String :=
  valuesAt Document.filePath Document.text docs path

/-- The documents are tagged with `A`, and there is one for each path that `f` gives a text,
with that text, and no other. -/
structure Mirrors (A : String) (f : String → Option String) (docs : List Document) : Prop where
  owner : ∀ d ∈ docs, d.owner = some A
  atPath : ∀ p, texts docs (some p) = (f p).toList
  noPath : texts docs none = []

def documents (s : Store) : List Document := s.map StoredDocument.doc

/-- The documents tagged with `A`. -/
def ownDocuments (A : String) (s : Store) : List Document :=
  (documents s).filter (·.owner = some A)

/-- A document made for the text `x` of the file at `p`. -/
structure IsDocument (h : GitHandler) (p x : String) (d : Document) : Prop where
  owner : d.owner = some h.autoindexerName
  filePath : d.filePath = some p
  text : d.text = x

@[simp] lemma texts_nil (k : Option String) : texts [] k = [] := rfl

@[simp] lemma texts_append (l l' : List Document) (k : Option String) :
    texts (l ++ l') k = texts l k ++ texts l' k := valuesAt_append l l' k

lemma texts_cons (d : Document) (docs : List Document) (k : Option String) :
    texts (d :: docs) k = (if d.filePath = k then [d.text] else []) ++ texts docs k :=
  valuesAt_cons d docs k

@[simp] lemma documents_append (s s' : Store) : documents (s ++ s') = documents s ++ documents s' := by
  simp [documents]

lemma documents_zipWith {new : List ℕ} {docs : List Document} (hlen : new.length = docs.length) :
    documents (List.zipWith StoredDocument.mk new docs) = docs := by
  unfold documents
  rw [List.map_zipWith]
  induction new generalizing docs with
  | nil =>
    rw [List.length_nil] at hlen
    simp [List.length_eq_zero_iff.mp hlen.symm]
  | cons i new ih =>
    cases docs with
    | nil => simp at hlen
    | cons d docs => simpa using ih (by simpa using hlen)

lemma documents_of_added {docs : List Document} {s s' : Store} (ha : Added docs s s') :
    documents s' = documents s ++ docs := by
  obtain ⟨new, hlen, -, -, rfl⟩ := ha
  rw [documents_append, documents_zipWith hlen]

lemma mem_added {docs : List Document} {s' : Store} (ha : Added docs s s') {x : StoredDocument}
    (hx : x ∈ s') : x ∈ s ∨ x.doc ∈ docs ∧ x.docId ∉ Rag.ids s := by
  obtain ⟨new, hlen, -, hfresh, rfl⟩ := ha
  rcases List.mem_append.mp hx with hx | hx
  · exact .inl hx
  · refine .inr ⟨?_, hfresh _ ?_⟩
    · rw [← documents_zipWith hlen]
      exact List.mem_map_of_mem hx
    · rw [← ids_zipWith hlen]
      exact List.mem_map_of_mem hx

/-- Documents made for a list of paths with texts. -/
lemma texts_of_made {made : List (String × String)} {docs : List Document}
    (hm : List.Forall₂ (fun e d => IsDocument h e.1 e.2 d) made docs) :
    (∀ d ∈ docs, d.owner = some h.autoindexerName) ∧ texts docs none = [] ∧
      ∀ p, texts docs (some p) = valuesAt Prod.fst Prod.snd made p := by
  induction hm with
  | nil => simp
  | @cons e d made docs he _ ih =>
    obtain ⟨h1, h2, h3⟩ := ih
    refine ⟨by simpa [he.owner] using h1, ?_, fun p => ?_⟩
    · simpa [texts_cons, he.filePath] using h2
    · rw [texts_cons, he.filePath, he.text, valuesAt_cons, h3 p]
      simp

/-! ### Documents and batches -/

lemma createDocument_runs (content changeType : String) (p : String) :
    Runs (indexService mayFail) (fun d s' => IsDocument h p content d ∧ s' = s)
      (createDocument h c p content changeType) s := by
  simp only [createDocument, ask_bind, runs_ask]
  rintro t s' rfl
  refine ⟨⟨?_, ?_, rfl⟩, rfl⟩
  · simp [Document.owner]
  · simp [Document.filePath, List.lookup]

/-- A batch is added, or else a failure is reported. -/
lemma indexDocumentsBatch_runs (docs : List Document) (errors : List String) :
    Runs (indexService mayFail) (fun e s' => (e = errors ∧ Added docs s s') ∨
      (mayFail ∧ e ≠ [] ∧ (s' = s ∨ Added docs s s')))
      (indexDocumentsBatch h docs errors) s := by
  simp only [indexDocumentsBatch, ask_bind, runs_ask]
  intro a s' hs
  cases a with
  | ok u => exact .inl ⟨rfl, hs⟩
  | error m => exact .inr ⟨hs.1, by simp, hs.2⟩

/-! ### The full run -/

/-- The files that are read, with their texts. -/
def readings (c : Checkout) (files : List String) : List (String × String) :=
  files.filterMap fun p => (readText c p).map (p, ·)

/-- The documents of the index and the pending ones are those from before and, for each file
that was read, a new one. -/
def Indexed (h : GitHandler) (c : Checkout) (files : List String) (before after : List Document) :
    Prop :=
  ∃ new, after = before ++ new ∧
    List.Forall₂ (fun e d => IsDocument h e.1 e.2 d) (readings c files) new

lemma indexAllLoop_runs (files : List String) (docs : List Document) (errors : List String)
    (s : Store) :
    Runs (indexService mayFail) (fun q s' =>
      (q.2 = errors ∧ Indexed h c files (documents s ++ docs) (documents s' ++ q.1)) ∨
      (mayFail ∧ q.2 ≠ [])) (indexAllLoop h c files docs errors) s := by
  induction files generalizing docs errors s with
  | nil => exact .inl ⟨rfl, [], by simp, .nil⟩
  | cons p files ih =>
    unfold indexAllLoop
    cases hp : readText c p with
    | none =>
      refine (ih docs errors s).mono fun q s' hq => ?_
      simpa [Indexed, readings, hp] using hq
    | some x =>
      refine (createDocument_runs x "full" p).bind ?_
      rintro d s1 ⟨hd, rfl⟩
      have hcons : ∀ {e : List String} {q : List Document × List String} {s' : Store},
          q.2 = e ∧ Indexed h c files (documents s1 ++ (docs ++ [d])) (documents s' ++ q.1) →
          q.2 = e ∧ Indexed h c (p :: files) (documents s1 ++ docs) (documents s' ++ q.1) := by
        rintro e q s' ⟨he, new, hnew, hfor⟩
        refine ⟨he, d :: new, by simp [hnew], ?_⟩
        simpa [readings, hp] using And.intro hd hfor
      dsimp only
      split
      · refine (indexDocumentsBatch_runs (docs ++ [d]) errors).bind ?_
        rintro e s2 (⟨rfl, hadd⟩ | ⟨hf, he, -⟩)
        · refine (ih [] e s2).mono fun q s' hq => hq.imp_left fun hq => hcons ?_
          simpa [documents_of_added hadd] using hq
        · refine (ih [] e s2).mono fun q s' hq => .inr ⟨hf, ?_⟩
          rcases hq with ⟨hq, -⟩ | ⟨-, hq⟩
          · rwa [hq]
          · exact hq
      · exact (ih (docs ++ [d]) errors s1).mono fun q s' hq => hq.imp_left hcons

/-- Unless a failure is reported, a full run adds a document for every file that it selects
and reads, and removes none. -/
lemma indexAllFiles_runs (errors : List String) (s : Store) :
    Runs (indexService mayFail) (fun e s' =>
      (e = errors ∧ Indexed h c (getRepositoryFiles h r c) (documents s) (documents s')) ∨
      (mayFail ∧ e ≠ [])) (indexAllFiles h r c errors) s := by
  refine (indexAllLoop_runs _ [] errors s).bind ?_
  rintro ⟨docs, e⟩ s1 hq
  dsimp only at hq ⊢
  split
  · refine (indexDocumentsBatch_runs docs e).mono fun e' s2 he => ?_
    rcases hq with ⟨rfl, hq⟩ | ⟨hf, hq⟩
    · rcases he with ⟨rfl, hadd⟩ | ⟨hf, he, -⟩
      · exact .inl ⟨rfl, by simpa [documents_of_added hadd] using hq⟩
      · exact .inr ⟨hf, he⟩
    · rcases he with ⟨rfl, -⟩ | ⟨-, he, -⟩
      · exact .inr ⟨hf, hq⟩
      · exact .inr ⟨hf, he⟩
  · rename_i hdocs
    obtain rfl : docs = [] := not_not.mp hdocs
    exact hq.imp_left fun hq => by simpa using hq

/-! ### The selected files -/

/-- The walk gets to the file: it is in a directory whose path does not contain `.git`. -/
def listed (c : Checkout) (p : String) : Bool :=
  c.walk.any fun d => !Text.contains (root c d.1) ".git" && (d.2.map (joinPath d.1)).contains p

lemma getRepositoryFiles_sublist (h : GitHandler) (r : Remote) (c : Checkout) :
    (getRepositoryFiles h r c).Sublist c.files := by
  unfold getRepositoryFiles Checkout.files
  induction c.walk with
  | nil => exact .refl _
  | cons d walk ih =>
    simp only [List.flatMap_cons]
    refine List.Sublist.append ?_ ih
    split
    · exact List.nil_sublist _
    · exact List.filter_sublist

lemma mem_getRepositoryFiles {p : String} :
    p ∈ getRepositoryFiles h r c ↔ listed c p = true ∧ shouldIndexFile h r p = true := by
  simp only [getRepositoryFiles, listed, List.mem_flatMap, List.any_eq_true, Bool.and_eq_true,
    List.contains_iff_mem]
  constructor
  · rintro ⟨d, hd, hp⟩
    split at hp
    · cases hp
    · rename_i hc
      obtain ⟨hp, hs⟩ := List.mem_filter.mp hp
      exact ⟨⟨d, hd, by simpa using hc, hp⟩, hs⟩
  · rintro ⟨⟨d, hd, hc, hp⟩, hs⟩
    refine ⟨d, hd, ?_⟩
    rw [if_neg (by simpa using hc)]
    exact List.mem_filter.mpr ⟨hp, hs⟩

lemma mem_files_of_listed {p : String} (hp : listed c p = true) : p ∈ c.files := by
  obtain ⟨d, hd, hp⟩ := List.any_eq_true.mp hp
  simp only [Bool.and_eq_true, List.contains_iff_mem] at hp
  exact List.mem_flatMap.mpr ⟨d, hd, hp.2⟩

/-- Git's own files are hidden. -/
lemma head_ne_git_of_shouldIndexFile {p : String} (hp : shouldIndexFile h r p = true) :
    (Text.pathParts p).head? ≠ some ".git".toList := by
  intro hg
  have hhidden : (Text.pathParts p).any (·.head? == some '.') = true :=
    List.any_eq_true.mpr ⟨_, List.mem_of_head? hg, by decide⟩
  simp [shouldIndexFile, hhidden] at hp

/-- A text to be indexed that the run gets to. -/
def reached (h : GitHandler) (r : Remote) (c : Checkout) (t : Tree) (p : String) : Option String :=
  if listed c p && (c.read p).toOption.isSome then wanted h r t p else none

lemma valuesAt_readings {files : List String} (hn : files.Nodup) (p : String) :
    valuesAt Prod.fst Prod.snd (readings c files) p =
      if p ∈ files then (readText c p).toList else [] := by
  induction files with
  | nil => rfl
  | cons q files ih =>
    obtain ⟨hq, hn⟩ := List.nodup_cons.mp hn
    have hcons : readings c (q :: files) = ((readText c q).map (q, ·)).toList ++ readings c files := by
      unfold readings
      cases hr : readText c q <;> simp [hr]
    rw [hcons, valuesAt_append, ih hn]
    by_cases hpq : q = p
    · subst hpq
      cases readText c q <;> simp [hq, valuesAt]
    · have hpq' : p ≠ q := fun h => hpq h.symm
      cases readText c q <;> simp [hpq, hpq', valuesAt]

/-- What a full run adds at a path. -/
lemma texts_of_indexed {t : Tree} (hc : Shows c t) {before after : List Document}
    (hi : Indexed h c (getRepositoryFiles h r c) before after) :
    ∃ new, after = before ++ new ∧ Mirrors h.autoindexerName (reached h r c t) new := by
  obtain ⟨new, rfl, hnew⟩ := hi
  obtain ⟨h1, h2, h3⟩ := texts_of_made hnew
  refine ⟨new, rfl, h1, fun p => ?_, h2⟩
  rw [h3, valuesAt_readings ((getRepositoryFiles_sublist h r c).nodup hc.nodup)]
  simp only [mem_getRepositoryFiles]
  unfold reached wanted
  cases hl : listed c p
  · simp
  · cases hs : shouldIndexFile h r p
    · simp
    · have htree : (t p).isSome :=
        (hc.files p (head_ne_git_of_shouldIndexFile hs)).mp (mem_files_of_listed hl)
      cases hr : c.read p with
      | error e => simp [readText, readFileContent, hr, Except.toOption]
      | ok x => simp [readText, readFileContent, hr, Except.toOption, hc.read p x htree hr]

/-! ### A turn of the incremental run -/

/-- What a change calls for: a document for the text `x` of the file at `p`, new or in the
place of the one at `old`, or a deletion. -/
inductive Action
  | nothing
  | create (p x : String)
  | replace (old p x : String)
  | delete (p : String)

def action (h : GitHandler) (r : Remote) (c : Checkout) (d : DiffItem) : Action :=
  if ¬ shouldIndexFile h r d.filePath then .nothing
  else
    match d.changeType with
    | .added => ((readText c d.filePath).map fun x => .create d.filePath x).getD .nothing
    | .modified =>
      ((readText c d.filePath).map fun x => .replace d.filePath d.filePath x).getD .nothing
    | .deleted => .delete d.filePath
    | .renamed =>
      ((readText c d.filePath).bind fun x =>
        (d.aPath.filter (· ≠ "")).map fun a => .replace a d.filePath x).getD .nothing
    | .typeChanged => .nothing
    | .copied => .nothing

/-- How a turn changes the queues of new documents and of updates. -/
inductive Turn (mayFail : Prop) (h : GitHandler) (s : Store) (q q' : Pending) : Action → Prop
  | nothing (hc : q'.createDocs = q.createDocs) (hu : q'.updateDocs = q.updateDocs) :
      Turn mayFail h s q q' .nothing
  | delete {p} (hc : q'.createDocs = q.createDocs) (hu : q'.updateDocs = q.updateDocs) :
      Turn mayFail h s q q' (.delete p)
  | create {p x d} (hd : IsDocument h p x d) (hc : q'.createDocs = q.createDocs ++ [d])
      (hu : q'.updateDocs = q.updateDocs) : Turn mayFail h s q q' (.create p x)
  | found {old p x d y} (hy : y ∈ s) (hold : y.doc.filePath = some old) (hd : IsDocument h p x d)
      (hc : q'.createDocs = q.createDocs) (hu : q'.updateDocs = q.updateDocs ++ [⟨y.docId, d⟩]) :
      Turn mayFail h s q q' (.replace old p x)
  | missing {old p x d} (hno : ¬ mayFail → ∀ y ∈ s, y.doc.filePath ≠ some old)
      (hd : IsDocument h p x d) (hc : q'.createDocs = q.createDocs ++ [d])
      (hu : q'.updateDocs = q.updateDocs) : Turn mayFail h s q q' (.replace old p x)

lemma matches_filePath (path : String) (d : Document) :
    d.matches [("file_path", path)] = true ↔ d.filePath = some path := by
  simp [Document.matches, Document.filePath]

lemma lookup_runs (path purpose : String) (errors : List String) :
    Runs (indexService mayFail) (fun a s' => s' = s ∧
      (∀ y, a.1 = some y → y ∈ s ∧ y.doc.filePath = some path) ∧
      (¬ mayFail → a.1 = none → ∀ y ∈ s, y.doc.filePath ≠ some path))
      (lookup h path purpose errors) s := by
  simp only [lookup, ask_bind, runs_ask]
  intro a s' hs
  cases a with
  | error e => exact ⟨hs.2, by simp, fun hf => absurd hs.1 hf⟩
  | ok resp =>
    obtain ⟨rfl, hsub, hlen, -⟩ := hs
    refine ⟨rfl, fun y hy => ?_, fun _ hnone y hy hpath => ?_⟩
    · have hmem := hsub.subset (List.mem_of_head? hy)
      obtain ⟨hmem, hmatch⟩ := List.mem_filter.mp hmem
      exact ⟨hmem, (matches_filePath path y.doc).mp hmatch⟩
    · have hfound : y ∈ s'.filter fun d => d.doc.matches [("file_path", path)] :=
        List.mem_filter.mpr ⟨hy, (matches_filePath path y.doc).mpr hpath⟩
      have hpos := List.length_pos_of_mem hfound
      rw [List.head?_eq_none_iff.mp hnone, List.length_nil] at hlen
      omega

lemma queueReplacement_runs (q : Pending) (old p x purpose changeType : String) :
    Runs (indexService mayFail) (fun q' s' => s' = s ∧ Turn mayFail h s q q' (.replace old p x))
      (queueReplacement h c q old p x purpose changeType) s := by
  refine (lookup_runs old purpose q.errors).bind ?_
  rintro ⟨o, e⟩ s1 ⟨rfl, hsome, hnone⟩
  cases o with
  | some y =>
    refine (createDocument_runs x changeType p).bind ?_
    rintro d s2 ⟨hd, rfl⟩
    obtain ⟨hy, hold⟩ := hsome y rfl
    exact ⟨rfl, .found hy hold hd rfl rfl⟩
  | none =>
    refine (createDocument_runs x "added" p).bind ?_
    rintro d s2 ⟨hd, rfl⟩
    exact ⟨rfl, .missing (fun hf => hnone hf rfl) hd rfl rfl⟩

/-- A turn reads the index only, and queues what its change calls for. -/
lemma queueItem_runs (q : Pending) (d : DiffItem) :
    Runs (indexService mayFail) (fun a s' => s' = s ∧ Turn mayFail h s q a.1 (action h r c d))
      (queueItem h r c q d) s := by
  unfold queueItem action
  by_cases hs : shouldIndexFile h r d.filePath = true
  · simp only [hs, not_true_eq_false, if_false]
    cases d.changeType with
    | added =>
      cases readText c d.filePath with
      | none => exact ⟨rfl, .nothing rfl rfl⟩
      | some x =>
        refine (createDocument_runs x "added" d.filePath).bind ?_
        rintro doc s1 ⟨hd, rfl⟩
        exact ⟨rfl, .create hd rfl rfl⟩
    | modified =>
      cases readText c d.filePath with
      | none => exact ⟨rfl, .nothing rfl rfl⟩
      | some x =>
        exact (queueReplacement_runs q d.filePath d.filePath x "update" "modified").bind
          fun q' s1 h1 => h1
    | deleted =>
      refine (lookup_runs d.filePath "deletion" q.errors).bind ?_
      rintro ⟨o, e⟩ s1 ⟨rfl, -, -⟩
      cases o with
      | some y => exact ⟨rfl, .delete rfl rfl⟩
      | none => exact ⟨rfl, .delete rfl rfl⟩
    | renamed =>
      cases readText c d.filePath with
      | none => exact ⟨rfl, .nothing rfl rfl⟩
      | some x =>
        dsimp only
        cases d.aPath.filter (· ≠ "") with
        | none => exact ⟨rfl, .nothing rfl rfl⟩
        | some a =>
          exact (queueReplacement_runs q a d.filePath x "renaming" "renamed").bind
            fun q' s1 h1 => h1
    | typeChanged => exact ⟨rfl, .nothing rfl rfl⟩
    | copied => exact ⟨rfl, .nothing rfl rfl⟩
  · simp only [hs, if_true, not_false_eq_true, Bool.false_eq_true]
    exact ⟨rfl, .nothing rfl rfl⟩

lemma queueItem_of_replace {d : DiffItem} {old p x : String}
    (ha : action h r c d = .replace old p x) (q : Pending) :
    ∃ purpose changeType, queueItem h r c q d =
      queueReplacement h c q old p x purpose changeType >>= fun q' => .ret (q', true) := by
  unfold action at ha
  split at ha
  · cases ha
  rename_i hs
  unfold queueItem
  simp only [not_not.mp hs, not_true_eq_false, if_false]
  generalize d.changeType = ct at ha ⊢
  cases ct with
  | modified =>
    cases hx : readText c d.filePath with
    | none => simp [hx] at ha
    | some y =>
      simp only [hx, Option.map_some, Option.getD_some, Action.replace.injEq] at ha
      obtain ⟨rfl, rfl, rfl⟩ := ha
      exact ⟨_, _, rfl⟩
  | renamed =>
    cases hx : readText c d.filePath with
    | none => simp [hx] at ha
    | some y =>
      dsimp only
      cases hb : d.aPath.filter (· ≠ "") with
      | none => simp only [hx, hb, Option.bind_some, Option.map_none, Option.getD_none, reduceCtorEq] at ha
      | some b =>
        simp only [hx, hb, Option.bind_some, Option.map_some, Option.getD_some,
          Action.replace.injEq] at ha
        obtain ⟨rfl, rfl, rfl⟩ := ha
        exact ⟨_, _, rfl⟩
  | added => cases hx : readText c d.filePath <;> simp [hx] at ha
  | deleted => cases ha
  | typeChanged => cases ha
  | copied => cases ha

/-! ### A small repository -/

/-- A handler that has indexed the commit `c0ffee`. -/
def demoHandler : GitHandler :=
  ⟨⟨"http://rag.default.svc.cluster.local:80", "index"⟩, "default_docs", "https://host/repo", "main",
    none, [], [], "c0ffee", []⟩

/-- The one file `a.md`, after the given changes. -/
def demoCheckout (items : List DiffItem) : Checkout where
  workDir := "/tmp/autoindexer_git_x"
  head := "decaf"
  walk := [("", ["a.md"])]
  read := fun _ => .ok "A"
  diff := fun _ => .ok items

def demoRemote (items : List DiffItem) : Remote :=
  ⟨.ok (demoCheckout items), fun _ => .ok (demoCheckout items), .ok, fun _ _ => false⟩

def demoTree : Tree := fun p => if p = "a.md" then some "A" else none

lemma demo_files (items : List DiffItem) : (demoCheckout items).files = ["a.md"] := by
  simp [demoCheckout, Checkout.files, joinPath]

lemma demo_shows (items : List DiffItem) : Shows (demoCheckout items) demoTree where
  nodup := by simp [demo_files]
  files := by
    intro p _
    rw [demo_files, List.mem_singleton]
    by_cases hp : p = "a.md" <;> simp [demoTree, hp]
  read := by
    intro p x hp hx
    by_cases hpa : p = "a.md"
    · simpa [demoTree, hpa, demoCheckout] using hx
    · simp [demoTree, hpa] at hp

end KaitoAutoIndexer.GitSpec
