import KaitoAutoIndexer.GitSpec

/-!
Whose documents an incremental run of the Git handler replaces. The documents to replace are
looked up by their path alone.
-/

namespace KaitoAutoIndexer.Lookups

open KaitoAutoIndexer.Lib KaitoAutoIndexer.Types
open KaitoAutoIndexer.Rag KaitoAutoIndexer.JobClient KaitoAutoIndexer.Git
open KaitoAutoIndexer.GitSpec

/-- An update names ids of documents tagged with `A` only. The job has no other request that
changes or removes a document. -/
def OwnUpdates (A : String) (s : Store) : JobCall → Prop
  | .rag _ (.updateDocuments us) => ∀ u ∈ us, ∀ x ∈ s, x.docId = u.docId → x.doc.owner = some A
  | _ => True

/-- The path whose document a change replaces: that of a modified or renamed file which is to
be indexed and has text. -/
def replacedPath (h : GitHandler) (r : Remote) (c : Checkout) (d : DiffItem) : Option String :=
  match action h r c d with
  | .replace old _ _ => some old
  | _ => none

/-- Every document of one of the paths is tagged with `A`. -/
def PathsOwn (A : String) (paths : String → Prop) (s : Store) : Prop :=
  ∀ x ∈ s, ∀ p, paths p → x.doc.filePath = some p → x.doc.owner = some A

/-- The paths that the changes replace. -/
def replacedPaths (h : GitHandler) (r : Remote) (c : Checkout) (items : List DiffItem)
    (p : String) : Prop :=
  ∃ d ∈ items, replacedPath h r c d = some p

variable {h : GitHandler} {r : Remote} {c : Checkout} {A : String} {paths : String → Prop}
  {s : Store} {q : Pending}

/-! ### When the documents are the run's own -/

/-- What the run relies on. -/
structure Own (A : String) (paths : String → Prop) (s : Store) (q : Pending) : Prop where
  ids : (ids s).Nodup
  paths : PathsOwn A paths s
  created : ∀ d ∈ q.createDocs, d.owner = some A
  updates : ∀ u ∈ q.updateDocs, u.doc.owner = some A
  updated : ∀ u ∈ q.updateDocs, ∀ x ∈ s, x.docId = u.docId → x.doc.owner = some A

lemma PathsOwn.added {docs : List Document} {s' : Store} (hs : PathsOwn A paths s)
    (ha : Added docs s s') (hd : ∀ d ∈ docs, d.owner = some A) : PathsOwn A paths s' := by
  intro x hx p hp hxp
  rcases mem_added ha hx with hx | ⟨hx, -⟩
  · exact hs x hx p hp hxp
  · exact hd _ hx

lemma PathsOwn.replaced {us : List StoredDocument} (hs : PathsOwn A paths s)
    (hu : ∀ u ∈ us, u.doc.owner = some A) : PathsOwn A paths (replaceAll us s) := by
  intro x hx p hp hxp
  rcases mem_replaceAll hx with hx | hx
  · exact hs x hx p hp hxp
  · exact hu x hx

lemma Own.congr {q' : Pending} (hc : q'.createDocs = q.createDocs)
    (hu : q'.updateDocs = q.updateDocs) (ho : Own A paths s q) : Own A paths s q' where
  ids := ho.ids
  paths := ho.paths
  created := by rw [hc]; exact ho.created
  updates := by rw [hu]; exact ho.updates
  updated := by rw [hu]; exact ho.updated

/-- The found document is the only one with its id. -/
lemma Own.turn {q' : Pending} {a : Action} (ho : Own h.autoindexerName paths s q)
    (hp : ∀ old p x, a = .replace old p x → paths old) (ht : Turn True h s q q' a) :
    Own h.autoindexerName paths s q' := by
  cases ht with
  | nothing hc hu => exact ho.congr hc hu
  | delete hc hu => exact ho.congr hc hu
  | create hd hc hu =>
    refine ⟨ho.ids, ho.paths, ?_, by rw [hu]; exact ho.updates, by rw [hu]; exact ho.updated⟩
    rw [hc]
    simpa [or_imp, forall_and, hd.owner] using ho.created
  | missing hno hd hc hu =>
    refine ⟨ho.ids, ho.paths, ?_, by rw [hu]; exact ho.updates, by rw [hu]; exact ho.updated⟩
    rw [hc]
    simpa [or_imp, forall_and, hd.owner] using ho.created
  | @found old p x d y hy hold hd hc hu =>
    refine ⟨ho.ids, ho.paths, by rw [hc]; exact ho.created, ?_, ?_⟩
    · rw [hu]
      simpa [or_imp, forall_and, hd.owner] using ho.updates
    · rw [hu]
      intro u hu' x' hx' hid
      rcases List.mem_append.mp hu' with hu' | hu'
      · exact ho.updated u hu' x' hx' hid
      · rw [List.mem_singleton.mp hu'] at hid
        have hxy : x' = y := List.inj_on_of_nodup_map ho.ids hx' hy hid
        exact hxy ▸ ho.paths y hy old (hp _ _ _ rfl) hold

lemma Own.afterCreate {s' : Store} (ho : Own A paths s q) (ha : Added q.createDocs s s')
    (e : List String) : Own A paths s' { q with createDocs := [], errors := e } where
  ids := ha.nodup ho.ids
  paths := ho.paths.added ha ho.created
  created := by simp
  updates := ho.updates
  updated := by
    intro u hu x hx hid
    rcases mem_added ha hx with hx | ⟨hx, -⟩
    · exact ho.updated u hu x hx hid
    · exact ho.created _ hx

lemma Own.afterUpdate (ho : Own A paths s q) (e : List String) :
    Own A paths (replaceAll q.updateDocs s) { q with updateDocs := [], errors := e } where
  ids := by simpa using ho.ids
  paths := ho.paths.replaced ho.updates
  created := ho.created
  updates := by simp
  updated := by simp

lemma Own.drop {A : String} (ho : Own A paths s q) (e : List String) :
    Own A paths s { q with createDocs := [], errors := e } ∧
      Own A paths s { q with updateDocs := [], errors := e } :=
  ⟨⟨ho.ids, ho.paths, by simp, ho.updates, ho.updated⟩,
    ⟨ho.ids, ho.paths, ho.created, by simp, by simp⟩⟩

/-! ### The calls of a turn -/

/-- No document is replaced. -/
def NoUpdate : JobCall → Prop
  | .rag _ (.updateDocuments _) => False
  | _ => True

lemma NoUpdate.own {s : Store} {c : JobCall} (hc : NoUpdate c) : OwnUpdates A s c := by
  match c with
  | .rag _ (.updateDocuments us) => exact hc.elim
  | .rag _ (.indexDocuments _) => trivial
  | .rag _ (.listDocuments _ _) => trivial
  | .now => trivial
  | .getAutoIndexer => trivial
  | .patchStatus _ => trivial
  | .kusto _ => trivial
  | .fetch _ => trivial

lemma createDocument_noUpdate (p x changeType : String) :
    Obeys NoUpdate (fun _ => True) (createDocument h c p x changeType) :=
  ⟨trivial, fun _ => trivial⟩

lemma lookup_noUpdate (path purpose : String) (e : List String) :
    Obeys NoUpdate (fun _ => True) (lookup h path purpose e) :=
  ⟨trivial, fun a => by cases a <;> trivial⟩

lemma indexDocumentsBatch_noUpdate (docs : List Document) (e : List String) :
    Obeys NoUpdate (fun _ => True) (indexDocumentsBatch h docs e) :=
  ⟨trivial, fun a => by cases a <;> trivial⟩

lemma queueReplacement_noUpdate (q : Pending) (old p x purpose changeType : String) :
    Obeys NoUpdate (fun _ => True) (queueReplacement h c q old p x purpose changeType) :=
  (lookup_noUpdate _ _ _).bind fun a _ => by
    obtain ⟨o, e⟩ := a
    cases o with
    | some y => exact (createDocument_noUpdate _ _ _).bind fun _ _ => trivial
    | none => exact (createDocument_noUpdate _ _ _).bind fun _ _ => trivial

lemma queueItem_noUpdate (q : Pending) (d : DiffItem) :
    Obeys NoUpdate (fun _ => True) (queueItem h r c q d) := by
  unfold queueItem
  by_cases hs : shouldIndexFile h r d.filePath = true
  · simp only [hs, not_true_eq_false, if_false]
    cases d.changeType with
    | added =>
      cases readText c d.filePath with
      | none => trivial
      | some x => exact (createDocument_noUpdate _ _ _).bind fun _ _ => trivial
    | modified =>
      cases readText c d.filePath with
      | none => trivial
      | some x => exact (queueReplacement_noUpdate _ _ _ _ _ _).bind fun _ _ => trivial
    | deleted =>
      refine (lookup_noUpdate _ _ _).bind fun a _ => ?_
      obtain ⟨o, e⟩ := a
      cases o <;> trivial
    | renamed =>
      cases readText c d.filePath with
      | none => trivial
      | some x =>
        dsimp only
        cases d.aPath.filter (· ≠ "") with
        | none => trivial
        | some a => exact (queueReplacement_noUpdate _ _ _ _ _ _).bind fun _ _ => trivial
    | typeChanged => trivial
    | copied => trivial
  · simp only [hs, if_true, not_false_eq_true, Bool.false_eq_true]
    trivial

/-! ### The run, with own documents -/

/-- Alone against an engine that may fail, the run only replaces documents tagged with `A`. -/
abbrev SatOwn {α : Type} (A : String) (post : α → Store → Prop) (p : Py α) (s : Store) : Prop :=
  Sat (indexService True) (.alone Store) (OwnUpdates A) post p s

lemma satOwn_ret {α : Type} {post : α → Store → Prop} {a : α} (hp : post a s) :
    SatOwn A post (.ret a) s := by
  rintro _ rfl
  exact hp

lemma createBatch_satOwn (ho : Own A paths s q) :
    SatOwn A (fun e s' => Own A paths s' { q with createDocs := [], errors := e })
      (indexDocumentsBatch h q.createDocs q.errors) s := by
  refine Runs.sat ((indexDocumentsBatch_runs q.createDocs q.errors).mono ?_)
    (indexDocumentsBatch_noUpdate _ _) fun _ _ => NoUpdate.own
  rintro e s' (⟨rfl, ha⟩ | ⟨-, -, rfl | ha⟩)
  · exact ho.afterCreate ha _
  · exact (ho.drop e).1
  · exact ho.afterCreate ha _

lemma updateBatch_satOwn (ho : Own A paths s q) :
    SatOwn A (fun e s' => Own A paths s' { q with updateDocs := [], errors := e })
      (updateDocumentsBatch h q.updateDocs q.errors) s := by
  simp only [updateDocumentsBatch, ask_bind]
  rintro _ rfl
  refine ⟨ho.updated, fun a s' hs => ?_⟩
  cases a with
  | ok u =>
    obtain rfl : s' = replaceAll q.updateDocs s := hs
    exact satOwn_ret (ho.afterUpdate _)
  | error m =>
    obtain ⟨-, rfl | rfl⟩ := hs
    · exact satOwn_ret (ho.drop _).2
    · exact satOwn_ret (ho.afterUpdate _)

lemma flush_satOwn (n : ℕ) (ho : Own A paths s q) :
    SatOwn A (fun q' s' => Own A paths s' q') (flush h n q) s := by
  refine Sat.bind (Q := fun q' s' => Own A paths s' q') ?_ fun q1 s1 ho1 =>
    Sat.bind (Q := fun q' s' => Own A paths s' q') ?_ fun q2 s2 ho2 => satOwn_ret ?_
  · unfold flushCreates
    split
    · exact (createBatch_satOwn ho).bind fun e s' h => satOwn_ret h
    · exact satOwn_ret ho
  · unfold flushUpdates
    split
    · exact (updateBatch_satOwn ho1).bind fun e s' h => satOwn_ret h
    · exact satOwn_ret ho1
  · refine ho2.congr ?_ ?_ <;> unfold flushDeletes <;> split <;> rfl

lemma indexDiffLoop_satOwn (items : List DiffItem)
    (ho : Own h.autoindexerName paths s q)
    (hp : ∀ d ∈ items, ∀ p, replacedPath h r c d = some p → paths p) :
    SatOwn h.autoindexerName (fun q' s' => Own h.autoindexerName paths s' q')
      (indexDiffLoop h r c items q) s := by
  induction items generalizing q s with
  | nil => exact satOwn_ret ho
  | cons d items ih =>
    have hturn : ∀ old p x, action h r c d = .replace old p x → paths old := fun old p x ha =>
      hp d (by simp) old (by simp [replacedPath, ha])
    refine Sat.bind (Runs.sat (queueItem_runs q d) (queueItem_noUpdate q d) fun _ _ => NoUpdate.own)
      ?_
    rintro ⟨q1, reached⟩ s1 ⟨rfl, ht⟩
    have ho1 := ho.turn hturn ht
    refine Sat.bind (Q := fun q' s' => Own h.autoindexerName paths s' q') ?_ fun q2 s2 ho2 =>
      ih ho2 fun d' hd' => hp d' (by simp [hd'])
    split
    · exact flush_satOwn 10 ho1
    · exact satOwn_ret ho1

/-! ### The run, with a document of another in the way -/

/-- An update of a document that is not tagged with `A` is queued. -/
def Foreign (A : String) (s : Store) (us : List StoredDocument) : Prop :=
  ∃ u ∈ us, ∃ x ∈ s, x.docId = u.docId ∧ x.doc.owner ≠ some A

lemma not_ownUpdates_of_foreign {us : List StoredDocument} (hf : Foreign A s us) (t : Target) :
    ¬ OwnUpdates A s (.rag t (.updateDocuments us)) := by
  obtain ⟨u, hu, x, hx, hid, hx'⟩ := hf
  exact fun hown => hx' (hown u hu x hx hid)

/-- An engine that refuses every request. -/
def refuse (s : Store) : (c : JobCall) → JobAnswer c × Store
  | .rag _ (.indexDocuments _) => (.error "refused", s)
  | .rag _ (.updateDocuments _) => (.error "refused", s)
  | .rag _ (.listDocuments _ _) => (.error "refused", s)
  | .now => (0, s)
  | .getAutoIndexer => (.error .notFound, s)
  | .patchStatus _ => (.ok (), s)
  | .kusto _ => (.ok [], s)
  | .fetch _ => (.ok none, s)

lemma refuse_snd (s : Store) (c : JobCall) : (refuse s c).2 = s := by
  match c with
  | .rag _ (.indexDocuments _) => rfl
  | .rag _ (.updateDocuments _) => rfl
  | .rag _ (.listDocuments _ _) => rfl
  | .now => rfl
  | .getAutoIndexer => rfl
  | .patchStatus _ => rfl
  | .kusto _ => rfl
  | .fetch _ => rfl

lemma indexService_refuse (s : Store) (c : JobCall) :
    indexService True s c (refuse s c).1 (refuse s c).2 := by
  match c with
  | .rag _ (.indexDocuments _) => exact ⟨trivial, .inl rfl⟩
  | .rag _ (.updateDocuments _) => exact ⟨trivial, .inl rfl⟩
  | .rag _ (.listDocuments _ _) => exact ⟨trivial, rfl⟩
  | .now => rfl
  | .getAutoIndexer => rfl
  | .patchStatus _ => rfl
  | .kusto _ => rfl
  | .fetch _ => rfl

/-- With every request refused, a program leaves the index as it is. -/
lemma ends_refused {α : Type} (p : Py α) (s : Store) :
    Ends (indexService True) p s (p.exec refuse s).1 s := by
  have h := Ends.exec p s indexService_refuse
  rwa [exec_snd_eq refuse_snd] at h

lemma Foreign.turn {q' : Pending} {a : Action} (hf : Foreign A s q.updateDocs)
    (ht : Turn True h s q q' a) : Foreign A s q'.updateDocs := by
  obtain ⟨u, hu, hx⟩ := hf
  refine ⟨u, ?_, hx⟩
  cases ht with
  | nothing _ hu' => rwa [hu']
  | delete _ hu' => rwa [hu']
  | create _ _ hu' => rwa [hu']
  | missing _ _ _ hu' => rwa [hu']
  | found _ _ _ _ hu' => rw [hu']; exact List.mem_append_left _ hu

variable {α : Type} {post : α → Store → Prop}

/-- Sending the queues off makes the foreign update, unless it leaves the updates queued. -/
lemma Foreign.flush {n : ℕ} {k : Pending → Py α} (hf : Foreign A s q.updateDocs)
    (hsat : SatOwn A post (flush h n q >>= k) s) :
    q.updateDocs.length < n ∧ ∃ q', q'.updateDocs = q.updateDocs ∧ SatOwn A post (k q') s := by
  have hcreates : ∃ q1 : Pending, q1.updateDocs = q.updateDocs ∧
      Ends (indexService True) (flushCreates h n q) s q1 s := by
    unfold flushCreates
    split
    · exact ⟨{ q with createDocs := [], errors := _ }, rfl, (ends_refused _ s).bind ⟨rfl, rfl⟩⟩
    · exact ⟨q, rfl, rfl, rfl⟩
  obtain ⟨q1, hq1, he⟩ := hcreates
  have hsat1 : SatOwn A post (flushUpdates h n q1 >>= fun q' => k (flushDeletes n q')) s := by
    simp only [Git.flush, Prog.bind_assoc] at hsat
    exact hsat.ends he
  unfold flushUpdates at hsat1
  split at hsat1
  · have hguar := (hsat1 s rfl).1
    rw [hq1] at hguar
    exact absurd hguar (not_ownUpdates_of_foreign hf _)
  · rename_i hn
    refine ⟨by rw [← hq1]; omega, flushDeletes n q1, ?_, hsat1⟩
    rw [← hq1]
    unfold flushDeletes
    split <;> rfl

lemma queueItem_refused (q : Pending) (d : DiffItem) (s : Store) :
    ∃ q' b, Turn True h s q q' (action h r c d) ∧
      Ends (indexService True) (queueItem h r c q d) s (q', b) s :=
  ⟨_, _, ((queueItem_runs q d).exec indexService_refuse).2, ends_refused _ s⟩

/-- Once queued, the foreign update is made. -/
lemma Foreign.not_loop (items : List DiffItem) {k : Pending → Py α}
    (hf : Foreign A s q.updateDocs) :
    ¬ SatOwn A post (indexDiffLoop h r c items q >>= fun q' => flushRest h q' >>= k) s := by
  induction items generalizing q with
  | nil =>
    intro hsat
    have hlen := (Foreign.flush hf hsat).1
    obtain ⟨u, hu, -⟩ := hf
    have := List.length_pos_of_mem hu
    omega
  | cons d items ih =>
    intro hsat
    simp only [indexDiffLoop, Prog.bind_assoc] at hsat
    obtain ⟨q1, b, ht, he⟩ := queueItem_refused q d s
    have hsat := hsat.ends he
    have hf1 := hf.turn ht
    cases b with
    | false => exact ih hf1 hsat
    | true =>
      obtain ⟨-, q2, hq2, hsat⟩ := Foreign.flush hf1 hsat
      exact ih (by rwa [hq2]) hsat

/-- The lookup of a path may answer with any document of that path. -/
lemma queueReplacement_picks {y : StoredDocument} {old : String} (hy : y ∈ s)
    (hold : y.doc.filePath = some old) (q : Pending) (p x purpose changeType : String) :
    ∃ q' d, q'.updateDocs = q.updateDocs ++ [⟨y.docId, d⟩] ∧
      Ends (indexService True) (queueReplacement h c q old p x purpose changeType) s q' s := by
  have hfound : y ∈ s.filter fun d => d.doc.matches [("file_path", old)] :=
    List.mem_filter.mpr ⟨hy, (matches_filePath old y.doc).mpr hold⟩
  have hlookup : Ends (indexService True) (lookup h old purpose q.errors) s (some y, q.errors) s := by
    refine ⟨.ok ⟨[y], (s.filter fun d => d.doc.matches [("file_path", old)]).length⟩, s, ?_, rfl, rfl⟩
    refine ⟨rfl, ?_, ?_, rfl⟩
    · exact List.singleton_subperm_iff.mpr hfound
    · have := List.length_pos_of_mem hfound
      simp only [List.length_cons, List.length_nil]
      omega
  exact ⟨_, _, rfl, hlookup.bind ((ends_refused (createDocument h c p x changeType) s).bind
    ⟨rfl, rfl⟩)⟩

lemma not_loop_of_foreign {items : List DiffItem} {k : Pending → Py α} {d : DiffItem}
    (hd : d ∈ items) {p : String} (hp : replacedPath h r c d = some p) {y : StoredDocument}
    (hy : y ∈ s) (hyp : y.doc.filePath = some p) (hown : y.doc.owner ≠ some A) :
    ¬ SatOwn A post (indexDiffLoop h r c items q >>= fun q' => flushRest h q' >>= k) s := by
  induction items generalizing q with
  | nil => cases hd
  | cons d' items ih =>
    intro hsat
    simp only [indexDiffLoop, Prog.bind_assoc] at hsat
    rcases List.mem_cons.mp hd with rfl | hd
    · unfold replacedPath at hp
      cases ha : action h r c d with
      | replace old p' x =>
        simp only [ha, Option.some.injEq] at hp
        subst hp
        obtain ⟨purpose, changeType, hq⟩ := queueItem_of_replace ha q
        obtain ⟨q1, doc, hq1, he⟩ := queueReplacement_picks (c := c) (h := h) hy hyp q p' x purpose
          changeType
        have hf1 : Foreign A s q1.updateDocs :=
          ⟨⟨y.docId, doc⟩, by simp [hq1], y, hy, rfl, hown⟩
        rw [hq, Prog.bind_assoc] at hsat
        have hsat := hsat.ends he
        obtain ⟨-, q2, hq2, hsat⟩ := Foreign.flush hf1 hsat
        exact Foreign.not_loop items (by rwa [hq2]) hsat
      | _ => simp [ha] at hp
    · obtain ⟨q1, b, -, he⟩ := queueItem_refused (h := h) (r := r) (c := c) q d' s
      have hsat := hsat.ends he
      cases b with
      | false => exact ih hd hsat
      | true => exact ih hd (hsat.ends (ends_refused _ s))

/-- **For every answer of the engine, an incremental run replaces documents tagged with its
own AutoIndexer only, if and only if every document in the index at a path that the diff
replaces is so tagged.** -/
theorem indexDiffFiles_ownUpdates_iff {items : List DiffItem} (hids : (Rag.ids s).Nodup)
    (hdiff : c.diff h.lastIndexedCommit = .ok items) (errors : List String) :
    Sat (indexService True) (.alone Store) (OwnUpdates h.autoindexerName) (fun _ _ => True)
      (indexDiffFiles h r c errors) s ↔
    ∀ d ∈ items, ∀ p, replacedPath h r c d = some p →
      ∀ x ∈ s, x.doc.filePath = some p → x.doc.owner = some h.autoindexerName := by
  simp only [indexDiffFiles, hdiff]
  constructor
  · intro hsat d hd p hp x hx hxp
    by_contra hown
    exact not_loop_of_foreign hd hp hx hxp hown hsat
  · intro hall
    have hown : Own h.autoindexerName (replacedPaths h r c items) s ⟨[], [], [], errors⟩ :=
      ⟨hids, fun x hx p ⟨d, hd, hp⟩ hxp => hall d hd p hp x hx hxp, by simp, by simp, by simp⟩
    refine Sat.bind (indexDiffLoop_satOwn items hown fun d hd p hp => ⟨d, hd, hp⟩) ?_
    intro q1 s1 ho1
    exact Sat.bind (flush_satOwn 1 ho1) fun _ _ _ => satOwn_ret trivial

/-- The file `a.md` was modified since the last run. -/
def demoItem : DiffItem := ⟨.modified, some "a.md", some "a.md"⟩

/-- The document of `a.md` in an index, tagged with `A`. -/
def demoStore (A : String) : Store :=
  [⟨1, "old", [("autoindexer", A), ("file_path", "a.md")]⟩]

theorem indexDiffFiles_ownUpdates_demo :
    Sat (indexService True) (.alone Store) (OwnUpdates "default_docs") (fun _ _ => True)
      (indexDiffFiles demoHandler (demoRemote [demoItem]) (demoCheckout [demoItem]) []) (demoStore "default_docs") ↔
    ∀ d ∈ [demoItem], ∀ p,
      replacedPath demoHandler (demoRemote [demoItem]) (demoCheckout [demoItem]) d = some p →
      ∀ x ∈ demoStore "default_docs", x.doc.filePath = some p →
        x.doc.owner = some "default_docs" :=
  indexDiffFiles_ownUpdates_iff (h := demoHandler) (s := demoStore "default_docs") (by decide) rfl []

/-- The document of another AutoIndexer for a file of the same path is replaced. -/
theorem not_indexDiffFiles_ownUpdates :
    ¬ ∀ (h : GitHandler) (r : Remote) (c : Checkout) (s : Store), (Rag.ids s).Nodup →
      Sat (indexService True) (.alone Store) (OwnUpdates h.autoindexerName) (fun _ _ => True)
        (indexDiffFiles h r c []) s := by
  intro hall
  have hsat := hall demoHandler (demoRemote [demoItem]) (demoCheckout [demoItem])
    (demoStore "default_other") (by decide)
  simp only [indexDiffFiles, demoCheckout] at hsat
  refine not_loop_of_foreign (h := demoHandler) (d := demoItem)
    (p := "a.md") (y := ⟨1, "old", [("autoindexer", "default_other"), ("file_path", "a.md")]⟩)
    (by simp) (by decide) (by decide) (by decide) (by decide) hsat

end KaitoAutoIndexer.Lookups
