import KaitoAutoIndexer.Incremental

/-!
What an incremental run of the Git handler makes of any index, whoever else has documents in it.
The engine may choose which of the documents it finds it lists first; this is the only thing that
is left open as long as no request fails.
-/

namespace KaitoAutoIndexer.DiffRuns

open KaitoAutoIndexer.Lib KaitoAutoIndexer.Types
open KaitoAutoIndexer.Rag KaitoAutoIndexer.JobClient KaitoAutoIndexer.Git
open KaitoAutoIndexer.GitSpec
open KaitoAutoIndexer.Incremental (paths Action.paths action_paths settled replaceAll_append_of_notMem
  replace_append_cons)

/-! ### The engine's choice -/

/-- Which of the documents it finds the engine may list first. -/
abbrev Choice := List Document → Document → Prop

def Lists (pick : Choice) (s : Store) : (q : Request) → Response q → Prop
  | .listDocuments f _, .ok resp =>
    ∀ y ∈ resp.documents.head?, pick ((documents s).filter (·.matches f)) y.doc
  | _, _ => True

/-- The index, with an engine that lists documents in this way. -/
def choosing (mayFail : Prop) (pick : Choice) : Service Store JobCall JobAnswer
  | s, .rag _ q, r, s' => Rag.Serves mayFail s q r s' ∧ Lists pick s q r
  | s, _, _, s' => s' = s

variable {mayFail : Prop} {pick : Choice} {s s' : Store} {h : GitHandler} {r : Remote} {c : Checkout}
  {α : Type}

lemma indexService_of_choosing (s : Store) (c : JobCall) (a : JobAnswer c) (s' : Store)
    (hs : choosing mayFail pick s c a s') : indexService mayFail s c a s' := by
  cases c with
  | rag target q => exact hs.1
  | _ => exact hs

/-- What holds of every engine holds of one that makes this choice. -/
lemma choosing_runs {Q : α → Store → Prop} {p : Py α} (hp : Runs (indexService mayFail) Q p s) :
    Runs (choosing mayFail pick) Q p s := hp.anti indexService_of_choosing

/-- As far as the errors show, no request has failed. -/
def Fine (mayFail : Prop) (errors : List String) : Prop := mayFail → errors = []

lemma not_fine_append {errors : List String} {e : String} (hf : mayFail) :
    ¬ Fine mayFail (errors ++ [e]) := fun hfine => by simpa using hfine hf

/-- The documents of a path. -/
abbrev docsAt (docs : List Document) (path : String) : List Document :=
  valuesAt Document.filePath id docs (some path)

lemma docsAt_append (l l' : List Document) (path : String) :
    docsAt (l ++ l') path = docsAt l path ++ docsAt l' path := valuesAt_append l l' _

lemma docsAt_cons (d : Document) (docs : List Document) (path : String) :
    docsAt (d :: docs) path = (if d.filePath = some path then [d] else []) ++ docsAt docs path :=
  valuesAt_cons d docs _

lemma docsAt_eq_filter (docs : List Document) (path : String) :
    docsAt docs path = docs.filter (·.matches [("file_path", path)]) := by
  have hmatch : ∀ d ∈ docs, d.matches [("file_path", path)] = decide (d.filePath = some path) := by
    intro d _
    rw [Bool.eq_iff_iff, matches_filePath, decide_eq_true_eq]
  rw [List.filter_congr hmatch]
  simp [valuesAt]

lemma docsAt_documents_eq_nil {path : String} (hno : ∀ y ∈ s, y.doc.filePath ≠ some path) :
    docsAt (documents s) path = [] := by
  refine valuesAt_eq_nil_iff.mpr fun d hd => ?_
  obtain ⟨y, hy, rfl⟩ := List.mem_map.mp hd
  exact hno y hy

/-! ### A turn -/

/-- A lookup that does not fail finds a document that the engine may list first, if there is one. -/
lemma lookup_sure (path purpose : String) (errors : List String) :
    Runs (choosing mayFail pick) (fun a s' => s' = s ∧ (Fine mayFail a.2 → Fine mayFail errors ∧
      (a.1 = none → docsAt (documents s) path = []) ∧ ∀ y, a.1 = some y → y ∈ s ∧
        y.doc.filePath = some path ∧ pick (docsAt (documents s) path) y.doc))
      (lookup h path purpose errors) s := by
  simp only [lookup, ask_bind, runs_ask]
  intro a s' hs
  cases a with
  | error e =>
    obtain ⟨⟨hf, rfl⟩, -⟩ := hs
    exact ⟨rfl, fun hfine => absurd hfine (not_fine_append hf)⟩
  | ok resp =>
    obtain ⟨⟨rfl, hsub, hlen, -⟩, hlists⟩ := hs
    refine ⟨rfl, fun hfine => ⟨hfine, fun hnone => docsAt_documents_eq_nil fun y hy hpath => ?_,
      fun y hy => ?_⟩⟩
    · have hfound : y ∈ s'.filter fun d => d.doc.matches [("file_path", path)] :=
        List.mem_filter.mpr ⟨hy, (matches_filePath path y.doc).mpr hpath⟩
      have hpos := List.length_pos_of_mem hfound
      rw [List.head?_eq_none_iff.mp hnone, List.length_nil] at hlen
      omega
    · obtain ⟨hmem, hmatch⟩ := List.mem_filter.mp (hsub.subset (List.mem_of_head? hy))
      refine ⟨hmem, (matches_filePath path y.doc).mp hmatch, ?_⟩
      rw [docsAt_eq_filter]
      exact hlists y hy

/-- What is queued for a replacement: an update of a document of the old path that the engine may
list first, or nothing if there is none. -/
def Sure (pick : Choice) (s : Store) (q q' : Pending) : Action → Prop
  | .replace old _ _ => (q'.updateDocs = q.updateDocs ∧ docsAt (documents s) old = []) ∨
      ∃ y ∈ s, ∃ d, q'.updateDocs = q.updateDocs ++ [⟨y.docId, d⟩] ∧
        y.doc.filePath = some old ∧ pick (docsAt (documents s) old) y.doc
  | _ => True

lemma queueReplacement_sure (q : Pending) (old p x purpose changeType : String) :
    Runs (choosing mayFail pick) (fun q' _ => Fine mayFail q'.errors → Fine mayFail q.errors ∧
      Sure pick s q q' (.replace old p x)) (queueReplacement h c q old p x purpose changeType) s := by
  refine (lookup_sure old purpose q.errors).bind ?_
  rintro ⟨o, e⟩ s1 ⟨rfl, hfound⟩
  cases o with
  | some y =>
    refine (choosing_runs (createDocument_runs x changeType p)).bind fun d s2 _ hfine => ?_
    obtain ⟨hfine', -, hsome⟩ := hfound hfine
    obtain ⟨hy, hold, hpick⟩ := hsome y rfl
    exact ⟨hfine', .inr ⟨y, hy, d, rfl, hold, hpick⟩⟩
  | none =>
    refine (choosing_runs (createDocument_runs x "added" p)).bind fun d s2 _ hfine => ?_
    obtain ⟨hfine', hnone, -⟩ := hfound hfine
    exact ⟨hfine', .inl ⟨rfl, hnone rfl⟩⟩

lemma queueItem_sure (q : Pending) (d : DiffItem) :
    Runs (choosing mayFail pick) (fun a _ => Fine mayFail a.1.errors → Fine mayFail q.errors ∧
      Sure pick s q a.1 (action h r c d)) (queueItem h r c q d) s := by
  have hsame : ∀ {q' : Pending} {a : Action}, (∀ old p x, a ≠ .replace old p x) →
      q'.errors = q.errors → Fine mayFail q'.errors → Fine mayFail q.errors ∧ Sure pick s q q' a := by
    intro q' a ha he hfine
    rw [he] at hfine
    refine ⟨hfine, ?_⟩
    cases a with
    | replace old p x => exact absurd rfl (ha old p x)
    | _ => trivial
  unfold queueItem action
  by_cases hs : shouldIndexFile h r d.filePath = true
  · simp only [hs, not_true_eq_false, if_false]
    cases d.changeType with
    | added =>
      cases readText c d.filePath with
      | none => exact hsame (by simp) rfl
      | some x =>
        exact (choosing_runs (createDocument_runs x "added" d.filePath)).bind
          fun doc s1 _ => hsame (by simp) rfl
    | modified =>
      cases readText c d.filePath with
      | none => exact hsame (by simp) rfl
      | some x =>
        exact (queueReplacement_sure q d.filePath d.filePath x "update" "modified").bind
          fun q' s1 h1 => h1
    | deleted =>
      refine (lookup_sure d.filePath "deletion" q.errors).bind ?_
      rintro ⟨o, e⟩ s1 ⟨rfl, hfound⟩
      cases o with
      | some y => exact fun hfine => ⟨(hfound hfine).1, trivial⟩
      | none => exact fun hfine => ⟨(hfound hfine).1, trivial⟩
    | renamed =>
      cases readText c d.filePath with
      | none => exact hsame (by simp) rfl
      | some x =>
        dsimp only
        cases d.aPath.filter (· ≠ "") with
        | none => exact hsame (by simp) rfl
        | some a =>
          exact (queueReplacement_sure q a d.filePath x "renaming" "renamed").bind
            fun q' s1 h1 => h1
    | typeChanged => exact hsame (by simp) rfl
    | copied => exact hsame (by simp) rfl
  · simp only [hs, if_true, not_false_eq_true, Bool.false_eq_true]
    exact hsame (by simp) rfl

/-! ### Index and queues -/

/-- What an action does to the documents of index and queues. -/
inductive Changed (pick : Choice) (h : GitHandler) : Action → List Document → List Document → Prop
  | nothing {l} : Changed pick h .nothing l l
  | delete {p l} : Changed pick h (.delete p) l l
  | create {p x d l} (hd : IsDocument h p x d) : Changed pick h (.create p x) l (l ++ [d])
  | found {old p x y d l₁ l₂} (hold : y.filePath = some old)
      (hpick : pick (docsAt (l₁ ++ y :: l₂) old) y) (hd : IsDocument h p x d) :
      Changed pick h (.replace old p x) (l₁ ++ y :: l₂) (l₁ ++ d :: l₂)
  | missing {old p x d l} (hno : docsAt l old = []) (hd : IsDocument h p x d) :
      Changed pick h (.replace old p x) l (l ++ [d])

/-- No document of the paths `rest` has been queued or is to be replaced. -/
structure Steady (rest : List String) (s : Store) (q : Pending) : Prop where
  ids : (ids s).Nodup
  known : ∀ u ∈ q.updateDocs, u.docId ∈ Rag.ids s
  replaced : ∀ u ∈ q.updateDocs, ∀ y ∈ s, y.docId = u.docId → ∀ p ∈ rest, y.doc.filePath ≠ some p
  updates : ∀ u ∈ q.updateDocs, ∀ p ∈ rest, u.doc.filePath ≠ some p
  creates : ∀ d ∈ q.createDocs, ∀ p ∈ rest, d.filePath ≠ some p

variable {rest ks : List String} {q q' : Pending} {p x old : String} {d : Document}

/-- The queues are the same, and fewer paths are to come. -/
lemma Steady.congr (hq : Steady (ks ++ rest) s q) (hc : q'.createDocs = q.createDocs)
    (hu : q'.updateDocs = q.updateDocs) : Steady rest s q' ∧ settled s q' = settled s q := by
  obtain ⟨h1, h2, h3, h4, h5⟩ := hq
  refine ⟨⟨h1, ?_, ?_, ?_, ?_⟩, ?_⟩
  · rwa [hu]
  · rw [hu]
    exact fun u hu y hy hid k hk => h3 u hu y hy hid k (List.mem_append_right _ hk)
  · rw [hu]
    exact fun u hu k hk => h4 u hu k (List.mem_append_right _ hk)
  · rw [hc]
    exact fun d hd k hk => h5 d hd k (List.mem_append_right _ hk)
  · unfold settled
    rw [hc, hu]

lemma Steady.create (hq : Steady (ks ++ rest) s q) (hks : ∀ k ∈ ks, k ∉ rest) (hp : p ∈ ks)
    (hd : IsDocument h p x d) (hc : q'.createDocs = q.createDocs ++ [d])
    (hu : q'.updateDocs = q.updateDocs) :
    Steady rest s q' ∧ settled s q' = settled s q ++ [d] := by
  have hrest : Steady rest s q := (hq.congr rfl rfl).1
  refine ⟨⟨hq.ids, ?_, ?_, ?_, ?_⟩, by simp [settled, hc, hu]⟩
  · rw [hu]
    exact hrest.known
  · rw [hu]
    exact hrest.replaced
  · rw [hu]
    exact hrest.updates
  · rw [hc]
    intro d' hd' k hk
    rcases List.mem_append.mp hd' with hd' | hd'
    · exact hrest.creates d' hd' k hk
    · rw [List.mem_singleton.mp hd', hd.filePath]
      exact fun hpk => hks p hp (Option.some.inj hpk ▸ hk)

lemma Steady.replace {y : StoredDocument} (hq : Steady (ks ++ rest) s q) (hks : ∀ k ∈ ks, k ∉ rest)
    (hp : p ∈ ks) (hold : old ∈ ks) (hy : y ∈ s) (hyold : y.doc.filePath = some old)
    (hd : IsDocument h p x d) (hc : q'.createDocs = q.createDocs)
    (hu : q'.updateDocs = q.updateDocs ++ [⟨y.docId, d⟩]) :
    Steady rest s q' ∧ ∃ l₁ l₂, settled s q = l₁ ++ y.doc :: l₂ ∧ settled s q' = l₁ ++ d :: l₂ := by
  have hnot : y.docId ∉ Rag.ids q.updateDocs := by
    intro hmem
    obtain ⟨u, hu, hid⟩ := List.mem_map.mp hmem
    exact hq.replaced u hu y hy hid.symm old (List.mem_append_left _ hold) hyold
  have hrest : Steady rest s q := (hq.congr rfl rfl).1
  refine ⟨⟨hq.ids, ?_, ?_, ?_, ?_⟩, ?_⟩
  · rw [hu]
    intro u hu
    rcases List.mem_append.mp hu with hu | hu
    · exact hrest.known u hu
    · obtain rfl := List.mem_singleton.mp hu
      exact List.mem_map.mpr ⟨y, hy, rfl⟩
  · rw [hu]
    intro u hu y' hy' hid k hk
    rcases List.mem_append.mp hu with hu | hu
    · exact hrest.replaced u hu y' hy' hid k hk
    · obtain rfl := List.mem_singleton.mp hu
      have hyy : y' = y := List.inj_on_of_nodup_map hq.ids hy' hy hid
      rw [hyy, hyold]
      exact fun hko => hks old hold (Option.some.inj hko ▸ hk)
  · rw [hu]
    intro u hu k hk
    rcases List.mem_append.mp hu with hu | hu
    · exact hrest.updates u hu k hk
    · obtain rfl := List.mem_singleton.mp hu
      rw [hd.filePath]
      exact fun hpk => hks p hp (Option.some.inj hpk ▸ hk)
  · rw [hc]
    exact hrest.creates
  · obtain ⟨l₁, l₂, hl⟩ := List.append_of_mem (replaceAll_of_notMem hy hnot)
    have hids : (Rag.ids (l₁ ++ y :: l₂)).Nodup := by
      rw [← hl, ids_replaceAll]
      exact hq.ids
    have hreplace : Rag.replace ⟨y.docId, d⟩ (l₁ ++ y :: l₂) = l₁ ++ ⟨y.docId, d⟩ :: l₂ :=
      replace_append_cons hids rfl
    refine ⟨documents l₁, documents l₂ ++ q.createDocs, ?_, ?_⟩
    · simp [settled, hl, documents]
    · simp [settled, hc, hu, replaceAll_append, hl, hreplace, documents]

lemma docsAt_documents_replace {u : StoredDocument} {k : String} (hu : u.doc.filePath ≠ some k)
    (hy : ∀ y ∈ s, y.docId = u.docId → y.doc.filePath ≠ some k) :
    docsAt (documents (Rag.replace u s)) k = docsAt (documents s) k := by
  induction s with
  | nil => rfl
  | cons y s ih =>
    have htail := ih fun y' hy' => hy y' (List.mem_cons_of_mem _ hy')
    have hcons : documents (Rag.replace u (y :: s)) =
        (if y.docId = u.docId then u else y).doc :: documents (Rag.replace u s) := rfl
    rw [hcons, docsAt_cons, htail, show documents (y :: s) = y.doc :: documents s from rfl, docsAt_cons]
    by_cases hid : y.docId = u.docId
    · rw [if_pos hid, if_neg hu, if_neg (hy y List.mem_cons_self hid)]
    · rw [if_neg hid]

/-- The documents of a path to come are those of the index. -/
lemma Steady.docsAt_settled {k : String} (hq : Steady rest s q) (hk : k ∈ rest) :
    docsAt (settled s q) k = docsAt (documents s) k := by
  have hcreates : docsAt q.createDocs k = [] := valuesAt_eq_nil_iff.mpr fun d hd => hq.creates d hd k hk
  have hupdates : ∀ (us : List StoredDocument) (s : Store), (∀ u ∈ us, u.doc.filePath ≠ some k) →
      (∀ u ∈ us, ∀ y ∈ s, y.docId = u.docId → y.doc.filePath ≠ some k) →
      docsAt (documents (replaceAll us s)) k = docsAt (documents s) k := by
    intro us
    induction us with
    | nil => exact fun s _ _ => rfl
    | cons u us ih =>
      intro s hu hy
      rw [replaceAll_cons, ih _ (fun v hv => hu v (List.mem_cons_of_mem _ hv)) ?_]
      · exact docsAt_documents_replace (hu u List.mem_cons_self) (hy u List.mem_cons_self)
      · intro v hv y hyr hid
        have hyu : y ∈ replaceAll [u] s := hyr
        rcases mem_replaceAll hyu with hys | hyu
        · exact hy v (List.mem_cons_of_mem _ hv) y hys hid
        · rw [List.mem_singleton.mp hyu]
          exact hu u List.mem_cons_self
  unfold settled
  rw [docsAt_append, hcreates, List.append_nil]
  exact hupdates _ _ (fun u hu => hq.updates u hu k hk) fun u hu y hy hid => hq.replaced u hu y hy hid k hk

/-- A turn queues what its action calls for. -/
lemma Steady.turn {a : Action} (hq : Steady (ks ++ rest) s q) (hks : ∀ k ∈ ks, k ∉ rest)
    (ha : ∀ p ∈ Action.paths a, p ∈ ks) (ht : Turn mayFail h s q q' a) :
    Steady rest s q' ∧ (Sure pick s q q' a → Changed pick h a (settled s q) (settled s q')) := by
  have hat : ∀ {k : String}, k ∈ ks → docsAt (settled s q) k = docsAt (documents s) k :=
    fun hk => hq.docsAt_settled (List.mem_append_left _ hk)
  cases ht with
  | nothing hc hu =>
    obtain ⟨hnext, hsame⟩ := hq.congr hc hu
    rw [hsame]
    exact ⟨hnext, fun _ => .nothing⟩
  | delete hc hu =>
    obtain ⟨hnext, hsame⟩ := hq.congr hc hu
    rw [hsame]
    exact ⟨hnext, fun _ => .delete⟩
  | create hd hc hu =>
    obtain ⟨hnext, hsettled⟩ := hq.create hks (ha _ (by simp [Action.paths])) hd hc hu
    rw [hsettled]
    exact ⟨hnext, fun _ => .create hd⟩
  | @found old p x d y hy hold hd hc hu =>
    have hold' : old ∈ ks := ha _ (by simp [Action.paths])
    obtain ⟨hnext, l₁, l₂, hbefore, hafter⟩ :=
      hq.replace hks (ha _ (by simp [Action.paths])) hold' hy hold hd hc hu
    refine ⟨hnext, fun hsure => ?_⟩
    rcases hsure with ⟨hsame, -⟩ | ⟨y', hy', d', hu', -, hpick⟩
    · rw [hsame] at hu
      simp at hu
    · have hid : y'.docId = y.docId := by
        rw [hu] at hu'
        simp at hu'
        exact hu'.1.symm
      obtain rfl : y' = y := List.inj_on_of_nodup_map hq.ids hy' hy hid
      rw [hbefore, hafter]
      refine .found hold ?_ hd
      rwa [← hbefore, hat hold']
  | @missing old p x d hno hd hc hu =>
    have hold' : old ∈ ks := ha _ (by simp [Action.paths])
    obtain ⟨hnext, hsettled⟩ := hq.create hks (ha p (by simp [Action.paths])) hd hc hu
    refine ⟨hnext, fun hsure => ?_⟩
    rcases hsure with ⟨-, hnil⟩ | ⟨y', -, d', hu', -⟩
    · rw [hsettled]
      exact .missing (by rw [hat hold', hnil]) hd
    · rw [hu] at hu'
      simp at hu'

/-- Sending off queues keeps the documents of index and queues, unless it reports an error. -/
structure Sent (mayFail : Prop) (rest : List String) (s : Store) (q : Pending) (s' : Store)
    (q' : Pending) : Prop where
  steady : Steady rest s' q'
  fine : Fine mayFail q'.errors → Fine mayFail q.errors ∧ settled s' q' = settled s q

lemma Sent.refl (hq : Steady rest s q) : Sent mayFail rest s q s q := ⟨hq, fun hf => ⟨hf, rfl⟩⟩

lemma Sent.trans {s1 s2 : Store} {q1 q2 : Pending} (h1 : Sent mayFail rest s q s1 q1)
    (h2 : Sent mayFail rest s1 q1 s2 q2) : Sent mayFail rest s q s2 q2 := by
  refine ⟨h2.steady, fun hf => ?_⟩
  obtain ⟨hf1, hsame2⟩ := h2.fine hf
  obtain ⟨hf0, hsame1⟩ := h1.fine hf1
  exact ⟨hf0, hsame2.trans hsame1⟩

lemma Steady.added {e : List String} (hq : Steady rest s q) (hadd : Added q.createDocs s s') :
    Steady rest s' { q with createDocs := [], errors := e } ∧
      settled s' { q with createDocs := [], errors := e } = settled s q := by
  have hids := hadd.nodup hq.ids
  have hmem : ∀ {y}, y ∈ s' → y ∈ s ∨ y.docId ∉ Rag.ids s := fun hy =>
    (mem_added hadd hy).imp_right And.right
  obtain ⟨new, hlen, -, hfresh, rfl⟩ := hadd
  have hnew : ∀ u ∈ q.updateDocs, u.docId ∉
      Rag.ids (List.zipWith StoredDocument.mk new q.createDocs) := by
    intro u hu hin
    rw [ids_zipWith hlen] at hin
    exact hfresh _ hin (hq.known u hu)
  refine ⟨⟨hids, fun u hu => ?_, fun u hu y hy hid k hk => ?_, hq.updates, by simp⟩, ?_⟩
  · rw [ids_append]
    exact List.mem_append_left _ (hq.known u hu)
  · rcases hmem hy with hy | hy
    · exact hq.replaced u hu y hy hid k hk
    · exact absurd (hid ▸ hq.known u hu) hy
  · simp only [settled, replaceAll_append_of_notMem hnew, documents_append,
      documents_zipWith hlen, List.append_nil]

lemma Steady.flushCreates (n : ℕ) (hq : Steady rest s q) :
    Runs (choosing mayFail pick) (fun q' s' => Sent mayFail rest s q s' q' ∧
      (n ≤ 1 → q'.createDocs = [])) (flushCreates h n q) s := by
  unfold Git.flushCreates
  split
  · refine (choosing_runs (indexDocumentsBatch_runs q.createDocs q.errors)).bind ?_
    rintro e s' (⟨rfl, hadd⟩ | ⟨hf, he, hs'⟩)
    · obtain ⟨hnext, hsame⟩ := hq.added hadd
      exact ⟨⟨hnext, fun hfine => ⟨hfine, hsame⟩⟩, fun _ => rfl⟩
    · refine ⟨⟨?_, fun hfine => absurd (hfine hf) he⟩, fun _ => rfl⟩
      rcases hs' with rfl | hadd
      · exact ⟨hq.ids, hq.known, hq.replaced, hq.updates, by simp⟩
      · exact (hq.added hadd).1
  · rename_i hn
    exact ⟨.refl hq, fun h1 => List.length_eq_zero_iff.mp (by omega)⟩

lemma Steady.flushUpdates (n : ℕ) (hq : Steady rest s q) :
    Runs (choosing mayFail pick) (fun q' s' => Sent mayFail rest s q s' q' ∧
      q'.createDocs = q.createDocs ∧ (n ≤ 1 → q'.updateDocs = [])) (flushUpdates h n q) s := by
  have hempty : ∀ {s' : Store} {e : List String}, Rag.ids s' = Rag.ids s →
      Steady rest s' { q with updateDocs := [], errors := e } := fun hs' =>
    ⟨by rw [hs']; exact hq.ids, by simp, by simp, by simp, hq.creates⟩
  unfold Git.flushUpdates updateDocumentsBatch
  split
  · simp only [ask_bind]
    rintro a s' ⟨hs, -⟩
    cases a with
    | ok u =>
      obtain rfl : s' = replaceAll q.updateDocs s := hs
      exact ⟨⟨hempty (ids_replaceAll _ _), fun hfine => ⟨hfine, by simp [settled]⟩⟩, rfl, fun _ => rfl⟩
    | error m =>
      obtain ⟨hf, hs'⟩ := hs
      refine ⟨⟨?_, fun hfine => absurd hfine (not_fine_append hf)⟩, rfl, fun _ => rfl⟩
      rcases hs' with rfl | rfl
      · exact hempty rfl
      · exact hempty (ids_replaceAll _ _)
  · rename_i hn
    exact ⟨.refl hq, rfl, fun h1 => List.length_eq_zero_iff.mp (by omega)⟩

lemma Steady.flushDeletes (n : ℕ) (hq : Steady rest s q) :
    Sent mayFail rest s q s (flushDeletes n q) := by
  unfold Git.flushDeletes
  split
  · refine ⟨⟨hq.ids, hq.known, hq.replaced, hq.updates, hq.creates⟩, fun hfine => ⟨?_, rfl⟩⟩
    cases hd : q.deleteDocIds with
    | nil => simpa [deleteDocumentsBatch, hd] using hfine
    | cons i is => exact fun hf => absurd (hfine hf) (by simp [deleteDocumentsBatch, hd])
  · exact .refl hq

lemma Steady.flush (n : ℕ) (hq : Steady rest s q) :
    Runs (choosing mayFail pick) (fun q' s' => Sent mayFail rest s q s' q' ∧
      (n ≤ 1 → q'.createDocs = [] ∧ q'.updateDocs = [])) (flush h n q) s := by
  refine (hq.flushCreates n).bind ?_
  rintro q1 s1 ⟨hq1, hc1⟩
  refine (hq1.steady.flushUpdates n).bind ?_
  rintro q2 s2 ⟨hq2, hc2, hu2⟩
  refine ⟨(hq1.trans hq2).trans (hq2.steady.flushDeletes n), fun hn => ?_⟩
  have hsame : (Git.flushDeletes n q2).createDocs = q2.createDocs ∧
      (Git.flushDeletes n q2).updateDocs = q2.updateDocs := by
    unfold Git.flushDeletes
    split <;> exact ⟨rfl, rfl⟩
  rw [hsame.1, hsame.2, hc2]
  exact ⟨hc1 hn, hu2 hn⟩

/-! ### A run -/

/-- The changes of the list, one after the other. -/
def Carried (pick : Choice) (h : GitHandler) (r : Remote) (c : Checkout) :
    List DiffItem → List Document → List Document → Prop
  | [], l, l' => l' = l
  | d :: items, l, l' => ∃ l₁, Changed pick h (action h r c d) l l₁ ∧ Carried pick h r c items l₁ l'

/-- The loop carries its changes into index and queues, unless it reports an error. -/
lemma indexDiffLoop_carried (items : List DiffItem) (hq : Steady (items.flatMap paths) s q)
    (hn : (items.flatMap paths).Nodup) :
    Runs (choosing mayFail pick) (fun q' s' => Steady [] s' q' ∧ (Fine mayFail q'.errors →
      Fine mayFail q.errors ∧ Carried pick h r c items (settled s q) (settled s' q')))
      (indexDiffLoop h r c items q) s := by
  induction items generalizing q s with
  | nil => exact ⟨hq, fun hfine => ⟨hfine, rfl⟩⟩
  | cons d items ih =>
    rw [List.flatMap_cons] at hq
    rw [List.flatMap_cons, List.nodup_append'] at hn
    have hks : ∀ k ∈ paths d, k ∉ items.flatMap paths := fun k hk hk' => hn.2.2 hk hk'
    refine ((choosing_runs (queueItem_runs q d)).and (queueItem_sure q d)).bind ?_
    rintro ⟨q1, reached⟩ s1 ⟨⟨rfl, ht⟩, hsure⟩
    obtain ⟨hq1, hchanged⟩ : Steady _ s1 q1 ∧ (Sure pick s1 q q1 _ → _) := hq.turn hks (action_paths d) ht
    refine Runs.bind (Q := fun q' s' => Sent mayFail (items.flatMap paths) s1 q1 s' q') ?_
      fun q2 s2 hq2 => (ih hq2.steady hn.2.1).mono fun q3 s3 hq3 => ⟨hq3.1, fun hfine => ?_⟩
    · split
      · exact (hq1.flush 10).mono fun q' s' hq' => hq'.1
      · exact .refl hq1
    · obtain ⟨hfine2, hcarried⟩ := hq3.2 hfine
      obtain ⟨hfine1, hsame⟩ := hq2.fine hfine2
      obtain ⟨hfine0, hs⟩ := hsure hfine1
      rw [hsame] at hcarried
      exact ⟨hfine0, _, hchanged hs, hcarried⟩

/-- An incremental run that reports no error carries the changes of its diff into the index. -/
lemma indexDiffFiles_carried {items : List DiffItem} (hids : (ids s).Nodup)
    (hdiff : c.diff h.lastIndexedCommit = .ok items) (hn : (items.flatMap paths).Nodup)
    (errors : List String) :
    Runs (choosing mayFail pick) (fun out s' => (ids s').Nodup ∧ ∃ errors', out = .ok errors' ∧
      (Fine mayFail errors' → Carried pick h r c items (documents s) (documents s')))
      (indexDiffFiles h r c errors) s := by
  have hstart : Steady (items.flatMap paths) s ⟨[], [], [], errors⟩ :=
    ⟨hids, by simp, by simp, by simp, by simp⟩
  simp only [indexDiffFiles, hdiff]
  refine (indexDiffLoop_carried items hstart hn).bind ?_
  rintro q1 s1 ⟨hq1, hcarried⟩
  refine (hq1.flush 1).bind ?_
  rintro q2 s2 ⟨hq2, hempty⟩
  obtain ⟨hc, hu⟩ := hempty le_rfl
  refine ⟨hq2.steady.ids, _, rfl, fun hfine => ?_⟩
  obtain ⟨hfine1, hsame⟩ := hq2.fine hfine
  obtain ⟨-, hrun⟩ := hcarried hfine1
  rw [← hsame] at hrun
  simpa [settled, hc, hu] using hrun

/-! ### The documents of a path -/

lemma Changed.docsAt_of_notMem {a : Action} {l l' : List Document} {k : String}
    (hc : Changed pick h a l l') (hk : k ∉ Action.paths a) : docsAt l' k = docsAt l k := by
  cases hc with
  | nothing => rfl
  | delete => rfl
  | create hd =>
    simp only [Action.paths, List.mem_singleton] at hk
    simp [docsAt_cons, hd.filePath, Ne.symm hk]
  | found hold hpick hd =>
    simp only [Action.paths, List.mem_cons, List.not_mem_nil, or_false, not_or] at hk
    simp [docsAt_cons, hd.filePath, hold, Ne.symm hk.1, Ne.symm hk.2]
  | missing hno hd =>
    simp only [Action.paths, List.mem_cons, List.not_mem_nil, or_false, not_or] at hk
    simp [docsAt_cons, hd.filePath, Ne.symm hk.2]

lemma Carried.docsAt_of_notMem {items : List DiffItem} {l l' : List Document} {k : String}
    (hc : Carried pick h r c items l l') (hk : k ∉ items.flatMap paths) :
    docsAt l' k = docsAt l k := by
  induction items generalizing l with
  | nil => rw [show l' = l from hc]
  | cons d items ih =>
    obtain ⟨l₁, hchanged, hrest⟩ := hc
    simp only [List.flatMap_cons, List.mem_append, not_or] at hk
    rw [ih hrest hk.2, hchanged.docsAt_of_notMem fun hk' => hk.1 (action_paths d k hk')]

end KaitoAutoIndexer.DiffRuns
