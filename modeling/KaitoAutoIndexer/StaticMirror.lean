import KaitoAutoIndexer.GitSpec
import KaitoAutoIndexer.Static

/-!
The documents of a static source over its runs. A run adds a document for each URL that it gets
a text from, and nothing takes the documents of earlier runs away.
-/

namespace KaitoAutoIndexer.StaticMirror

open KaitoAutoIndexer.Lib KaitoAutoIndexer.Types
open KaitoAutoIndexer.Rag KaitoAutoIndexer.JobClient KaitoAutoIndexer.Static
open KaitoAutoIndexer.GitSpec (indexService indexServe indexService_indexServe documents
  ownDocuments documents_of_added)

/-! ### What a run fetches -/

/-- The URLs that gave a text, with their texts. -/
abbrev Fetched := List (String × String)

def fetch (g : Fetched) : (c : JobCall) → JobAnswer c → Fetched
  | .fetch url, .ok (some content) => if content = "" then g else g ++ [(url, content)]
  | _, _ => g

/-- Nobody else writes to the index; requests and fetches may fail. -/
abbrev service : Service (Store × Fetched) JobCall JobAnswer := noted (indexService True) fetch

/-- The URL a document was made for. -/
def sourceUrl (d : Document) : Option String := d.metadata.lookup "source_url"

/-- The document of a text fetched for the AutoIndexer `A`. -/
structure IsDocument (A : String) (p : String × String) (d : Document) : Prop where
  owner : d.owner = some A
  sourceUrl : sourceUrl d = some p.1
  text : d.text = p.2

/-- There is one document for each URL that gave a text, with a text fetched for it, and no
other. -/
structure Mirrors (fetched : Fetched) (docs : List Document) : Prop where
  one : ∀ url ∈ fetched.map Prod.fst, ∃ d, docs.filter (sourceUrl · = some url) = [d] ∧
    (url, d.text) ∈ fetched
  only : ∀ d ∈ docs, ∃ url ∈ fetched.map Prod.fst, sourceUrl d = some url

/-! ### A run -/

lemma asking_runs {α : Type} {Q : α → Store × Fetched → Prop} {c : JobCall} {k : JobAnswer c → Py α}
    {x : Store × Fetched}
    (hk : ∀ a y, indexService True x.1 c a y.1 → y.2 = fetch x.2 c a → Runs service Q (k a) y) :
    Runs service Q (ask c >>= k) x := fun a y hs => hk a y hs.1 hs.2

variable {A : String} {h : StaticHandler} {x : Store × Fetched}

lemma createDocument_runs (url content : String) :
    Runs service (fun d y => IsDocument h.autoindexerName (url, content) d ∧ y = x)
      (h.createDocument url content) x := by
  refine asking_runs fun t y hs hg => ⟨⟨rfl, ?_, rfl⟩, Prod.ext hs hg⟩
  simp [sourceUrl, List.lookup]

/-- What the loop has stored and what is pending are the documents of what it has fetched. -/
def Gathered (A : String) (s : Store) (pending : List Document) (y : Store × Fetched) : Prop :=
  ∃ new, List.Forall₂ (IsDocument A) y.2 new ∧ documents y.1 ++ pending = documents s ++ new

lemma Gathered.add {s : Store} {pending : List Document} {d : Document} {p : String × String}
    (hx : Gathered A s pending x) (hd : IsDocument A p d) :
    Gathered A s (pending ++ [d]) (x.1, x.2 ++ [p]) := by
  obtain ⟨new, hnew, hdocs⟩ := hx
  refine ⟨new ++ [d], List.rel_append hnew (.cons hd .nil), ?_⟩
  rw [← List.append_assoc, hdocs, List.append_assoc]

/-- The pending documents are sent off. -/
lemma Gathered.send {s s' : Store} {pending : List Document} (hx : Gathered A s pending x)
    (hs : Added pending x.1 s') : Gathered A s [] (s', x.2) := by
  obtain ⟨new, hnew, hdocs⟩ := hx
  exact ⟨new, hnew, by rw [List.append_nil, documents_of_added hs, hdocs]⟩

lemma fetchLoop_runs {s : Store} (urls : List String) (pending : List Document)
    (hx : Gathered h.autoindexerName s pending x) :
    Runs service (fun a y => ∀ docs, a = .ok docs → Gathered h.autoindexerName s docs y)
      (h.fetchLoop urls pending) x := by
  induction urls generalizing pending x with
  | nil =>
    rintro docs ⟨⟩
    exact hx
  | cons url urls ih =>
    refine asking_runs fun a y hs hg => ?_
    have hs : y.1 = x.1 := hs
    cases a with
    | error e => exact fun docs hdocs => by cases hdocs
    | ok content =>
      dsimp only
      have hsame : content.filter (· ≠ "") = none → y = x := by
        intro hc
        refine Prod.ext hs (hg.trans ?_)
        cases content with
        | none => rfl
        | some t => simpa [fetch] using hc
      split
      · rename_i hc
        rw [hsame hc]
        exact ih pending hx
      · rename_i t hc
        obtain ⟨ht, hne⟩ := Option.filter_eq_some_iff.mp hc
        have hy : y = (x.1, x.2 ++ [(url, t)]) := by
          refine Prod.ext hs (hg.trans ?_)
          subst ht
          exact if_neg (by simpa using hne)
        refine (createDocument_runs url t).bind ?_
        rintro d y' ⟨hd, rfl⟩
        have hadd := hx.add hd
        rw [← hy] at hadd
        split
        · refine asking_runs fun a z hs' hg' => ?_
          cases a with
          | error e => exact fun docs hdocs => by cases hdocs
          | ok u =>
            have hsend := hadd.send hs'
            have hz : z = (z.1, y'.2) := Prod.ext rfl hg'
            rw [← hz] at hsend
            exact ih [] hsend
        · exact ih _ hadd

/-- A run that returns no errors adds a document for each text that it has fetched. -/
lemma updateIndex_runs (h : StaticHandler) (s : Store) :
    Runs service (fun out y => out.returned = [] →
      ∃ new, List.Forall₂ (IsDocument h.autoindexerName) y.2 new ∧
        documents y.1 = documents s ++ new) h.updateIndex (s, []) := by
  refine asking_runs fun start y hs hg => ?_
  have hstart : Gathered h.autoindexerName s [] y := by
    have hs : y.1 = s := hs
    have hg : y.2 = [] := hg
    rw [show y = (s, []) from Prod.ext hs hg]
    exact ⟨[], .nil, rfl⟩
  have hindex : Runs service (fun errors y => errors = [] → Gathered h.autoindexerName s [] y)
      h.indexUrls y := by
    refine (fetchLoop_runs h.urls [] hstart).bind ?_
    rintro (e | docs) z hz
    · intro he
      cases he
    · have hz := hz docs rfl
      dsimp only
      split
      · rename_i hdocs
        subst hdocs
        exact fun _ => hz
      · refine asking_runs fun a z' hs' hg' => ?_
        cases a with
        | error e =>
          intro he
          cases he
        | ok u =>
          intro _
          have hsend := hz.send hs'
          rwa [← show z' = (z'.1, z.2) from Prod.ext rfl hg'] at hsend
  refine hindex.bind fun errors z hz => asking_runs fun stop z' hs' hg' he => ?_
  have hs' : z'.1 = z.1 := hs'
  have hg' : z'.2 = z.2 := hg'
  obtain ⟨new, hnew, hdocs⟩ := hz he
  rw [hs', hg']
  exact ⟨new, hnew, by rwa [List.append_nil] at hdocs⟩

/-! ### When the documents mirror the URLs -/

variable {old new : List Document} {fetched : Fetched}

lemma map_sourceUrl (hnew : List.Forall₂ (IsDocument A) fetched new) :
    new.map sourceUrl = (fetched.map Prod.fst).map some := by
  induction hnew with
  | nil => rfl
  | cons hd _ ih => simp [hd.sourceUrl, ih]

lemma text_mem (hnew : List.Forall₂ (IsDocument A) fetched new) {d : Document} {url : String}
    (hd : d ∈ new) (hurl : sourceUrl d = some url) : (url, d.text) ∈ fetched := by
  induction hnew with
  | nil => cases hd
  | @cons p d' _ _ hp _ ih =>
    rcases List.mem_cons.mp hd with rfl | hd
    · rw [hp.sourceUrl, Option.some_inj] at hurl
      rw [← hurl, hp.text]
      exact List.mem_cons_self
    · exact List.mem_cons_of_mem _ (ih hd)

lemma owner_of_mem (hnew : List.Forall₂ (IsDocument A) fetched new) {d : Document} (hd : d ∈ new) :
    d.owner = some A := by
  induction hnew with
  | nil => cases hd
  | cons hp _ ih =>
    rcases List.mem_cons.mp hd with rfl | hd
    · exact hp.owner
    · exact ih hd

lemma length_filter_sourceUrl (docs : List Document) (url : String) :
    (docs.filter (sourceUrl · = some url)).length = (docs.map sourceUrl).count (some url) := by
  rw [List.count_eq_countP, List.countP_map, List.countP_eq_length_filter]
  congr 2
  funext d
  rw [Bool.eq_iff_iff]
  simp

lemma count_url (hnew : List.Forall₂ (IsDocument A) fetched new) (url : String) :
    ((old ++ new).filter (sourceUrl · = some url)).length =
      (old.map sourceUrl).count (some url) + (fetched.map Prod.fst).count url := by
  rw [length_filter_sourceUrl, List.map_append, List.count_append, map_sourceUrl hnew,
    List.count_map_of_injective _ _ (Option.some_injective _)]

/-- Documents are added to those of the runs before. They mirror the URLs exactly when there was
none before, and no URL gave a text twice. -/
lemma mirrors_append_iff (hnew : List.Forall₂ (IsDocument A) fetched new) :
    Mirrors fetched (old ++ new) ↔ old = [] ∧ (fetched.map Prod.fst).Nodup := by
  constructor
  · intro hm
    have hcount : ∀ url ∈ fetched.map Prod.fst,
        (old.map sourceUrl).count (some url) + (fetched.map Prod.fst).count url = 1 := by
      intro url hurl
      obtain ⟨d, hd, -⟩ := hm.one url hurl
      rw [← count_url hnew, hd]
      rfl
    refine ⟨List.eq_nil_iff_forall_not_mem.mpr fun d hd => ?_, List.nodup_iff_count_le_one.mpr fun url => ?_⟩
    · obtain ⟨url, hurl, hd'⟩ := hm.only d (List.mem_append_left _ hd)
      have h1 : 0 < (old.map sourceUrl).count (some url) :=
        List.count_pos_iff.mpr (hd' ▸ List.mem_map_of_mem hd)
      have h2 : 0 < (fetched.map Prod.fst).count url := List.count_pos_iff.mpr hurl
      have h3 := hcount url hurl
      omega
    · by_cases hurl : url ∈ fetched.map Prod.fst
      · have h3 := hcount url hurl
        omega
      · rw [List.count_eq_zero_of_not_mem hurl]
        omega
  · rintro ⟨rfl, hn⟩
    rw [List.nil_append]
    refine ⟨fun url hurl => ?_, fun d hd => ?_⟩
    · have hlen := @count_url _ [] _ _ hnew url
      rw [List.nil_append, List.count_eq_one_of_mem hn hurl] at hlen
      obtain ⟨d, hd⟩ := List.length_eq_one_iff.mp hlen
      have hmem : d ∈ new.filter (sourceUrl · = some url) := by
        rw [hd]
        exact List.mem_singleton_self d
      obtain ⟨hmem, hurl'⟩ := List.mem_filter.mp hmem
      exact ⟨d, hd, text_mem hnew hmem (by simpa using hurl')⟩
    · have hmem : sourceUrl d ∈ (fetched.map Prod.fst).map some :=
        map_sourceUrl hnew ▸ List.mem_map_of_mem hd
      obtain ⟨url, hurl, heq⟩ := List.mem_map.mp hmem
      exact ⟨url, hurl, heq.symm⟩

/-! ### A sequence of runs -/

/-- A run without errors. -/
structure Turn (A : String) where
  handler : StaticHandler
  before : Store
  out : Outcome
  after : Store
  fetched : Fetched
  own : handler.autoindexerName = A
  ends : Ends service handler.updateIndex (before, []) out (after, fetched)
  clean : out.returned = []

/-- The documents of the AutoIndexer `A` mirror the URLs after the run. -/
def Turn.Mirrored (t : Turn A) : Prop := Mirrors t.fetched (ownDocuments A t.after)

/-- Runs one after the other, the last one first. Others leave the documents of `A` alone. -/
inductive Sequence (A : String) (s : Store) : List (Turn A) → Store → Prop
  | start : Sequence A s [] s
  | run {l : List (Turn A)} (t : Turn A) (h : Sequence A s l t.before) : Sequence A s (t :: l) t.after
  | others {l : List (Turn A)} {v v' : Store} (h : Sequence A s l v)
      (hv : ownDocuments A v' = ownDocuments A v) : Sequence A s l v'

lemma Turn.documents (t : Turn A) : ∃ new, List.Forall₂ (IsDocument A) t.fetched new ∧
    ownDocuments A t.after = ownDocuments A t.before ++ new := by
  obtain ⟨new, hnew, hdocs⟩ := (updateIndex_runs t.handler t.before).ends t.ends t.clean
  rw [t.own] at hnew
  refine ⟨new, hnew, ?_⟩
  have howner : ∀ d ∈ new, decide (d.owner = some A) = true :=
    fun d hd => by simpa using owner_of_mem hnew hd
  unfold ownDocuments
  rw [hdocs, List.filter_append, List.filter_eq_self.mpr howner]

lemma Turn.mirrored_iff (t : Turn A) :
    t.Mirrored ↔ ownDocuments A t.before = [] ∧ (t.fetched.map Prod.fst).Nodup := by
  obtain ⟨new, hnew, hown⟩ := t.documents
  unfold Turn.Mirrored
  rw [hown]
  exact mirrors_append_iff hnew

/-- There are no documents as long as no run has fetched a text. -/
lemma Sequence.own_eq_nil_iff {s v : Store} {l : List (Turn A)} (h : Sequence A s l v) :
    ownDocuments A v = [] ↔ ownDocuments A s = [] ∧ ∀ t ∈ l, t.fetched = [] := by
  induction h with
  | start => simp
  | run t _ ih =>
    obtain ⟨new, hnew, hown⟩ := t.documents
    have hnil : new = [] ↔ t.fetched = [] := by
      rw [← List.length_eq_zero_iff, ← List.length_eq_zero_iff, hnew.length_eq]
    rw [hown, List.append_eq_nil_iff, ih, hnil, List.forall_mem_cons]
    tauto
  | others _ hv ih => rw [hv, ih]

/-- Nothing has been indexed before the last run of the sequence, and it got no URL twice. -/
def Fresh (A : String) (s : Store) : List (Turn A) → Prop
  | [] => True
  | t :: l => ownDocuments A s = [] ∧ (∀ t' ∈ l, t'.fetched = []) ∧ (t.fetched.map Prod.fst).Nodup

/-- **A static source is mirrored after every run** of a sequence exactly when at most its last run
gets any text, from a list without repetitions, and the AutoIndexer had no documents before. -/
theorem sequence_mirrored_iff {s v : Store} {l : List (Turn A)} (h : Sequence A s l v) :
    (∀ t ∈ l, t.Mirrored) ↔ Fresh A s l := by
  induction h with
  | start => simp [Fresh]
  | @run l t h ih =>
    rw [List.forall_mem_cons, t.mirrored_iff, h.own_eq_nil_iff, ih]
    constructor
    · rintro ⟨⟨⟨hs, hl⟩, hn⟩, -⟩
      exact ⟨hs, hl, hn⟩
    · rintro ⟨hs, hl, hn⟩
      refine ⟨⟨⟨hs, hl⟩, hn⟩, ?_⟩
      cases l with
      | nil => trivial
      | cons t' l =>
        rw [List.forall_mem_cons] at hl
        refine ⟨hs, hl.2, ?_⟩
        rw [hl.1]
        exact List.nodup_nil
  | others _ _ ih => exact ih

/-! ### One page, indexed twice -/

/-- Every URL gives the text `A`. -/
def pageServe (s : Store) : (c : JobCall) → JobAnswer c × Store
  | .fetch _ => (.ok (some "A"), s)
  | c => indexServe s c

lemma indexService_pageServe (s : Store) (c : JobCall) :
    indexService True s c (pageServe s c).1 (pageServe s c).2 := by
  match c with
  | .fetch u => rfl
  | .rag t q => exact indexService_indexServe True s (.rag t q)
  | .now => rfl
  | .getAutoIndexer => rfl
  | .patchStatus b => rfl
  | .kusto q => rfl

def pageHandler : StaticHandler := ⟨⟨"http://rag", "index"⟩, "default_docs", ["http://example.com/a.md"]⟩

def answer (x : Store × Fetched) (c : JobCall) : JobAnswer c × Store × Fetched :=
  ((pageServe x.1 c).1, (pageServe x.1 c).2, fetch x.2 c (pageServe x.1 c).1)

/-- The run from the store `s`. -/
def pageRun (s : Store) : Outcome × Store × Fetched := pageHandler.updateIndex.exec answer (s, [])

lemma pageRun_ends (s : Store) : Ends service pageHandler.updateIndex (s, []) (pageRun s).1
    ((pageRun s).2.1, (pageRun s).2.2) :=
  Ends.exec _ _ fun x c => ⟨indexService_pageServe x.1 c, rfl⟩

def firstTurn : Turn "default_docs" where
  handler := pageHandler
  before := []
  out := (pageRun []).1
  after := (pageRun []).2.1
  fetched := (pageRun []).2.2
  own := rfl
  ends := pageRun_ends []
  clean := by decide

def secondTurn : Turn "default_docs" where
  handler := pageHandler
  before := firstTurn.after
  out := (pageRun firstTurn.after).1
  after := (pageRun firstTurn.after).2.1
  fetched := (pageRun firstTurn.after).2.2
  own := rfl
  ends := pageRun_ends firstTurn.after
  clean := by decide

theorem sequence_mirrored_first : firstTurn.Mirrored := by
  have h := sequence_mirrored_iff (.run firstTurn .start)
  exact h.mpr ⟨rfl, nofun, by decide⟩ _ List.mem_cons_self

/-- The page has not changed, and is in the index twice after the second run. -/
theorem not_sequence_mirrored :
    ¬ ∀ (A : String) (s v : Store) (l : List (Turn A)), Sequence A s l v → ∀ t ∈ l, t.Mirrored := by
  intro h
  have h1 := h _ _ _ _ (.run secondTurn (.run firstTurn .start)) _ List.mem_cons_self
  rw [secondTurn.mirrored_iff] at h1
  exact absurd h1.1 (by decide)

end KaitoAutoIndexer.StaticMirror
