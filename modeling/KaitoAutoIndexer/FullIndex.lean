import KaitoAutoIndexer.GitSpec

/-!
A full run of the Git handler: it adds a document for every file it selects and reads, and
takes nothing away, so what it leaves depends on what was there.
-/

namespace KaitoAutoIndexer.FullIndex

open KaitoAutoIndexer.Lib KaitoAutoIndexer.Types
open KaitoAutoIndexer.Rag KaitoAutoIndexer.JobClient KaitoAutoIndexer.Git
open KaitoAutoIndexer.GitSpec

variable {s : Store} {h : GitHandler} {r : Remote} {c : Checkout} {t : Tree}

/-- A text to be indexed that a full run does not get to: the file cannot be read, or a
directory it is in has `.git` in its path. -/
def missed (h : GitHandler) (r : Remote) (c : Checkout) (t : Tree) (p : String) : Option String :=
  if listed c p && (c.read p).toOption.isSome then none else wanted h r t p

/-- Every text to be indexed is reached or missed. -/
lemma reached_append_missed (p : String) :
    (reached h r c t p).toList ++ (missed h r c t p).toList = (wanted h r t p).toList := by
  unfold reached missed
  split <;> simp

lemma ownDocuments_append_own {A : String} {docs : List Document}
    (hd : ∀ d ∈ docs, d.owner = some A) {s s' : Store} (hs : documents s' = documents s ++ docs) :
    ownDocuments A s' = ownDocuments A s ++ docs := by
  have hfilter : docs.filter (·.owner = some A) = docs := List.filter_eq_self.mpr (by simpa using hd)
  unfold ownDocuments
  rw [hs, List.filter_append, hfilter]

/-- With what is reached added, the tree is mirrored just when what is missed was already
there and nothing else was. -/
lemma mirrors_append_reached_iff {A : String} {old new : List Document}
    (hold : ∀ d ∈ old, d.owner = some A) (hnew : Mirrors A (reached h r c t) new) :
    Mirrors A (wanted h r t) (old ++ new) ↔ Mirrors A (missed h r c t) old := by
  have hpath : ∀ p, texts (old ++ new) (some p) = (wanted h r t p).toList ↔
      texts old (some p) = (missed h r c t p).toList := by
    intro p
    rw [texts_append, hnew.atPath, ← reached_append_missed (c := c)]
    unfold reached missed
    split
    · cases wanted h r t p with
      | none => simp
      | some x => simp
    · simp
  constructor
  · intro hm
    refine ⟨hold, fun p => (hpath p).mp (hm.atPath p), ?_⟩
    have := hm.noPath
    rw [texts_append, List.append_eq_nil_iff] at this
    exact this.1
  · intro hm
    refine ⟨fun d hd => ?_, fun p => (hpath p).mpr (hm.atPath p), ?_⟩
    · rcases List.mem_append.mp hd with hd | hd
      · exact hold d hd
      · exact hnew.owner d hd
    · rw [texts_append, hm.noPath, hnew.noPath]
      rfl

/-- **A run on the full path that returns no errors leaves one document for each indexable
file with text at the checked-out commit, and no other document of its AutoIndexer, if and only
if its documents before the run were just those of the files that the run misses.** -/
theorem updateIndex_full_iff (hsetup : setupRepository h r = .ok c) (hpath : h.path = .full)
    (hc : Shows c t) (s : Store) :
    Runs (indexService True) (fun out s' => out.returned = [] →
      (Mirrors h.autoindexerName (wanted h r t) (ownDocuments h.autoindexerName s') ↔
        Mirrors h.autoindexerName (missed h r c t) (ownDocuments h.autoindexerName s)))
      (h.updateIndex r) s := by
  simp only [GitHandler.updateIndex, ask_bind, runs_ask]
  rintro t0 s0 rfl
  simp only [GitHandler.indexRepository, hsetup, hpath]
  refine Runs.bind (Q := fun q s' => q.1 = [] → Indexed h c (getRepositoryFiles h r c)
    (documents s0) (documents s')) ?_ ?_
  · refine (indexAllFiles_runs [] s0).bind fun e s1 he hnil => ?_
    rcases he with ⟨-, hi⟩ | ⟨-, hne⟩
    · exact hi
    · exact absurd hnil hne
  · rintro ⟨errors, commit⟩ s1 hi
    simp only [runs_ask]
    rintro t1 s2 rfl hnil
    obtain ⟨new, hnew, hm⟩ := texts_of_indexed hc (hi hnil)
    rw [ownDocuments_append_own hm.owner hnew]
    exact mirrors_append_reached_iff (fun d hd => by simpa using (List.mem_filter.mp hd).2) hm

/-- The small repository, pinned to a commit. -/
def demoPinned : GitHandler := { demoHandler with commit := some "decaf" }

lemma demoPinned_setup :
    setupRepository demoPinned (demoRemote []) = .ok (demoCheckout []) := by
  simp only [setupRepository, demoPinned, demoHandler, demoRemote]
  rfl

lemma demoPinned_path : demoPinned.path = .full := by
  simp [GitHandler.path, demoPinned]

/-- A document of a file that is no longer there, and one of another AutoIndexer. -/
def demoStore : Store :=
  [⟨1, "B", [("autoindexer", "default_docs"), ("file_path", "b.md")]⟩,
   ⟨2, "A", [("autoindexer", "default_other"), ("file_path", "a.md")]⟩]

theorem updateIndex_full_demo :
    Runs (indexService True) (fun out s' => out.returned = [] →
      (Mirrors "default_docs" (wanted demoPinned (demoRemote []) demoTree)
          (ownDocuments "default_docs" s') ↔
        Mirrors "default_docs" (missed demoPinned (demoRemote []) (demoCheckout []) demoTree)
          (ownDocuments "default_docs" demoStore)))
      (demoPinned.updateIndex (demoRemote [])) demoStore :=
  updateIndex_full_iff demoPinned_setup demoPinned_path (demo_shows []) demoStore

/-- The document of a file that is no longer there outlives a full run. -/
theorem not_updateIndex_full_resets :
    ¬ ∀ (h : GitHandler) (r : Remote) (c : Checkout) (t : Tree) (s : Store),
      setupRepository h r = .ok c → h.path = .full → Shows c t →
      Runs (indexService True) (fun out s' => out.returned = [] →
        Mirrors h.autoindexerName (wanted h r t) (ownDocuments h.autoindexerName s'))
        (h.updateIndex r) s := by
  intro hall
  have hall := hall demoPinned (demoRemote []) (demoCheckout []) demoTree demoStore demoPinned_setup
    demoPinned_path (demo_shows [])
  have hrun := Runs.exec hall (indexService_indexServe True)
  have hb := (hrun (by decide)).atPath "b.md"
  exact absurd hb (by decide)

end KaitoAutoIndexer.FullIndex
