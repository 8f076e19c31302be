import KaitoAutoIndexer.GitSpec

/-!
An incremental run of the Git handler against a full one. The diff changes a table from paths
to texts, one change after the other; index and queues together mirror that table throughout
the run. What is left is to compare the table with the tree.
-/

namespace KaitoAutoIndexer.Incremental

open KaitoAutoIndexer.Lib KaitoAutoIndexer.Types
open KaitoAutoIndexer.Rag KaitoAutoIndexer.JobClient KaitoAutoIndexer.Git
open KaitoAutoIndexer.GitSpec

variable {s s' : Store} {h : GitHandler} {r : Remote} {c : Checkout} {t₁ t₂ : Tree} {A : String}

/-! ### What Git says with a diff -/

/-- The paths a change is about. -/
def paths (d : DiffItem) : List String :=
  match d.changeType with
  | .renamed => (d.aPath.filter (· ≠ "")).toList ++ [d.filePath]
  | _ => [d.filePath]

/-- The change is one from the first tree to the second. -/
def IsChange (t₁ t₂ : Tree) (d : DiffItem) : Prop :=
  match d.changeType with
  | .added => t₁ d.filePath = none ∧ (t₂ d.filePath).isSome
  | .modified => (t₁ d.filePath).isSome ∧ (t₂ d.filePath).isSome
  | .deleted => (t₁ d.filePath).isSome ∧ t₂ d.filePath = none
  | .renamed => t₁ d.filePath = none ∧ (t₂ d.filePath).isSome ∧
      ∃ a, d.aPath = some a ∧ a ≠ "" ∧ (t₁ a).isSome ∧ t₂ a = none
  | .typeChanged => True
  | .copied => False

/-- The list has every path at which the trees differ, once. -/
structure DiffOf (t₁ t₂ : Tree) (items : List DiffItem) : Prop where
  each : ∀ d ∈ items, IsChange t₁ t₂ d
  nodup : (items.flatMap paths).Nodup
  same : ∀ p, p ∉ items.flatMap paths → t₁ p = t₂ p

/-! ### The table -/

/-- What the run makes of the table of texts at a change. Nothing is ever taken out of it but
the old path of a renamed file. -/
def applied (a : Action) (g : String → Option String) : String → Option String :=
  match a with
  | .nothing => g
  | .create p x => Function.update g p (some x)
  | .replace old p x => Function.update (Function.update g old none) p (some x)
  | .delete _ => g

/-- A new document does not meet one that is there. -/
def Fits (g : String → Option String) : Action → Prop
  | .create p _ => g p = none
  | .replace old p _ => p = old ∨ g p = none
  | _ => True

/-- The paths of the documents that an action adds or replaces. -/
def Action.paths : Action → List String
  | .create p _ => [p]
  | .replace old p _ => [old, p]
  | _ => []

lemma action_paths (d : DiffItem) : ∀ p ∈ Action.paths (action h r c d), p ∈ paths d := by
  unfold action paths
  split
  · simp [Action.paths]
  · cases d.changeType with
    | renamed =>
      cases readText c d.filePath with
      | none => simp [Action.paths]
      | some x =>
        cases d.aPath.filter (· ≠ "") with
        | none => simp [Action.paths]
        | some a => simp [Action.paths]
    | added => cases readText c d.filePath <;> simp [Action.paths]
    | modified => cases readText c d.filePath <;> simp [Action.paths]
    | deleted => simp [Action.paths]
    | typeChanged => simp [Action.paths]
    | copied => simp [Action.paths]

lemma applied_changesAt (a : Action) : ChangesAt (Action.paths a) (applied a) := by
  cases a with
  | nothing => exact ⟨fun _ _ _ => rfl, fun hg => hg⟩
  | delete p => exact ⟨fun _ _ _ => rfl, fun hg => hg⟩
  | create p x =>
    refine ⟨fun g k hk => ?_, fun {g g' k} hg => ?_⟩
    · simp only [Action.paths, List.mem_singleton] at hk
      exact Function.update_of_ne hk _ _
    · simp [applied, Function.update_apply, hg]
  | replace old p x =>
    refine ⟨fun g k hk => ?_, fun {g g' k} hg => ?_⟩
    · simp only [Action.paths, List.mem_cons, List.not_mem_nil, or_false, not_or] at hk
      simp [applied, hk.1, hk.2]
    · simp [applied, Function.update_apply, hg]

lemma changesAt_paths (d : DiffItem) : ChangesAt (paths d) (applied (action h r c d)) where
  frame g k hk := (applied_changesAt _).frame g k fun hk' => hk (action_paths d k hk')
  congr := (applied_changesAt _).congr

lemma Fits.congr {g g' : String → Option String} {a : Action} (hf : Fits g a)
    (hg : ∀ p ∈ Action.paths a, g' p = g p) : Fits g' a := by
  cases a with
  | create p x => exact (hg p (by simp [Action.paths])).trans hf
  | replace old p x => exact hf.imp_right fun hf => (hg p (by simp [Action.paths])).trans hf
  | nothing => trivial
  | delete p => trivial

/-- The table after the changes of the list. -/
def carried (h : GitHandler) (r : Remote) (c : Checkout) (items : List DiffItem)
    (g : String → Option String) : String → Option String :=
  items.foldl (fun g d => applied (action h r c d) g) g

/-! ### Index and queues -/

/-- The documents of the index once the queues are sent off. -/
def settled (s : Store) (q : Pending) : List Document :=
  documents (replaceAll q.updateDocs s) ++ q.createDocs

/-- Index and queues mirror the table `g`, and no document of the paths `rest` has been
queued or is to be replaced. -/
structure Queued (A : String) (rest : List String) (g : String → Option String) (s : Store)
    (q : Pending) : Prop where
  ids : (ids s).Nodup
  mirrors : Mirrors A g (settled s q)
  known : ∀ u ∈ q.updateDocs, u.docId ∈ Rag.ids s
  replaced : ∀ u ∈ q.updateDocs, ∀ y ∈ s, y.docId = u.docId → ∀ p ∈ rest, y.doc.filePath ≠ some p
  updates : ∀ u ∈ q.updateDocs, ∀ p ∈ rest, u.doc.filePath ≠ some p
  creates : ∀ d ∈ q.createDocs, ∀ p ∈ rest, d.filePath ≠ some p

variable {rest ks : List String} {g : String → Option String} {q q' : Pending}

lemma mem_settled {d : Document} (hd : d ∈ settled s q) :
    (∃ y ∈ s, y.doc = d) ∨ (∃ u ∈ q.updateDocs, u.doc = d) ∨ d ∈ q.createDocs := by
  rcases List.mem_append.mp hd with hd | hd
  · obtain ⟨y, hy, rfl⟩ := List.mem_map.mp hd
    rcases mem_replaceAll hy with hy | hy
    · exact .inl ⟨y, hy, rfl⟩
    · exact .inr (.inl ⟨y, hy, rfl⟩)
  · exact .inr (.inr hd)

/-- The queues are the same. -/
lemma Queued.congr' (hq : Queued A rest g s q) (hc : q'.createDocs = q.createDocs)
    (hu : q'.updateDocs = q.updateDocs) : Queued A rest g s q' := by
  obtain ⟨h1, h2, h3, h4, h5, h6⟩ := hq
  refine ⟨h1, ?_, ?_, ?_, ?_, ?_⟩
  · unfold settled
    rw [hc, hu]
    exact h2
  · rwa [hu]
  · rwa [hu]
  · rwa [hu]
  · rwa [hc]

/-- The queues are the same, and fewer paths are to come. -/
lemma Queued.congr (hq : Queued A (ks ++ rest) g s q) (hc : q'.createDocs = q.createDocs)
    (hu : q'.updateDocs = q.updateDocs) : Queued A rest g s q' := by
  have hrest : Queued A rest g s q :=
    { ids := hq.ids
      mirrors := hq.mirrors
      known := hq.known
      replaced := fun u hu y hy hid p hp => hq.replaced u hu y hy hid p (List.mem_append_right _ hp)
      updates := fun u hu p hp => hq.updates u hu p (List.mem_append_right _ hp)
      creates := fun d hd p hp => hq.creates d hd p (List.mem_append_right _ hp) }
  exact hrest.congr' hc hu

lemma mirrors_append_create {docs : List Document} {p x : String} {d : Document}
    (hm : Mirrors h.autoindexerName g docs) (hd : IsDocument h p x d) (hp : g p = none) :
    Mirrors h.autoindexerName (Function.update g p (some x)) (docs ++ [d]) where
  owner := by simpa [or_imp, forall_and, hd.owner] using hm.owner
  atPath k := by
    rw [texts_append, texts_cons, hm.atPath, hd.filePath, hd.text, Function.update_apply]
    by_cases hk : k = p
    · simp [hk, hp]
    · simp [hk, Ne.symm hk]
  noPath := by
    rw [texts_append, texts_cons, hm.noPath, hd.filePath]
    simp

lemma Queued.create {p x : String} {d : Document}
    (hq : Queued h.autoindexerName (ks ++ rest) g s q) (hks : ∀ k ∈ ks, k ∉ rest) (hp : p ∈ ks)
    (hg : g p = none) (hd : IsDocument h p x d) (hc : q'.createDocs = q.createDocs ++ [d])
    (hu : q'.updateDocs = q.updateDocs) :
    Queued h.autoindexerName rest (Function.update g p (some x)) s q' where
  ids := hq.ids
  mirrors := by
    have hsettled : settled s q' = settled s q ++ [d] := by simp [settled, hc, hu]
    rw [hsettled]
    exact mirrors_append_create hq.mirrors hd hg
  known := by rw [hu]; exact hq.known
  replaced := by
    rw [hu]
    exact fun u hu y hy hid k hk => hq.replaced u hu y hy hid k (List.mem_append_right _ hk)
  updates := by
    rw [hu]
    exact fun u hu k hk => hq.updates u hu k (List.mem_append_right _ hk)
  creates := by
    rw [hc]
    intro d' hd' k hk
    rcases List.mem_append.mp hd' with hd' | hd'
    · exact hq.creates d' hd' k (List.mem_append_right _ hk)
    · rw [List.mem_singleton.mp hd', hd.filePath]
      exact fun hpk => hks p hp (Option.some.inj hpk ▸ hk)

/-- A path to come that the lookup does not find has no entry in the table. -/
lemma Queued.none_of_missing {old : String} (hq : Queued A (ks ++ rest) g s q) (hold : old ∈ ks)
    (hno : ∀ y ∈ s, y.doc.filePath ≠ some old) : g old = none := by
  have hnil : texts (settled s q) (some old) = [] := by
    refine valuesAt_eq_nil_iff.mpr fun d hd => ?_
    rcases mem_settled hd with ⟨y, hy, rfl⟩ | ⟨u, hu, rfl⟩ | hd
    · exact hno y hy
    · exact hq.updates u hu old (List.mem_append_left _ hold)
    · exact hq.creates d hd old (List.mem_append_left _ hold)
  rw [hq.mirrors.atPath] at hnil
  simpa using hnil

lemma replace_of_notMem {u : StoredDocument} (hu : u.docId ∉ Rag.ids s) : replace u s = s := by
  unfold replace
  refine (List.map_congr_left fun d hd => ?_).trans s.map_id
  have hne : d.docId ≠ u.docId := fun hid => hu (hid ▸ List.mem_map_of_mem hd)
  simp [hne]

lemma replace_append (u : StoredDocument) (l l' : Store) :
    replace u (l ++ l') = replace u l ++ replace u l' := by
  simp [replace]

lemma replaceAll_append_of_notMem {us : List StoredDocument} {l l' : Store}
    (hu : ∀ u ∈ us, u.docId ∉ Rag.ids l') : replaceAll us (l ++ l') = replaceAll us l ++ l' := by
  induction us generalizing l with
  | nil => rfl
  | cons u us ih =>
    rw [replaceAll_cons, replace_append, replace_of_notMem (hu u (by simp)), replaceAll_cons]
    exact ih fun v hv => hu v (List.mem_cons_of_mem _ hv)

lemma replace_append_cons {l₁ l₂ : Store} {y u : StoredDocument}
    (hn : (Rag.ids (l₁ ++ y :: l₂)).Nodup) (hid : u.docId = y.docId) :
    replace u (l₁ ++ y :: l₂) = l₁ ++ u :: l₂ := by
  have hsplit : Rag.ids (l₁ ++ y :: l₂) = Rag.ids l₁ ++ y.docId :: Rag.ids l₂ := by simp [Rag.ids]
  rw [hsplit, List.nodup_middle, List.nodup_cons, List.mem_append, not_or, ← hid] at hn
  have hcons : replace u (y :: l₂) = u :: replace u l₂ := by simp [replace, hid]
  rw [replace_append, hcons, replace_of_notMem hn.1.1, replace_of_notMem hn.1.2]

/-- A document gives way to one for another path that has none, or for its own. -/
lemma mirrors_replace {l₁ l₂ : List Document} {a d : Document} {old p x : String}
    (hm : Mirrors h.autoindexerName g (l₁ ++ a :: l₂)) (ha : a.filePath = some old)
    (hd : IsDocument h p x d) (hg : p = old ∨ g p = none) :
    Mirrors h.autoindexerName (Function.update (Function.update g old none) p (some x))
      (l₁ ++ d :: l₂) := by
  have hone : texts (l₁ ++ a :: l₂) a.filePath = [a.text] := by
    have hmem : a.text ∈ (g old).toList := by
      rw [← hm.atPath, texts_append, texts_cons, ha]
      simp
    rw [ha, hm.atPath]
    cases hgold : g old with
    | none => simp [hgold] at hmem
    | some v => simpa [hgold, eq_comm] using hmem
  have hfree : d.filePath = a.filePath ∨ texts (l₁ ++ a :: l₂) d.filePath = [] := by
    rw [hd.filePath, ha]
    refine hg.imp (congrArg some) fun hg => ?_
    rw [hm.atPath, hg]
    rfl
  have hmove : ∀ k, texts (l₁ ++ d :: l₂) k = if k = d.filePath then [d.text]
      else if k = a.filePath then [] else texts (l₁ ++ a :: l₂) k := valuesAt_move hone hfree
  refine ⟨fun d' hd' => ?_, fun k => ?_, ?_⟩
  · rcases List.mem_append.mp hd' with hd' | hd'
    · exact hm.owner d' (List.mem_append_left _ hd')
    · rcases List.mem_cons.mp hd' with rfl | hd'
      · exact hd.owner
      · exact hm.owner d' (List.mem_append_right _ (List.mem_cons_of_mem _ hd'))
  · rw [hmove, hd.filePath, ha, hd.text, hm.atPath, Function.update_apply, Function.update_apply]
    by_cases hkp : k = p
    · simp [hkp]
    · by_cases hko : k = old
      · subst hko
        simp [hkp]
      · simp [hkp, hko]
  · rw [hmove, hd.filePath, ha, hm.noPath]
    simp

/-- The document found for a path to come is replaced in the table too. -/
lemma Queued.replace {old p x : String} {d : Document} {y : StoredDocument}
    (hq : Queued h.autoindexerName (ks ++ rest) g s q) (hks : ∀ k ∈ ks, k ∉ rest) (hp : p ∈ ks)
    (hold : old ∈ ks) (hg : p = old ∨ g p = none) (hy : y ∈ s) (hyold : y.doc.filePath = some old)
    (hd : IsDocument h p x d) (hc : q'.createDocs = q.createDocs)
    (hu : q'.updateDocs = q.updateDocs ++ [⟨y.docId, d⟩]) :
    Queued h.autoindexerName rest
      (Function.update (Function.update g old none) p (some x)) s q' := by
  have hnot : y.docId ∉ Rag.ids q.updateDocs := by
    intro hmem
    obtain ⟨u, hu, hid⟩ := List.mem_map.mp hmem
    exact hq.replaced u hu y hy hid.symm old (List.mem_append_left _ hold) hyold
  obtain ⟨l₁, l₂, hl⟩ := List.append_of_mem (replaceAll_of_notMem hy hnot)
  have hids : (Rag.ids (l₁ ++ y :: l₂)).Nodup := by
    rw [← hl, ids_replaceAll]
    exact hq.ids
  have hbefore : settled s q = documents l₁ ++ y.doc :: (documents l₂ ++ q.createDocs) := by
    simp [settled, hl, documents]
  have hreplace : Rag.replace ⟨y.docId, d⟩ (l₁ ++ y :: l₂) = l₁ ++ ⟨y.docId, d⟩ :: l₂ :=
    replace_append_cons hids rfl
  have hafter : settled s q' = documents l₁ ++ d :: (documents l₂ ++ q.createDocs) := by
    simp [settled, hc, hu, replaceAll_append, hl, hreplace, documents]
  refine ⟨hq.ids, ?_, ?_, ?_, ?_, ?_⟩
  · have hm := hq.mirrors
    rw [hbefore] at hm
    rw [hafter]
    exact mirrors_replace hm hyold hd hg
  · rw [hu]
    intro u hu
    rcases List.mem_append.mp hu with hu | hu
    · exact hq.known u hu
    · obtain rfl := List.mem_singleton.mp hu
      exact List.mem_map.mpr ⟨y, hy, rfl⟩
  · rw [hu]
    intro u hu y' hy' hid k hk
    rcases List.mem_append.mp hu with hu | hu
    · exact hq.replaced u hu y' hy' hid k (List.mem_append_right _ hk)
    · obtain rfl := List.mem_singleton.mp hu
      have hyy : y' = y := List.inj_on_of_nodup_map hq.ids hy' hy hid
      rw [hyy, hyold]
      exact fun hko => hks old hold (Option.some.inj hko ▸ hk)
  · rw [hu]
    intro u hu k hk
    rcases List.mem_append.mp hu with hu | hu
    · exact hq.updates u hu k (List.mem_append_right _ hk)
    · obtain rfl := List.mem_singleton.mp hu
      rw [hd.filePath]
      exact fun hpk => hks p hp (Option.some.inj hpk ▸ hk)
  · rw [hc]
    exact fun d' hd' k hk => hq.creates d' hd' k (List.mem_append_right _ hk)

/-- A turn changes the table as its action says. -/
lemma Queued.turn {a : Action} (hq : Queued h.autoindexerName (ks ++ rest) g s q)
    (hks : ∀ k ∈ ks, k ∉ rest) (ha : ∀ p ∈ Action.paths a, p ∈ ks) (hf : Fits g a)
    (ht : Turn False h s q q' a) : Queued h.autoindexerName rest (applied a g) s q' := by
  cases ht with
  | nothing hc hu => exact hq.congr hc hu
  | delete hc hu => exact hq.congr hc hu
  | create hd hc hu => exact hq.create hks (ha _ (by simp [Action.paths])) hf hd hc hu
  | found hy hold hd hc hu =>
    exact hq.replace hks (ha _ (by simp [Action.paths])) (ha _ (by simp [Action.paths])) hf hy hold
      hd hc hu
  | @missing old p x d hno hd hc hu =>
    have hnone := hq.none_of_missing (ha old (by simp [Action.paths])) (hno not_false)
    have hp : g p = none := hf.elim (fun hpo => hpo ▸ hnone) id
    have hsame : Function.update g old none = g := by rw [← hnone, Function.update_eq_self]
    simp only [applied, hsame]
    exact hq.create hks (ha p (by simp [Action.paths])) hp hd hc hu

lemma Queued.flushCreates (n : ℕ) (hq : Queued A rest g s q) :
    Runs (indexService False) (fun q' s' => Queued A rest g s' q' ∧
      q'.updateDocs = q.updateDocs ∧ (n ≤ 1 → q'.createDocs = []))
      (flushCreates h n q) s := by
  unfold Git.flushCreates
  split
  · refine (indexDocumentsBatch_runs q.createDocs q.errors).bind ?_
    rintro e s' (⟨-, hadd⟩ | ⟨hf, -⟩)
    · refine ⟨⟨hadd.nodup hq.ids, ?_, ?_, ?_, hq.updates, by simp⟩, rfl, fun _ => rfl⟩
      · obtain ⟨new, hlen, -, hfresh, rfl⟩ := hadd
        have hnew : ∀ u ∈ q.updateDocs, u.docId ∉
            Rag.ids (List.zipWith StoredDocument.mk new q.createDocs) := by
          intro u hu hmem
          rw [ids_zipWith hlen] at hmem
          exact hfresh _ hmem (hq.known u hu)
        have hsettled : settled (s ++ List.zipWith StoredDocument.mk new q.createDocs)
            { q with createDocs := [], errors := e } = settled s q := by
          simp only [settled, replaceAll_append_of_notMem hnew, documents_append,
            documents_zipWith hlen, List.append_nil]
        rw [hsettled]
        exact hq.mirrors
      · obtain ⟨new, -, -, -, rfl⟩ := hadd
        intro u hu
        rw [ids_append]
        exact List.mem_append_left _ (hq.known u hu)
      · intro u hu y hy hid p hp
        rcases mem_added hadd hy with hy | ⟨-, hy⟩
        · exact hq.replaced u hu y hy hid p hp
        · exact absurd (hid ▸ hq.known u hu) hy
    · exact hf.elim
  · rename_i hn
    refine ⟨hq, rfl, fun h1 => List.length_eq_zero_iff.mp (by omega)⟩

lemma Queued.flushUpdates (n : ℕ) (hq : Queued A rest g s q) :
    Runs (indexService False) (fun q' s' => Queued A rest g s' q' ∧
      q'.createDocs = q.createDocs ∧ (n ≤ 1 → q'.updateDocs = []))
      (flushUpdates h n q) s := by
  unfold Git.flushUpdates updateDocumentsBatch
  split
  · simp only [ask_bind]
    intro a s' hs
    cases a with
    | ok u =>
      obtain rfl : s' = replaceAll q.updateDocs s := hs
      refine ⟨⟨by simpa using hq.ids, ?_, by simp, by simp, by simp, hq.creates⟩, rfl, fun _ => rfl⟩
      simpa [settled] using hq.mirrors
    | error m => exact hs.1.elim
  · rename_i hn
    exact ⟨hq, rfl, fun h1 => List.length_eq_zero_iff.mp (by omega)⟩

lemma Queued.flush (n : ℕ) (hq : Queued A rest g s q) :
    Runs (indexService False) (fun q' s' => Queued A rest g s' q' ∧
      (n ≤ 1 → q'.createDocs = [] ∧ q'.updateDocs = [])) (flush h n q) s := by
  refine (hq.flushCreates n).bind ?_
  rintro q1 s1 ⟨hq1, hu1, hc1⟩
  refine (hq1.flushUpdates n).bind ?_
  rintro q2 s2 ⟨hq2, hc2, hu2⟩
  have hsame : (flushDeletes n q2).createDocs = q2.createDocs ∧
      (flushDeletes n q2).updateDocs = q2.updateDocs := by
    unfold flushDeletes
    split <;> exact ⟨rfl, rfl⟩
  refine ⟨hq2.congr' hsame.1 hsame.2, fun hn => ?_⟩
  rw [hsame.1, hsame.2, hc2]
  exact ⟨hc1 hn, hu2 hn⟩

/-- The loop carries its changes into index and queues. -/
lemma indexDiffLoop_runs (items : List DiffItem)
    (hq : Queued h.autoindexerName (items.flatMap paths) g s q) (hn : (items.flatMap paths).Nodup)
    (hf : ∀ d ∈ items, Fits g (action h r c d)) :
    Runs (indexService False)
      (fun q' s' => Queued h.autoindexerName [] (carried h r c items g) s' q')
      (indexDiffLoop h r c items q) s := by
  induction items generalizing g q s with
  | nil => exact hq
  | cons d items ih =>
    rw [List.flatMap_cons] at hq
    rw [List.flatMap_cons, List.nodup_append'] at hn
    refine (queueItem_runs q d).bind ?_
    rintro ⟨q1, reached⟩ s1 ⟨rfl, ht⟩
    have hks : ∀ k ∈ paths d, k ∉ items.flatMap paths := fun k hk hk' => hn.2.2 hk hk'
    have hq1 := hq.turn hks (action_paths d) (hf d (by simp)) ht
    -- the changes to come are about other paths
    have hf1 : ∀ d' ∈ items, Fits (applied (action h r c d) g) (action h r c d') := by
      refine fun d' hd' => (hf d' (List.mem_cons_of_mem _ hd')).congr fun p hp => ?_
      refine (changesAt_paths d).frame g p fun hp' => hks p hp' ?_
      exact List.mem_flatMap.mpr ⟨d', hd', action_paths d' p hp⟩
    refine Runs.bind (Q := fun q' s' => Queued h.autoindexerName (items.flatMap paths)
      (applied (action h r c d) g) s' q') ?_ fun q2 s2 hq2 => ih hq2 hn.2.1 hf1
    split
    · exact (hq1.flush 10).mono fun q' s' hq' => hq'.1
    · exact hq1

/-! ### The table against the tree -/

/-- The run follows up a change: a file that has no text to be indexed any more had none
before, and a change of type changes no text. -/
def FollowedUp (h : GitHandler) (r : Remote) (t₁ t₂ : Tree) (d : DiffItem) : Prop :=
  match d.changeType with
  | .added => True
  | .modified => wanted h r t₂ d.filePath = none → wanted h r t₁ d.filePath = none
  | .deleted => wanted h r t₁ d.filePath = none
  | .renamed => wanted h r t₂ d.filePath = none → ∀ a, d.aPath = some a → wanted h r t₁ a = none
  | .typeChanged => wanted h r t₁ d.filePath = wanted h r t₂ d.filePath
  | .copied => True

lemma wanted_of_none {t : Tree} {p : String} (hp : t p = none) : wanted h r t p = none := by
  simp [wanted, hp]

/-- Every file of the tree can be read. -/
def Readable (c : Checkout) (t : Tree) : Prop := ∀ p, (t p).isSome → ∃ x, c.read p = .ok x

/-- What is read of a file of the tree is what is wanted of it. -/
lemma readText_eq_wanted {t : Tree} {p : String} (hc : Shows c t) (hr : Readable c t)
    (hp : (t p).isSome) (hs : shouldIndexFile h r p = true) : readText c p = wanted h r t p := by
  obtain ⟨x, hx⟩ := hr p hp
  simp [readText, readFileContent, hx, Except.toOption, wanted, hs, hc.read p x hp hx]

lemma fits_of_isChange {d : DiffItem} (hd : IsChange t₁ t₂ d) :
    Fits (wanted h r t₁) (action h r c d) := by
  unfold IsChange at hd
  unfold action
  split
  · trivial
  · generalize d.changeType = ct at hd ⊢
    cases ct with
    | added =>
      cases readText c d.filePath with
      | none => trivial
      | some x => exact wanted_of_none hd.1
    | modified =>
      cases readText c d.filePath with
      | none => trivial
      | some x => exact .inl rfl
    | renamed =>
      cases readText c d.filePath with
      | none => trivial
      | some x =>
        cases d.aPath.filter (· ≠ "") with
        | none => trivial
        | some a => exact .inr (wanted_of_none hd.1)
    | deleted => trivial
    | typeChanged => trivial
    | copied => trivial

/-- At the paths of a change, the table is as the new tree wants it just when the change is
followed up. -/
lemma applied_eq_wanted_iff {d : DiffItem} (hd : IsChange t₁ t₂ d) (hc : Shows c t₂)
    (hr : Readable c t₂) :
    (∀ p ∈ paths d, applied (action h r c d) (wanted h r t₁) p = wanted h r t₂ p) ↔
      FollowedUp h r t₁ t₂ d := by
  have hskip : ∀ t : Tree, shouldIndexFile h r d.filePath = false →
      wanted h r t d.filePath = none := fun t hs => by simp [wanted, hs]
  unfold IsChange at hd
  unfold FollowedUp paths action
  cases hct : d.changeType with
  | added =>
    simp only [hct] at hd
    cases hs : shouldIndexFile h r d.filePath with
    | false => simp [applied, hskip _ hs]
    | true =>
      rw [readText_eq_wanted hc hr hd.2 hs]
      cases hw : wanted h r t₂ d.filePath with
      | none => simp [applied, hw, wanted_of_none hd.1]
      | some x => simp [applied, hw]
  | modified =>
    simp only [hct] at hd
    cases hs : shouldIndexFile h r d.filePath with
    | false => simp [applied, hskip _ hs]
    | true =>
      rw [readText_eq_wanted hc hr hd.2 hs]
      cases hw : wanted h r t₂ d.filePath with
      | none => simp [applied, hw]
      | some x => simp [applied, hw]
  | deleted =>
    simp only [hct] at hd
    cases hs : shouldIndexFile h r d.filePath with
    | false => simp [applied, hskip _ hs]
    | true => simp [applied, wanted_of_none hd.2]
  | renamed =>
    simp only [hct] at hd
    obtain ⟨hold, hnew, a, ha, hane, -, hgone⟩ := hd
    have hpath : d.aPath.filter (· ≠ "") = some a := by simp [ha, hane]
    have hne : a ≠ d.filePath := by
      rintro rfl
      simp [hgone] at hnew
    simp only [hpath]
    simp only [ha, Option.toList_some, List.singleton_append, List.forall_mem_cons,
      Option.some.injEq, forall_eq']
    cases hs : shouldIndexFile h r d.filePath with
    | false => simp [applied, hskip _ hs, wanted_of_none hgone]
    | true =>
      rw [readText_eq_wanted hc hr hnew hs]
      cases hw : wanted h r t₂ d.filePath with
      | none => simp [applied, wanted_of_none hgone, wanted_of_none hold]
      | some x => simp [applied, wanted_of_none hgone, hne]
  | typeChanged => cases hs : shouldIndexFile h r d.filePath <;> simp [applied]
  | copied => simp [hct] at hd

/-- The table ends as the new tree wants it just when every change is followed up. -/
lemma carried_eq_wanted_iff {items : List DiffItem} (hd : DiffOf t₁ t₂ items) (hc : Shows c t₂)
    (hr : Readable c t₂) :
    carried h r c items (wanted h r t₁) = wanted h r t₂ ↔
      ∀ d ∈ items, FollowedUp h r t₁ t₂ d := by
  have hmem : ∀ d ∈ items, ∀ p ∈ paths d, carried h r c items (wanted h r t₁) p =
      applied (action h r c d) (wanted h r t₁) p := fun d hdi p hp =>
    foldl_changes_of_mem (fun d => changesAt_paths d) hd.nodup _ hdi hp
  constructor
  · intro hall d hdi
    refine (applied_eq_wanted_iff (hd.each d hdi) hc hr).mp fun p hp => ?_
    rw [← hmem d hdi p hp, hall]
  · intro hall
    funext p
    by_cases hp : p ∈ items.flatMap paths
    · obtain ⟨d, hdi, hpd⟩ := List.mem_flatMap.mp hp
      rw [hmem d hdi p hpd]
      exact (applied_eq_wanted_iff (hd.each d hdi) hc hr).mpr (hall d hdi) p hpd
    · have hsame : wanted h r t₁ p = wanted h r t₂ p := by simp [wanted, hd.same p hp]
      rw [← hsame]
      exact foldl_changes_of_notMem (fun d => changesAt_paths d) _ hp

/-- The documents mirror one table only. -/
lemma mirrors_iff_of_mirrors {f f' : String → Option String} {docs : List Document}
    (hm : Mirrors A f docs) : Mirrors A f' docs ↔ f = f' := by
  constructor
  · intro hm'
    funext p
    have hp : (f p).toList = (f' p).toList := (hm.atPath p).symm.trans (hm'.atPath p)
    exact Option.ext fun x => by rw [← Option.mem_toList, hp, Option.mem_toList]
  · rintro rfl
    exact hm

/-! ### The two runs -/

/-- An incremental run leaves the index as the diff carries it. -/
lemma indexDiffFiles_runs {items : List DiffItem} (hids : (Rag.ids s).Nodup)
    (hs : Mirrors h.autoindexerName (wanted h r t₁) (documents s))
    (hdiff : c.diff h.lastIndexedCommit = .ok items) (hd : DiffOf t₁ t₂ items)
    (errors : List String) :
    Runs (indexService False) (fun _ s' => Mirrors h.autoindexerName
      (carried h r c items (wanted h r t₁)) (documents s')) (indexDiffFiles h r c errors) s := by
  have hq : Queued h.autoindexerName (items.flatMap paths) (wanted h r t₁) s
      ⟨[], [], [], errors⟩ :=
    ⟨hids, by simpa [settled] using hs, by simp, by simp, by simp, by simp⟩
  simp only [indexDiffFiles, hdiff]
  refine (indexDiffLoop_runs items hq hd.nodup fun d hdi => fits_of_isChange (hd.each d hdi)).bind ?_
  intro q1 s1 hq1
  refine (hq1.flush 1).bind ?_
  rintro q2 s2 ⟨hq2, hempty⟩
  obtain ⟨hc, hu⟩ := hempty le_rfl
  simpa [settled, hc, hu] using hq2.mirrors

/-- A full run into an empty index mirrors what it reaches of the tree. -/
lemma indexAllFiles_runs_nil {t : Tree} (hc : Shows c t) (errors : List String) :
    Runs (indexService False) (fun _ s' => Mirrors h.autoindexerName (reached h r c t)
      (documents s')) (indexAllFiles h r c errors) [] := by
  refine (indexAllFiles_runs errors []).mono ?_
  rintro e s' (⟨-, hi⟩ | ⟨hf, -⟩)
  · obtain ⟨new, hnew, hm⟩ := texts_of_indexed hc hi
    rw [hnew]
    exact hm
  · exact hf.elim

lemma reached_eq_wanted_iff {t : Tree} (hr : Readable c t) :
    reached h r c t = wanted h r t ↔ ∀ p, (wanted h r t p).isSome → listed c p = true := by
  constructor
  · intro hall p hp
    by_contra hl
    simp [← hall, reached, hl] at hp
  · intro hall
    funext p
    cases hw : wanted h r t p with
    | none => simp [reached, hw]
    | some x =>
      have htree : (t p).isSome := by
        by_contra hno
        simp only [Bool.not_eq_true, Option.isSome_eq_false_iff, Option.isNone_iff_eq_none] at hno
        simp [wanted_of_none hno] at hw
      obtain ⟨y, hy⟩ := hr p htree
      simp [reached, hw, hall p (by simp [hw]), hy, Except.toOption]

/-- **From an index that mirrors the tree of the last run, with no failure, an incremental run
leaves the index mirroring the new tree, as a full run into an empty index does, if and only if
it follows up every change of the diff and the full run gets to every file.** -/
theorem indexDiffFiles_agrees_iff {items : List DiffItem} (hids : (Rag.ids s).Nodup)
    (hs : Mirrors h.autoindexerName (wanted h r t₁) (documents s)) (hc : Shows c t₂)
    (hr : Readable c t₂) (hdiff : c.diff h.lastIndexedCommit = .ok items)
    (hd : DiffOf t₁ t₂ items) (errors : List String) :
    Runs (indexService False) (fun _ s' =>
      Runs (indexService False) (fun _ s'' =>
        (Mirrors h.autoindexerName (wanted h r t₂) (documents s') ∧
          Mirrors h.autoindexerName (wanted h r t₂) (documents s'')) ↔
        (∀ d ∈ items, FollowedUp h r t₁ t₂ d) ∧
          ∀ p, (wanted h r t₂ p).isSome → listed c p = true)
        (indexAllFiles h r c errors) [])
      (indexDiffFiles h r c errors) s := by
  refine (indexDiffFiles_runs hids hs hdiff hd errors).mono fun _ s' hs' => ?_
  refine (indexAllFiles_runs_nil hc errors).mono fun _ s'' hs'' => and_congr ?_ ?_
  · rw [mirrors_iff_of_mirrors hs', carried_eq_wanted_iff hd hc hr]
  · rw [mirrors_iff_of_mirrors hs'', reached_eq_wanted_iff hr]

/-- Of the files `a.md` and `b.md`, the second was deleted since the last run. -/
def demoItem : DiffItem := ⟨.deleted, some "b.md", some "b.md"⟩

def demoOld : Tree := fun p => if p = "a.md" then some "A" else if p = "b.md" then some "B" else none

def demoStore : Store :=
  [⟨1, "A", [("autoindexer", "default_docs"), ("file_path", "a.md")]⟩,
    ⟨2, "B", [("autoindexer", "default_docs"), ("file_path", "b.md")]⟩]

lemma demo_mirrors :
    Mirrors "default_docs" (wanted demoHandler (demoRemote [demoItem]) demoOld) (documents demoStore) where
  owner := by decide
  atPath p := by
    by_cases ha : p = "a.md"
    · subst ha
      decide
    · by_cases hb : p = "b.md"
      · subst hb
        decide
      · have hnone : wanted demoHandler (demoRemote [demoItem]) demoOld p = none :=
          wanted_of_none (by simp [demoOld, ha, hb])
        have hpaths : ∀ d ∈ documents demoStore,
            d.filePath = some "a.md" ∨ d.filePath = some "b.md" := by decide
        rw [hnone]
        refine valuesAt_eq_nil_iff.mpr fun d hd hp => ?_
        rcases hpaths d hd with hd | hd
        · exact ha (Option.some.inj (hp.symm.trans hd))
        · exact hb (Option.some.inj (hp.symm.trans hd))
  noPath := by decide

lemma demo_readable : Readable (demoCheckout [demoItem]) demoTree := fun _ _ => ⟨"A", rfl⟩

lemma demo_diffOf : DiffOf demoOld demoTree [demoItem] where
  each := by
    rintro d hd
    obtain rfl := List.mem_singleton.mp hd
    exact ⟨by decide, by decide⟩
  nodup := by decide
  same := by
    intro p hp
    have hb : p ≠ "b.md" := by
      rintro rfl
      exact hp (by decide)
    simp [demoOld, demoTree, hb]

theorem indexDiffFiles_agrees_demo :
    Runs (indexService False) (fun _ s' =>
      Runs (indexService False) (fun _ s'' =>
        (Mirrors "default_docs" (wanted demoHandler (demoRemote [demoItem]) demoTree) (documents s') ∧
          Mirrors "default_docs" (wanted demoHandler (demoRemote [demoItem]) demoTree)
            (documents s'')) ↔
        (∀ d ∈ [demoItem], FollowedUp demoHandler (demoRemote [demoItem]) demoOld demoTree d) ∧
          ∀ p, (wanted demoHandler (demoRemote [demoItem]) demoTree p).isSome →
            listed (demoCheckout [demoItem]) p = true)
        (indexAllFiles demoHandler (demoRemote [demoItem]) (demoCheckout [demoItem]) []) [])
      (indexDiffFiles demoHandler (demoRemote [demoItem]) (demoCheckout [demoItem]) []) demoStore :=
  indexDiffFiles_agrees_iff (h := demoHandler) (s := demoStore) (by decide) demo_mirrors
    (demo_shows _) demo_readable rfl demo_diffOf []

/-- The document of a deleted file stays. -/
theorem not_indexDiffFiles_agrees :
    ¬ ∀ (h : GitHandler) (r : Remote) (c : Checkout) (t₁ t₂ : Tree) (items : List DiffItem)
      (s : Store), (Rag.ids s).Nodup → Mirrors h.autoindexerName (wanted h r t₁) (documents s) →
      Shows c t₂ → Readable c t₂ → c.diff h.lastIndexedCommit = .ok items → DiffOf t₁ t₂ items →
      Runs (indexService False) (fun _ s' =>
        Mirrors h.autoindexerName (wanted h r t₂) (documents s')) (indexDiffFiles h r c []) s := by
  intro hall
  have hrun := (hall demoHandler (demoRemote [demoItem]) (demoCheckout [demoItem]) demoOld demoTree _
    demoStore (by decide) demo_mirrors (demo_shows _) demo_readable rfl demo_diffOf).exec
    (indexService_indexServe False)
  exact absurd (hrun.atPath "b.md") (by decide)

end KaitoAutoIndexer.Incremental
