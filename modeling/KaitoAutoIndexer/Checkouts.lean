import KaitoAutoIndexer.GitSpec
import KaitoAutoIndexer.JobSteps

/-!
What a Git run works on: the files that the walk selects, compared with those that the diff
selects, and the branch that is checked out.
-/

namespace KaitoAutoIndexer.Checkouts

open KaitoAutoIndexer.Lib KaitoAutoIndexer.Types
open KaitoAutoIndexer.Rag KaitoAutoIndexer.JobClient KaitoAutoIndexer.Git KaitoAutoIndexer.Job
open KaitoAutoIndexer.GitSpec KaitoAutoIndexer.GitCalls
open KaitoAutoIndexer.JobSteps (obeys_createBaseStatusUpdate)

variable {h : GitHandler} {r : Remote} {c : Checkout}

/-! ### Joined paths -/

/-- A text without the separator cannot lie across it. -/
lemma infix_joined {α : Type} {sep : α} {l x y : List α} (hl : sep ∉ l) :
    l <:+: x ++ sep :: y ↔ l <:+: x ∨ l <:+: y := by
  rw [List.infix_append_iff, List.infix_cons_iff]
  constructor
  · rintro (hx | (hp | hy) | ⟨l₁, l₂, rfl, hx, hp⟩)
    · exact .inl hx
    · cases l with
      | nil => exact .inl (List.nil_infix)
      | cons a l =>
        obtain ⟨rfl, -⟩ := List.cons_prefix_cons.mp hp
        exact absurd List.mem_cons_self hl
    · exact .inr hy
    · cases l₂ with
      | nil =>
        rw [List.append_nil]
        exact .inl hx.isInfix
      | cons a l₂ =>
        obtain ⟨rfl, -⟩ := List.cons_prefix_cons.mp hp
        exact absurd (List.mem_append_right _ List.mem_cons_self) hl
  · rintro (hx | hy)
    · exact .inl hx
    · exact .inr (.inl (.inr hy))

lemma contains_git_root (hwork : Text.contains c.workDir ".git" = false) (dir : String) :
    Text.contains (root c dir) ".git" = Text.contains dir ".git" := by
  unfold root
  split
  · rename_i hdir
    rw [hwork, hdir]
    decide
  · have hsep : '/' ∉ ".git".toList := by decide
    have hjoin : Text.contains (c.workDir ++ "/" ++ dir) ".git" = true ↔
        Text.contains c.workDir ".git" = true ∨ Text.contains dir ".git" = true := by
      simp only [Text.contains, decide_eq_true_eq, String.toList_append, List.append_assoc]
      exact infix_joined hsep
    rw [hwork, or_iff_right Bool.false_ne_true] at hjoin
    exact Bool.eq_iff_iff.mpr hjoin

/-- What stands before the last separator. -/
lemma eq_of_joined {α : Type} {sep : α} {x x' y y' : List α} (hy : sep ∉ y) (hy' : sep ∉ y')
    (h : x ++ sep :: y = x' ++ sep :: y') : x = x' := by
  rcases List.append_eq_append_iff.mp h with ⟨z, hx, hz⟩ | ⟨z, hx, hz⟩
  · cases z with
    | nil => simpa using hx.symm
    | cons a z =>
      obtain ⟨rfl, rfl⟩ := List.cons.inj hz
      simp at hy
  · cases z with
    | nil => simpa using hx
    | cons a z =>
      obtain ⟨rfl, rfl⟩ := List.cons.inj hz
      simp at hy'

/-- The directory of a file can be read off its path. -/
lemma dir_eq_of_joinPath {dir dir' name name' : String} (hn : '/' ∉ name.toList)
    (hn' : '/' ∉ name'.toList) (h : joinPath dir name = joinPath dir' name') : dir = dir' := by
  unfold joinPath at h
  split at h <;> rename_i hd <;> split at h <;> rename_i hd'
  · rw [hd, hd']
  · subst h
    simp at hn
  · subst h
    simp at hn'
  · have hlist := congrArg String.toList h
    simp only [String.toList_append, List.append_assoc] at hlist
    exact String.toList_inj.mp (eq_of_joined hn hn' hlist)

/-! ### The walk and the diff -/

/-- The names in the walk are names of files. -/
def Named (c : Checkout) : Prop := ∀ d ∈ c.walk, ∀ name ∈ d.2, '/' ∉ name.toList

/-- Outside Git's own directory the walk selects the files that the diff selects. -/
def SelectsAlike (h : GitHandler) (r : Remote) (c : Checkout) : Prop :=
  ∀ p ∈ c.files, (Text.pathParts p).head? ≠ some ".git".toList →
    (p ∈ getRepositoryFiles h r c ↔ shouldIndexFile h r p = true)

/-- A file with a good name is walked to unless its directory has `.git` in its path. -/
lemma listed_joinPath (hwork : Text.contains c.workDir ".git" = false) (hc : Named c)
    {d : String × List String} (hd : d ∈ c.walk) {name : String} (hname : name ∈ d.2) :
    listed c (joinPath d.1 name) = true ↔ Text.contains d.1 ".git" = false := by
  simp only [listed, List.any_eq_true, Bool.and_eq_true, List.contains_iff_mem,
    Bool.not_eq_true', contains_git_root hwork]
  constructor
  · rintro ⟨d', hd', hgit, hmem⟩
    obtain ⟨name', hname', heq⟩ := List.mem_map.mp hmem
    rwa [dir_eq_of_joinPath (hc d' hd' name' hname') (hc d hd name hname) heq] at hgit
  · intro hgit
    exact ⟨d, hd, hgit, List.mem_map_of_mem hname⟩

/-- The walk and the diff select the same files exactly if no directory of a file that the diff
selects has `.git` in its path. -/
theorem selectsAlike_iff (hwork : Text.contains c.workDir ".git" = false) (hc : Named c) :
    SelectsAlike h r c ↔ ∀ d ∈ c.walk, ∀ name ∈ d.2,
      shouldIndexFile h r (joinPath d.1 name) = true → Text.contains d.1 ".git" = false := by
  constructor
  · intro hsame d hd name hname hs
    have hmem : joinPath d.1 name ∈ c.files :=
      List.mem_flatMap.mpr ⟨d, hd, List.mem_map_of_mem hname⟩
    have hsel := (hsame _ hmem (head_ne_git_of_shouldIndexFile hs)).mpr hs
    exact (listed_joinPath hwork hc hd hname).mp (mem_getRepositoryFiles.mp hsel).1
  · intro hdirs p hp _
    obtain ⟨d, hd, hmem⟩ := List.mem_flatMap.mp hp
    obtain ⟨name, hname, rfl⟩ := List.mem_map.mp hmem
    rw [mem_getRepositoryFiles]
    refine ⟨fun hsel => hsel.2, fun hs => ⟨?_, hs⟩⟩
    exact (listed_joinPath hwork hc hd hname).mpr (hdirs d hd name hname hs)

/-- A repository with a directory that is called `my.gitrepo`. -/
def demoNested : Checkout := { demoCheckout [] with walk := [("my.gitrepo", ["a.md"])] }

lemma demoNested_named : Named demoNested := by
  intro d hd name hname
  simp only [demoNested, List.mem_singleton] at hd
  subst hd
  obtain rfl := List.mem_singleton.mp hname
  decide

lemma demoNested_selected : shouldIndexFile demoHandler (demoRemote []) "my.gitrepo/a.md" = true := by
  decide

theorem selectsAlike_iff_demo :
    SelectsAlike demoHandler (demoRemote []) demoNested ↔ ∀ d ∈ demoNested.walk, ∀ name ∈ d.2,
      shouldIndexFile demoHandler (demoRemote []) (joinPath d.1 name) = true →
        Text.contains d.1 ".git" = false :=
  selectsAlike_iff (by decide) demoNested_named

/-- The walk leaves out a file that the diff selects. -/
theorem not_selectsAlike : ¬ ∀ (h : GitHandler) (r : Remote) (c : Checkout),
    Text.contains c.workDir ".git" = false → Named c → SelectsAlike h r c := by
  intro hall
  have hsame := hall demoHandler (demoRemote []) demoNested (by decide) demoNested_named
  have hmem : "my.gitrepo/a.md" ∈ demoNested.files := by decide
  have hsel := (hsame _ hmem (by decide)).mpr demoNested_selected
  have hwalk : getRepositoryFiles demoHandler (demoRemote []) demoNested = [] := by decide
  rw [hwalk] at hsel
  cases hsel

/-! ### The branch -/

/-- A repository: its branches with what is checked out at their tips, and the default one. -/
structure Repository where
  branches : String → Option Checkout
  default : String

/-- The tip of the branch that a configuration names; `HEAD` names the default branch. -/
def Repository.tip (R : Repository) (branch : String) : Option Checkout :=
  if branch = "HEAD" then R.branches R.default else R.branches branch

/-- The remote serves the repository: a clone has the default branch checked out, and a commit has a
hash. What the checkout of a name ends at is open: a path or a tag may have the name of a branch. -/
structure Hosts (r : Remote) (R : Repository) : Prop where
  clone : ∀ c, r.clone = .ok c → R.branches R.default = some c
  hash : ∀ b c, R.branches b = some c → c.head ≠ ""

variable {R : Repository}

/-- What is indexed, and the status update after it. -/
def indexRun (h : GitHandler) (r : Remote) : Py Outcome := do
  let out ← h.updateIndex r
  (Handler.git h).updateAutoindexerStatus out
  pure out

/-- The document has the text of a file of the checkout, its commit, and the branch of the
handler. -/
structure MadeOf (h : GitHandler) (c : Checkout) (d : Document) : Prop where
  text : ∃ p, d.filePath = some p ∧ c.read p = .ok d.text
  branch : d.metadata.lookup "branch" = some h.branch
  commit : d.metadata.lookup "commit" = some c.head

/-- What the call indexes, or stores as the last indexed commit, belongs to the checkout. -/
def BelongsTo (h : GitHandler) (c : Checkout) : JobCall → Prop
  | .rag _ (.indexDocuments docs) => ∀ d ∈ docs, MadeOf h c d
  | .rag _ (.updateDocuments us) => ∀ u ∈ us, MadeOf h c u.doc
  | .patchStatus b => b.status.lastIndexedCommit = some c.head
  | _ => True

/-- The calls so far, with one more. -/
def logged (log : List JobCall) (c : JobCall) (_ : JobAnswer c) : List JobCall := log ++ [c]

/-- The names for which `_setup_repository` leaves the clone as it is. -/
def kept : List String := ["main", "master", "HEAD"]

/-- A run works on the tip of the configured branch or fails, one without errors indexes and stores
what belongs to it, and a branch that cannot be checked out is an error. -/
structure IndexesTip (R : Repository) (h : GitHandler) (r : Remote) : Prop where
  reads : ∀ c, setupRepository h r = .ok c → R.tip h.branch = some c
  run : Tells logged (fun _ _ => True) (fun out log => out.returned = [] →
    ∃ c, R.tip h.branch = some c ∧ ∀ x ∈ log, BelongsTo h c x) (indexRun h r) []
  fails : h.branch ∉ kept → ∀ e, r.checkout h.branch = .error e → ∃ e', setupRepository h r = .error e'

lemma read_of_readText {p x : String} (hx : readText c p = some x) : c.read p = .ok x := by
  obtain ⟨hread, -⟩ := Option.filter_eq_some_iff.mp hx
  unfold readFileContent at hread
  cases hc : c.read p with
  | error e => simp [hc, Except.toOption] at hread
  | ok y => simpa [hc, Except.toOption] using hread

lemma obeys_createDocument {p x : String} (hx : readText c p = some x) (changeType : String) :
    Obeys (BelongsTo h c) (MadeOf h c) (createDocument h c p x changeType) := by
  refine ⟨trivial, fun t => ⟨⟨p, ?_, read_of_readText hx⟩, ?_, ?_⟩⟩
  · simp [Document.filePath, List.lookup]
  · simp [List.lookup]
  · simp [List.lookup]

lemma belongsTo_permits (h : GitHandler) (c : Checkout) :
    Permits (BelongsTo h c) (MadeOf h c) h c where
  now := trivial
  looks := fun _ => trivial
  indexes := fun _ hd => hd
  updates := fun _ hu => hu
  made := fun _ _ changeType hx => obeys_createDocument hx changeType

/-- The status update is one patch, with the commit of the run. -/
lemma obeys_updateAutoindexerStatus {φ : JobCall → Prop} {out : Outcome} (hnow : φ .now)
    (hget : φ .getAutoIndexer)
    (hlist : φ (.rag h.target (.listDocuments [("autoindexer", h.autoindexerName)] 1)))
    (hpatch : ∀ (o : AutoIndexer) (u : StatusUpdate), φ (.patchStatus (o.withStatus
      (StatusUpdate.apply { u with lastIndexedCommit := out.commitHash.filter (· ≠ "") } o.status)))) :
    Obeys φ (fun _ => True) ((Handler.git h).updateAutoindexerStatus out) := by
  refine (obeys_createBaseStatusUpdate hnow hget hlist _ _).bind fun u _ => ?_
  cases u with
  | none => trivial
  | some u =>
    have hupdate : Obeys φ (fun _ => True) (JobClient.updateAutoindexerStatus
        { u with lastIndexedCommit := out.commitHash.filter (· ≠ "") }) := by
      refine ⟨hget, fun a => ?_⟩
      match a with
      | .error .notFound => trivial
      | .error .conflict => trivial
      | .error (.other m) => trivial
      | .ok current => exact ⟨hpatch current u, fun a => by cases a <;> trivial⟩
    exact hupdate.bind fun _ _ => trivial

/-- Run on a checkout, the handler makes calls that belong to it. -/
lemma obeys_indexRun (hsetup : setupRepository h r = .ok c) (hc : c.head ≠ "") :
    Obeys (BelongsTo h c) (fun _ => True) (indexRun h r) := by
  have hpermits : ∀ c', setupRepository h r = .ok c' → Permits (BelongsTo h c) (MadeOf h c) h c' := by
    intro c' hc'
    obtain rfl : c = c' := Except.ok.inj (hsetup.symm.trans hc')
    exact belongsTo_permits h c
  refine (obeys_updateIndex trivial hpermits).bind fun out hout => ?_
  have hcommit : out.commitHash = some c.head := by
    rcases hout with ⟨c', hc', hcommit⟩ | ⟨⟨e, he⟩, -⟩
    · rw [hcommit, Except.ok.inj (hsetup.symm.trans hc')]
    · rw [he] at hsetup
      cases hsetup
  have hpatch : ∀ (o : AutoIndexer) (u : StatusUpdate), BelongsTo h c (.patchStatus (o.withStatus
      (StatusUpdate.apply { u with lastIndexedCommit := out.commitHash.filter (· ≠ "") }
        o.status))) := by
    intro o u
    simp [BelongsTo, AutoIndexer.withStatus, StatusUpdate.apply, hcommit, hc]
  exact (obeys_updateAutoindexerStatus trivial trivial trivial hpatch).bind fun _ _ => trivial

/-- Run without a checkout, the handler reports errors. -/
lemma returned_of_error {e : String} (hsetup : setupRepository h r = .error e) :
    Obeys (fun _ => True) (fun out => out.returned ≠ []) (indexRun h r) := by
  have hupdate : Obeys (fun _ => True) (fun out => out.returned ≠ []) (h.updateIndex r) := by
    refine (obeys_updateIndex (D := fun _ => True) trivial ?_).mono (fun _ h => h) ?_
    · intro c hc
      rw [hsetup] at hc
      cases hc
    · rintro out (⟨c, hc, -⟩ | ⟨-, hout⟩)
      · rw [hsetup] at hc
        cases hc
      · exact hout
  refine hupdate.bind fun out hout => ?_
  exact (obeys_updateAutoindexerStatus trivial trivial trivial fun _ _ => trivial).bind fun _ _ => hout

/-- A run makes calls that belong to what is checked out, or reports errors. -/
lemma indexRun_tells (hhash : ∀ c, setupRepository h r = .ok c → c.head ≠ "") :
    Tells logged (fun _ _ => True) (fun out log => out.returned = [] →
      ∃ c, setupRepository h r = .ok c ∧ ∀ x ∈ log, BelongsTo h c x) (indexRun h r) [] := by
  cases hsetup : setupRepository h r with
  | error e =>
    have hfails : Tells logged (fun _ _ => True) (fun out _ => out.returned ≠ [] ∧ True)
        (indexRun h r) [] :=
      (returned_of_error hsetup).tells (fun _ _ _ _ => trivial) (fun _ _ _ _ h => h) trivial
    exact hfails.mono (fun _ _ h => h) fun out log hq hno => absurd hno hq.1
  | ok c =>
    have hcalls : Tells logged (fun _ _ => True) (fun _ log => True ∧ ∀ x ∈ log, BelongsTo h c x)
        (indexRun h r) [] :=
      (obeys_indexRun hsetup (hhash c hsetup)).tells (fun _ _ _ _ => trivial)
        (fun log x _ hx hlog => forall_snoc hlog hx) (List.forall_mem_nil _)
    exact hcalls.mono (fun _ _ h => h) fun out log hq _ => ⟨c, rfl, hq.2⟩

/-! ### What is checked out -/

/-- The repository leads a run to the tip of the branch: what is cloned is the tip already, where
the name is kept, and the checkout of the name ends at the tip, where it is not. -/
def Leads (R : Repository) (r : Remote) (branch : String) : Prop :=
  if branch ∈ kept then R.tip branch = R.branches R.default
  else ∃ c, r.checkout branch = .ok c ∧ R.branches branch = some (r.pulled c)

lemma setupRepository_of_kept (hpin : h.commit.filter (· ≠ "") = none) (hclone : r.clone = .ok c)
    (hb : h.branch ∈ kept) : setupRepository h r = .ok c := by
  have hkept : ¬ h.branch ∉ ["main", "master", "HEAD"] := not_not.mpr hb
  simp only [setupRepository, hclone, hpin, if_neg hkept]

lemma setupRepository_of_not_kept (hpin : h.commit.filter (· ≠ "") = none)
    (hclone : r.clone = .ok c) (hb : h.branch ∉ kept) :
    setupRepository h r = .ok (checkoutBranch h r c) := by
  have hkept : h.branch ∉ ["main", "master", "HEAD"] := hb
  simp only [setupRepository, hclone, hpin, if_pos hkept]

lemma tip_of_not_kept {b : String} (hb : b ∉ kept) : R.tip b = R.branches b := by
  have hhead : b ≠ "HEAD" := by
    rintro rfl
    exact hb (by decide)
  rw [Repository.tip, if_neg hhead]

/-- What is checked out is the tip of the configured branch, and no failing checkout is passed over,
exactly if the repository leads there. -/
lemma setup_tip_iff (hr : Hosts r R) (hpin : h.commit.filter (· ≠ "") = none) {c₀ : Checkout}
    (hclone : r.clone = .ok c₀) :
    ((∀ c, setupRepository h r = .ok c → R.tip h.branch = some c) ∧
      (h.branch ∉ kept → ∀ e, r.checkout h.branch = .error e →
        ∃ e', setupRepository h r = .error e')) ↔ Leads R r h.branch := by
  unfold Leads
  split
  · rename_i hb
    rw [setupRepository_of_kept hpin hclone hb, hr.clone c₀ hclone]
    constructor
    · rintro ⟨htip, -⟩
      exact htip c₀ rfl
    · intro htip
      exact ⟨fun c hc => by rw [htip, Except.ok.inj hc], fun hkept => absurd hb hkept⟩
  · rename_i hb
    rw [setupRepository_of_not_kept hpin hclone hb, tip_of_not_kept hb, checkoutBranch]
    cases hcheckout : r.checkout h.branch with
    | error e =>
      constructor
      · rintro ⟨-, hfails⟩
        obtain ⟨e', he'⟩ := hfails hb e rfl
        cases he'
      · rintro ⟨c, hc, -⟩
        cases hc
    | ok c =>
      constructor
      · rintro ⟨htip, -⟩
        exact ⟨c, rfl, htip (r.pulled c) rfl⟩
      · rintro ⟨c', hc', htip⟩
        obtain rfl := Except.ok.inj hc'
        refine ⟨fun c' hc' => by rw [htip, ← Except.ok.inj hc'], fun _ e he => ?_⟩
        cases he

/-- With no commit pinned, a run indexes and stores the tip of the configured branch, or fails,
exactly if the clone fails or the repository leads there. -/
theorem indexesTip_iff (hr : Hosts r R) (hpin : h.commit.filter (· ≠ "") = none) :
    IndexesTip R h r ↔ (∃ e, r.clone = .error e) ∨ Leads R r h.branch := by
  cases hclone : r.clone with
  | error e =>
    have hsetup : setupRepository h r =
        .error ("Failed to clone repository " ++ h.repository ++ ": " ++ e) := by
      simp only [setupRepository, hclone]
    refine iff_of_true ⟨fun c hc => ?_, ?_, fun _ _ _ => ⟨_, hsetup⟩⟩ (.inl ⟨e, rfl⟩)
    · rw [hsetup] at hc
      cases hc
    · have hhash : ∀ c, setupRepository h r = .ok c → c.head ≠ "" := by
        intro c hc
        rw [hsetup] at hc
        cases hc
      refine (indexRun_tells hhash).mono (fun _ _ h => h) fun out log hrun hno => ?_
      obtain ⟨c, hc, -⟩ := hrun hno
      rw [hsetup] at hc
      cases hc
  | ok c₀ =>
    have hclones : ¬ ∃ e, (Except.ok c₀ : Except String Checkout) = .error e := by
      rintro ⟨e, he⟩
      cases he
    rw [or_iff_right hclones, ← setup_tip_iff hr hpin hclone]
    constructor
    · intro htip
      exact ⟨htip.reads, htip.fails⟩
    · intro ⟨hreads, hfails⟩
      have hhash : ∀ c, setupRepository h r = .ok c → c.head ≠ "" := by
        intro c hc
        have htip := hreads c hc
        unfold Repository.tip at htip
        split at htip
        · exact hr.hash _ c htip
        · exact hr.hash _ c htip
      refine ⟨hreads, (indexRun_tells hhash).mono (fun _ _ h => h) fun out log hrun hno => ?_, hfails⟩
      obtain ⟨c, hc, hlog⟩ := hrun hno
      exact ⟨c, hreads c hc, hlog⟩

/-- What is checked out at the tip of the branch `docs`. -/
def demoDocs : Checkout := { demoCheckout [] with head := "docs tip" }

/-- A repository with the branches `trunk`, `docs` and `guide`. -/
def demoRepository : Repository where
  branches := fun b => if b = "trunk" then some (demoCheckout []) else
    if b = "docs" ∨ b = "guide" then some demoDocs else none
  default := "trunk"

/-- It is served. The default branch has a directory `guide`, so that the name alone does not say
what to check out. -/
def demoHost : Remote where
  clone := .ok (demoCheckout [])
  checkout := fun b => if b = "trunk" then .ok (demoCheckout []) else
    if b = "docs" then .ok demoDocs else
    if b = "guide" then .error "'guide' could be both a local file and a tracking branch" else
    .error "pathspec did not match"
  pull := .ok
  matchesAny := fun _ _ => false

lemma demo_hosts : Hosts demoHost demoRepository where
  clone := by
    rintro c ⟨⟩
    rfl
  hash := by
    intro b c hc
    simp only [demoRepository] at hc
    split at hc
    · obtain rfl := Option.some.inj hc
      decide
    · split at hc
      · obtain rfl := Option.some.inj hc
        decide
      · cases hc

def demoBranch (branch : String) : GitHandler := { demoHandler with branch := branch }

lemma demo_leads : Leads demoRepository demoHost "docs" := ⟨demoDocs, rfl, rfl⟩

lemma demo_not_leads {branch e : String} (hb : branch ∉ kept)
    (hcheckout : demoHost.checkout branch = .error e) : ¬ Leads demoRepository demoHost branch := by
  rw [Leads, if_neg hb, hcheckout]
  rintro ⟨c, hc, -⟩
  cases hc

/-- The tip of `docs` is indexed; neither `feature`, which does not exist, nor `guide` is. -/
theorem indexesTip_iff_demo : IndexesTip demoRepository (demoBranch "docs") demoHost ∧
    ¬ IndexesTip demoRepository (demoBranch "feature") demoHost ∧
    ¬ IndexesTip demoRepository (demoBranch "guide") demoHost := by
  have hclone : ¬ ∃ e, demoHost.clone = .error e := by
    rintro ⟨e, he⟩
    cases he
  refine ⟨?_, ?_, ?_⟩
  · exact (indexesTip_iff demo_hosts rfl).mpr (.inr demo_leads)
  · exact fun htip => ((indexesTip_iff demo_hosts rfl).mp htip).elim hclone
      (demo_not_leads (by decide) rfl)
  · exact fun htip => ((indexesTip_iff demo_hosts rfl).mp htip).elim hclone
      (demo_not_leads (by decide) rfl)

/-- A run without errors indexes the default branch in the name of another one. -/
theorem not_indexesTip : ¬ ∀ (R : Repository) (h : GitHandler) (r : Remote), Hosts r R →
    h.commit.filter (· ≠ "") = none → IndexesTip R h r := by
  intro hall
  have htip := (hall demoRepository (demoBranch "feature") demoHost demo_hosts rfl).run
  have hresult : Tells logged (fun _ _ => True) (fun out _ => out.returned = [] →
      (demoRepository.tip "feature").isSome = true) (indexRun (demoBranch "feature") demoHost) [] := by
    refine htip.mono (fun _ _ h => h) fun out log hrun hno => ?_
    obtain ⟨c, hc, -⟩ := hrun hno
    exact Option.isSome_iff_exists.mpr ⟨c, hc⟩
  have hexec := (hresult.result (S := indexService True) (w := [])).exec
    (indexService_indexServe True)
  have hnone : (demoRepository.tip "feature").isSome = false := by decide
  rw [hnone] at hexec
  exact Bool.false_ne_true (hexec rfl)

end KaitoAutoIndexer.Checkouts
