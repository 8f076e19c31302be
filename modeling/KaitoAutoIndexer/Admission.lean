import KaitoAutoIndexer.Lib.Regex
import KaitoAutoIndexer.Types

/-!
The admission webhook: what it makes of the spec of an AutoIndexer. The spec is as it comes, with
any text in its enumerations and any of its pointers nil.
-/

namespace KaitoAutoIndexer.Admission

open KaitoAutoIndexer.Lib KaitoAutoIndexer.Types

/-! ### The spec -/

structure DataSourceSpec where
  type : String
  git : Option GitDataSource
  static : Option StaticDataSource
  database : Option DatabaseDataSource
  deriving DecidableEq

structure WorkloadIdentity where
  cloudProvider : String
  azureWorkloadIdentity : Option AzureWorkloadIdentity
  deriving DecidableEq

structure CredentialsSpec where
  type : String
  secretRef : Option SecretKeyRef
  workloadIdentity : Option WorkloadIdentity
  deriving DecidableEq

/-- `AutoIndexerSpec`; of the drift remediation policy it has the strategy. -/
structure AutoIndexerSpec where
  ragEngine : String
  indexName : String
  dataSource : DataSourceSpec
  credentials : Option CredentialsSpec
  schedule : Option String
  suspend : Option Bool
  driftRemediationPolicy : Option String
  deriving DecidableEq

def credentialTypeSecretRef : String := "SecretRef"

def credentialTypeWorkloadIdentity : String := "WorkloadIdentity"

def cloudProviderAzure : String := "Azure"

/-! ### Errors -/

/-- A Go program that goes through a nil pointer ends. -/
inductive Panic
  | nilPointer
  deriving DecidableEq

/-- What a pointer points to. -/
def deref {α : Type} : Option α → Except Panic α
  | some a => .ok a
  | none => .error .nilPointer

/-- `apis.FieldError`. -/
structure FieldError where
  message : String
  path : String
  deriving DecidableEq

/-- `*apis.FieldError` with all that `Also` has put together; nil is the empty list. -/
abbrev FieldErrors := List FieldError

def errMissingField (field : String) : FieldErrors := [⟨"missing field(s)", field⟩]

def errInvalidValue (value field : String) : FieldErrors := [⟨"invalid value: " ++ value, field⟩]

def viaField (field : String) (errs : FieldErrors) : FieldErrors :=
  errs.map fun e => { e with path := if e.path = "" then field else field ++ "." ++ e.path }

def viaFieldIndex (field : String) (i : ℕ) (errs : FieldErrors) : FieldErrors :=
  viaField (field ++ "[" ++ toString i ++ "]") errs

/-- `apis.URL`. -/
structure Url where
  scheme : String
  host : String

/-- The parsers of other packages: `apis.ParseURL`, which gives a pointer, and whether `uuid.Parse`
takes the text. -/
structure Parsers where
  parseURL : String → Except String (Option Url)
  parseUUID : String → Bool

variable (p : Parsers)

/-! ### Patterns -/

def isLowerAlnum (c : Char) : Bool := c.isLower || c.isDigit

def isPathChar (c : Char) : Bool := c.isAlphanum || c == '.' || c == '_' || c == '-'

def text (s : String) : Regex Char := .lit s.toList

/-- `^[a-z0-9]([a-z0-9\-]*[a-z0-9])?$` -/
def patIndexName : Regex Char :=
  .whole (.seq (.char isLowerAlnum)
    (.opt (.seq (.star (.char fun c => isLowerAlnum c || c == '-')) (.char isLowerAlnum))))

/-- `[a-zA-Z0-9._-]+` -/
def segment : Regex Char := .plus (.char isPathChar)

/-- `(/[a-zA-Z0-9._-]+)*` -/
def segments : Regex Char := .star (.seq (text "/") segment)

/-- `[a-zA-Z0-9]+` -/
def extension : Regex Char := .plus (.char Char.isAlphanum)

/-- `^([a-zA-Z0-9._-]+)(/[a-zA-Z0-9._-]+)*$` -/
def patSimple : Regex Char := .whole (.seq segment segments)

/-- `^(\*|\*\*/[a-zA-Z0-9._-]+|[a-zA-Z0-9._-]+/\*|[a-zA-Z0-9._-]+/\*\.[a-zA-Z0-9]+|\*\.[a-zA-Z0-9]+)$` -/
def patStar : Regex Char :=
  .whole (.oneOf (text "*") [.seq (text "**/") segment, .seq segment (text "/*"),
    .seqs [segment, text "/*.", extension], .seq (text "*.") extension])

/-- `^(\*\*/[a-zA-Z0-9._-]+(/[a-zA-Z0-9._-]+)*)$` -/
def patGlobstar : Regex Char := .whole (.seqs [text "**/", segment, segments])

/-- `^\*\*/\*\.[a-zA-Z0-9]+$` -/
def patGlobstarExt : Regex Char := .whole (.seq (text "**/*.") extension)

/-- `^([a-zA-Z0-9._-]+(/[a-zA-Z0-9._-]+)*)/\*\*$` -/
def patTrailingGlobstar : Regex Char := .whole (.seqs [segment, segments, text "/**"])

/-- `^([a-zA-Z0-9._-]+/)?\*\*/[a-zA-Z0-9._-]+(/[a-zA-Z0-9._-]+)*$` -/
def patMiddleGlobstar : Regex Char :=
  .whole (.seqs [.opt (.seq segment (text "/")), text "**/", segment, segments])

/-- `^([a-zA-Z0-9._-]+(/[a-zA-Z0-9._-]+)*)/\*\*/\*\.[a-zA-Z0-9]+$` -/
def patPrefixGlobstarExt : Regex Char :=
  .whole (.seqs [segment, segments, text "/**/*.", extension])

def isValidGitignorePattern (s : String) : Bool :=
  s ≠ "" && ([patSimple, patStar, patGlobstar, patGlobstarExt, patTrailingGlobstar,
    patMiddleGlobstar, patPrefixGlobstarExt].any fun r => r.test s.toList)

example : isValidGitignorePattern "docs/**/*.md" = true := by decide

/-! ### Validation -/

/-- The first pattern of a list, from `i` on, that is not valid. -/
def validatePatterns (field : String) (i : ℕ) : List String → FieldErrors
  | [] => []
  | s :: rest =>
    if isValidGitignorePattern s then validatePatterns field (i + 1) rest
    else viaFieldIndex field i (errInvalidValue s field)

def gitValidate (g : GitDataSource) : FieldErrors :=
  if g.repository = "" then errMissingField "repository"
  else if g.branch = "" then errMissingField "branch"
  else
    match validatePatterns "paths" 0 g.paths with
    | [] => validatePatterns "excludePaths" 0 g.excludePaths
    | errs => errs

/-- The first URL of a list, from `i` on, that does not parse, or has no scheme or no host. -/
def validateUrls (i : ℕ) : List String → Except Panic FieldErrors
  | [] => .ok []
  | url :: rest => do
    let invalid := viaFieldIndex "urls" i (errInvalidValue url "urls")
    match p.parseURL url with
    | .error _ => return invalid
    | .ok u =>
      let u ← deref u
      if u.scheme = "" ∨ u.host = "" then return invalid
      else validateUrls (i + 1) rest

def staticValidate (s : StaticDataSource) : Except Panic FieldErrors :=
  if s.urls = [] then .ok (errMissingField "urls") else validateUrls p 0 s.urls

def databaseValidate (d : DatabaseDataSource) : FieldErrors :=
  if d.language = "" then errMissingField "language"
  else if d.initialQuery = "" then errMissingField "initialQuery"
  else []

def DataSourceSpec.validate (ds : DataSourceSpec) : Except Panic FieldErrors :=
  if ds.type = "" then .ok (errMissingField "type")
  else if ds.type = "Git" then
    match ds.git with
    | none => .ok (errMissingField "git")
    | some g => .ok (gitValidate g)
  else if ds.type = "Static" then
    match ds.static with
    | none => .ok (errMissingField "static")
    | some s => staticValidate p s
  else if ds.type = "Database" then
    match ds.database with
    | none => .ok (errMissingField "database")
    | some d => .ok (databaseValidate d)
  else .ok (errInvalidValue ds.type "type")

/-- `AzureWorkloadIdentity.validate`, which takes a nil pointer. -/
def azureValidate : Option AzureWorkloadIdentity → FieldErrors
  | none => errMissingField ""
  | some az =>
    if az.clientID = "" then errMissingField "clientID"
    else if az.tenantID = "" then errMissingField "tenantID"
    else if az.serviceAccountName = "" then errMissingField "serviceAccountName"
    else if az.scope = "" then errMissingField "scope"
    else if p.parseUUID az.clientID = false then errInvalidValue az.clientID "clientID"
    else if p.parseUUID az.tenantID = false then errInvalidValue az.tenantID "tenantID"
    else []

def CredentialsSpec.validate (c : CredentialsSpec) : FieldErrors :=
  if c.type = "" then errMissingField "type"
  else if c.type = credentialTypeSecretRef then
    match c.secretRef with
    | none => errMissingField "secretRef"
    | some r => if r.name = "" ∨ r.key = "" then errMissingField "secretRef" else []
  else if c.type = credentialTypeWorkloadIdentity then
    match c.workloadIdentity with
    | none => errMissingField "workloadIdentity"
    | some w =>
      if w.cloudProvider = "" then errMissingField "cloudProvider"
      else if w.cloudProvider = cloudProviderAzure then azureValidate p w.azureWorkloadIdentity
      else errInvalidValue w.cloudProvider "cloudProvider"
  else errInvalidValue c.type "type"

/-- `DriftRemediationPolicy.validate`. -/
def policyValidate (strategy : String) : FieldErrors :=
  if strategy = "Auto" ∨ strategy = "Manual" ∨ strategy = "Ignore" then []
  else if strategy = "" then errMissingField "strategy"
  else errInvalidValue strategy "strategy"

/-- The webhook's check of the schedule: its first byte, and how many bytes it has. -/
def scheduleValidate (s : String) : FieldErrors :=
  if s = "" ∨ s.toList.head? = some '@' ∨ 5 ≤ s.utf8ByteSize then [] else errInvalidValue s "schedule"

def AutoIndexerSpec.validateCreate (s : AutoIndexerSpec) : Except Panic FieldErrors := do
  let ragEngine := if s.ragEngine = "" then errMissingField "ragEngine" else []
  let indexName :=
    if s.indexName = "" then errMissingField "indexName"
    else if patIndexName.test s.indexName.toList then []
    else errInvalidValue s.indexName "indexName"
  let dataSource ← s.dataSource.validate p
  let policy := (s.driftRemediationPolicy.map policyValidate).getD []
  let credentials := (s.credentials.map (·.validate p)).getD []
  let schedule := (s.schedule.map scheduleValidate).getD []
  return ragEngine ++ indexName ++ viaField "dataSource" dataSource ++
    viaField "driftRemediationPolicy" policy ++ viaField "credentials" credentials ++ schedule

/-- Any edit of the spec goes. -/
def AutoIndexerSpec.validateUpdate (_ _ : AutoIndexerSpec) : FieldErrors := []

/-- `AutoIndexer.Validate`; there is an old object when one is updated. -/
def AutoIndexerSpec.validate (base : Option AutoIndexerSpec) (s : AutoIndexerSpec) :
    Except Panic FieldErrors := do
  let errs ← s.validateCreate p
  match base with
  | none => return viaField "spec" errs
  | some old => return viaField "spec" errs ++ viaField "resource" (s.validateUpdate old)

/-! ### Stored objects -/

/-- The spec of a stored object, as the webhook sees it. -/
def apiDataSource (d : DataSource) : DataSourceSpec where
  type := match d.type with
    | .git => "Git"
    | .static => "Static"
    | .database => "Database"
  git := d.git
  static := d.static
  database := d.database

def apiCredentials (c : Credentials) : CredentialsSpec where
  type := match c.type with
    | .secretRef => credentialTypeSecretRef
    | .workloadIdentity => credentialTypeWorkloadIdentity
  secretRef := c.secretRef
  workloadIdentity := c.workloadIdentity.map fun az => ⟨cloudProviderAzure, az⟩

def apiStrategy : Strategy → String
  | .auto => "Auto"
  | .manual => "Manual"
  | .ignore => "Ignore"

def apiSpec (s : Spec) : AutoIndexerSpec where
  ragEngine := s.ragEngine
  indexName := s.indexName
  dataSource := apiDataSource s.dataSource
  credentials := s.credentials.map apiCredentials
  schedule := s.schedule
  suspend := s.suspend
  driftRemediationPolicy := s.driftRemediationPolicy.map apiStrategy

/-! ### What is admitted -/

/-- The checks of a spec that is admitted. -/
structure Valid (s : AutoIndexerSpec) : Prop where
  ragEngine : s.ragEngine ≠ ""
  indexName : s.indexName ≠ "" ∧ patIndexName.test s.indexName.toList = true
  dataSource : s.dataSource.validate p = .ok []
  policy : ∀ x, s.driftRemediationPolicy = some x → policyValidate x = []
  credentials : ∀ c, s.credentials = some c → c.validate p = []
  schedule : ∀ x, s.schedule = some x → scheduleValidate x = []

variable {p} {s : AutoIndexerSpec}

@[simp] lemma viaField_eq_nil {field : String} {errs : FieldErrors} :
    viaField field errs = [] ↔ errs = [] := List.map_eq_nil_iff

lemma getD_map_eq_nil {α : Type} {f : α → FieldErrors} {x : Option α} :
    (x.map f).getD [] = [] ↔ ∀ a, x = some a → f a = [] := by
  cases x <;> simp

/-- The check of a new object finds nothing if no part of it does. -/
theorem validateCreate_eq_nil : s.validateCreate p = .ok [] ↔ Valid p s := by
  unfold AutoIndexerSpec.validateCreate
  cases hds : s.dataSource.validate p with
  | error e =>
    refine iff_of_false (fun h => ?_) fun h => ?_
    · cases h
    · rw [h.dataSource] at hds
      cases hds
  | ok errs =>
    constructor
    · intro h
      have h := Except.ok.inj h
      simp only [List.append_eq_nil_iff, viaField_eq_nil, getD_map_eq_nil] at h
      obtain ⟨⟨⟨⟨⟨hrag, hindex⟩, hsource⟩, hpolicy⟩, hcred⟩, hsched⟩ := h
      refine ⟨?_, ?_, by rw [hds, hsource], hpolicy, hcred, hsched⟩
      · intro hempty
        simp [hempty, errMissingField] at hrag
      · split at hindex
        · cases hindex
        · rename_i hne
          split at hindex
          · rename_i htest
            exact ⟨hne, htest⟩
          · cases hindex
    · intro h
      have hsource : errs = [] := Except.ok.inj (hds.symm.trans h.dataSource)
      refine congrArg Except.ok ?_
      simp only [List.append_eq_nil_iff, viaField_eq_nil, getD_map_eq_nil]
      refine ⟨⟨⟨⟨⟨?_, ?_⟩, hsource⟩, h.policy⟩, h.credentials⟩, h.schedule⟩
      · rw [if_neg h.ragEngine]
      · rw [if_neg h.indexName.1, if_pos h.indexName.2]

/-- Edits are checked like new objects. -/
theorem validate_eq_nil {base : Option AutoIndexerSpec} : s.validate p base = .ok [] ↔ Valid p s := by
  rw [← validateCreate_eq_nil]
  unfold AutoIndexerSpec.validate
  cases s.validateCreate p with
  | error e => exact iff_of_false (fun h => by cases h) fun h => by cases h
  | ok errs =>
    cases base with
    | none =>
      constructor
      · intro h
        rw [viaField_eq_nil.mp (Except.ok.inj h)]
      · intro h
        exact congrArg Except.ok (viaField_eq_nil.mpr (Except.ok.inj h))
    | some old =>
      have hupdate : viaField "resource" (s.validateUpdate old) = [] := rfl
      constructor
      · intro h
        have h : viaField "spec" errs ++ viaField "resource" (s.validateUpdate old) = [] :=
          Except.ok.inj h
        rw [hupdate, List.append_nil] at h
        rw [viaField_eq_nil.mp h]
      · intro h
        refine congrArg Except.ok ?_
        rw [hupdate, List.append_nil]
        exact viaField_eq_nil.mpr (Except.ok.inj h)

/-! ### Index names -/

/-- The webhook's check of the index name. -/
def indexNameValidate (name : String) : FieldErrors :=
  if name = "" then errMissingField "indexName"
  else if patIndexName.test name.toList then []
  else errInvalidValue name "indexName"

/-- It is one of the checks of a new object. -/
lemma validateCreate_indexName : s.validateCreate p = do
    let ragEngine := if s.ragEngine = "" then errMissingField "ragEngine" else []
    let dataSource ← s.dataSource.validate p
    let policy := (s.driftRemediationPolicy.map policyValidate).getD []
    let credentials := (s.credentials.map (·.validate p)).getD []
    let schedule := (s.schedule.map scheduleValidate).getD []
    return ragEngine ++ indexNameValidate s.indexName ++ viaField "dataSource" dataSource ++
      viaField "driftRemediationPolicy" policy ++ viaField "credentials" credentials ++ schedule := rfl

/-- `^[a-z0-9][a-z0-9\-]*[a-z0-9]$`, the pattern of the schema. -/
def crdIndexName : Regex Char :=
  .whole (.seqs [.char isLowerAlnum, .star (.char fun c => isLowerAlnum c || c == '-'), .char isLowerAlnum])

def crdMinLength : ℕ := 1

/-- The schema takes the index name. -/
def CrdAccepts (name : String) : Prop := crdMinLength ≤ name.length ∧ Regex.Search crdIndexName name.toList

/-- A letter or digit at each end. -/
def Ends (l : List Char) : Prop :=
  ∃ a ms d, isLowerAlnum a = true ∧ (∀ m ∈ ms, (isLowerAlnum m || m == '-') = true) ∧
    isLowerAlnum d = true ∧ l = a :: (ms ++ [d])

lemma search_crdIndexName {l : List Char} : Regex.Search crdIndexName l ↔ Ends l := by
  rw [crdIndexName, Regex.search_whole]
  simp only [Regex.seqs, Regex.matches_seq, Regex.matches_star_char, Regex.matches_char, Regex.matches_eps]
  constructor
  · rintro ⟨_, _, rfl, ⟨a, ha, rfl⟩, ms, _, rfl, hms, _, _, rfl, ⟨d, hd, rfl⟩, rfl⟩
    exact ⟨a, ms, d, ha, hms, hd, by simp⟩
  · rintro ⟨a, ms, d, ha, hms, hd, rfl⟩
    exact ⟨[a], ms ++ [d], rfl, ⟨a, ha, rfl⟩, ms, [d], rfl, hms, [d], [], rfl, ⟨d, hd, rfl⟩, rfl⟩

/-- The webhook's pattern takes one letter or digit as well. -/
lemma search_patIndexName {l : List Char} :
    Regex.Search patIndexName l ↔ (∃ c, isLowerAlnum c = true ∧ l = [c]) ∨ Ends l := by
  rw [patIndexName, Regex.search_whole]
  simp only [Regex.opt, Regex.matches_seq, Regex.matches_alt, Regex.matches_star_char, Regex.matches_char,
    Regex.matches_eps]
  constructor
  · rintro ⟨_, _, rfl, ⟨a, ha, rfl⟩, ⟨ms, _, rfl, hms, d, hd, rfl⟩ | rfl⟩
    · exact .inr ⟨a, ms, d, ha, hms, hd, rfl⟩
    · exact .inl ⟨a, ha, rfl⟩
  · rintro (⟨c, hc, rfl⟩ | ⟨a, ms, d, ha, hms, hd, rfl⟩)
    · exact ⟨[c], [], rfl, ⟨c, hc, rfl⟩, .inr rfl⟩
    · exact ⟨[a], ms ++ [d], rfl, ⟨a, ha, rfl⟩, .inl ⟨ms, [d], rfl, hms, d, hd, rfl⟩⟩

lemma Ends.two_le {l : List Char} (h : Ends l) : 2 ≤ l.length := by
  obtain ⟨a, ms, d, -, -, -, rfl⟩ := h
  simp

lemma indexNameValidate_eq_nil {name : String} :
    indexNameValidate name = [] ↔ Regex.Search patIndexName name.toList := by
  unfold indexNameValidate
  by_cases hempty : name = ""
  · rw [if_pos hempty, hempty]
    refine iff_of_false (List.cons_ne_nil _ _) fun h => ?_
    rcases search_patIndexName.mp h with ⟨c, -, hc⟩ | h
    · cases hc
    · exact absurd h.two_le (by decide)
  · rw [if_neg hempty, ← Regex.test_eq_true]
    by_cases htest : patIndexName.test name.toList = true
    · rw [if_pos htest]
      exact iff_of_true rfl htest
    · rw [if_neg htest]
      exact iff_of_false (List.cons_ne_nil _ _) htest

lemma crdAccepts_iff {name : String} : CrdAccepts name ↔ Ends name.toList := by
  rw [CrdAccepts, search_crdIndexName]
  refine and_iff_right_of_imp fun h => ?_
  have hlen := h.two_le
  rw [String.length_toList] at hlen
  exact le_trans (by decide) hlen

/-- **Where the two checks agree**: on every name but those of one letter or digit. -/
theorem indexName_agree_iff (name : String) :
    (indexNameValidate name = [] ↔ CrdAccepts name) ↔ ¬ ∃ c, isLowerAlnum c = true ∧ name.toList = [c] := by
  rw [indexNameValidate_eq_nil, search_patIndexName, crdAccepts_iff]
  by_cases hone : ∃ c, isLowerAlnum c = true ∧ name.toList = [c]
  · have hnot : ¬ Ends name.toList := by
      intro hends
      obtain ⟨c, -, hc⟩ := hone
      have hlen := hends.two_le
      rw [hc] at hlen
      exact absurd hlen (by simp)
    exact iff_of_false (fun h => hnot (h.mp (.inl hone))) (not_not.mpr hone)
  · exact iff_of_true (or_iff_right hone) hone

theorem not_indexName_agree : ¬ ∀ name, indexNameValidate name = [] ↔ CrdAccepts name := by
  intro h
  have hcrd : CrdAccepts "a" := (h "a").mp (by decide)
  have hends := (crdAccepts_iff.mp hcrd).two_le
  exact absurd hends (by decide)

end KaitoAutoIndexer.Admission
