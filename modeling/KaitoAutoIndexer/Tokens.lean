import KaitoAutoIndexer.Manifests
import KaitoAutoIndexer.KustoHosts
import KaitoAutoIndexer.KustoQueries

/-!
The way of the credentials: from the spec through the variables of the generated pod to the provider
that the job asks for a token, and with the token into the URL that a repository is cloned from.
-/

namespace KaitoAutoIndexer.Tokens

open KaitoAutoIndexer.Types hiding AutoIndexer
open KaitoAutoIndexer.Admission KaitoAutoIndexer.Manifests
open KaitoAutoIndexer.Lib.Separated (cut cut_append cut_ne_nil intercalate_cut length_cut_eq_one_iff)
open KaitoAutoIndexer.KustoHosts (httpsScheme isHostEnd host)

/-! ### The environment of a job -/

/-- The variables of a process. -/
abbrev Environ := String → Option String

def Environ.set (env : Environ) (name value : String) : Environ :=
  fun n => if n = name then some value else env n

/-- The variables of a container over those of its image: a value, in which the kubelet expands what
begins with `$`, or a key of a secret. Without the secret the container does not start. -/
def containerEnv (expand : Environ → String → String) (secrets : SecretKeyRef → Option String) :
    List EnvVar → Environ → Option Environ
  | [], env => some env
  | v :: vars, env =>
    match v.valueFrom with
    | none => containerEnv expand secrets vars (env.set v.name (expand env v.value))
    | some r =>
      match secrets r with
      | some value => containerEnv expand secrets vars (env.set v.name value)
      | none => none

/-- `get_required_env_var`. -/
def getRequiredEnvVar (env : Environ) (varName : String) : Except String String :=
  match env varName with
  | some value =>
    if value = "" then .error ("Required environment variable '" ++ varName ++ "' is not set.")
    else .ok value
  | none => .error ("Required environment variable '" ++ varName ++ "' is not set.")

/-- The module `config`. -/
structure Config where
  namespace_ : String
  autoindexerName : String
  accessSecret : Option String
  deriving DecidableEq

def config (env : Environ) : Except String Config := do
  let namespace_ ← getRequiredEnvVar env "NAMESPACE"
  let name ← getRequiredEnvVar env "AUTOINDEXER_NAME"
  return ⟨namespace_, name, env "ACCESS_SECRET"⟩

/-! ### Providers -/

/-- A JSON object, as far as credentials are made of it. -/
inductive Json
  | str (s : String)
  | obj (fields : List (String × Json))

/-- `d.get(key)`. -/
def Json.get (j : Json) (key : String) : Option Json :=
  match j with
  | .str _ => none
  | .obj fields => fields.lookup key

/-- The value of a key that holds a string. -/
def Json.text (j : Json) (key : String) : Option String :=
  match j.get key with
  | some (.str s) => some s
  | _ => none

/-- A field that is left out where the pointer is nil. -/
def omitempty {α : Type} (key : String) (f : α → Json) (x : Option α) : List (String × Json) :=
  match x with
  | some a => [(key, f a)]
  | none => []

def azureJson (az : AzureWorkloadIdentity) : Json :=
  .obj [("serviceAccountName", .str az.serviceAccountName), ("scope", .str az.scope),
    ("clientID", .str az.clientID), ("tenantID", .str az.tenantID)]

/-- The credentials in the object that the API server gives to the job. -/
def credentialsJson (c : CredentialsSpec) : Json :=
  .obj ([("type", .str c.type)] ++
    omitempty "secretRef" (fun r => .obj [("name", .str r.name), ("key", .str r.key)]) c.secretRef ++
    omitempty "workloadIdentity" (fun w => .obj ([("cloudProvider", .str w.cloudProvider)] ++
      omitempty "azureWorkloadIdentity" azureJson w.azureWorkloadIdentity)) c.workloadIdentity)

inductive CredentialProvider
  /-- `SecretCredentialProvider`. -/
  | secret (token : String)
  /-- `AzureWorkloadIdentityProvider`. -/
  | azure (clientId tenantId tokenFilePath : Option String) (tokenScopes : List (List Char))
  deriving DecidableEq

/-- `x or y`, for strings that may be `None`. -/
def orElse (x y : Option String) : Option String :=
  match x with
  | some s => if s = "" then y else some s
  | none => y

/-- `AzureWorkloadIdentityProvider.__init__`. -/
def azureWorkloadIdentityProvider (env : Environ) (clientId tenantId : Option String) :
    CredentialProvider :=
  .azure (orElse clientId (env "AZURE_CLIENT_ID")) (orElse tenantId (env "AZURE_TENANT_ID"))
    (env "AZURE_FEDERATED_TOKEN_FILE") (((env "AZURE_TOKEN_SCOPE").getD "").toList.splitOn ',')

/-- `_create_credential_provider`. -/
def createCredentialProvider (env : Environ) (accessSecret : Option String)
    (credentialsConfig : Option Json) : Option CredentialProvider :=
  match credentialsConfig with
  | none => none
  | some c =>
    let credType := c.text "type"
    if credType = some "SecretRef" then
      match accessSecret with
      | some token => if token = "" then none else some (.secret token)
      | none => none
    else if credType = some "WorkloadIdentity" then
      let workloadIdentityConfig := (c.get "workloadIdentityRef").getD (.obj [])
      some (azureWorkloadIdentityProvider env (workloadIdentityConfig.text "clientID")
        (workloadIdentityConfig.text "tenantID"))
    else none

/-- The provider that a spec asks for. -/
def provider (secrets : SecretKeyRef → Option String) : Access → Option CredentialProvider
  | .anonymous => none
  | .secret r =>
    match secrets r with
    | some token => if token = "" then none else some (.secret token)
    | none => none
  | .azure az => some (.azure (some az.clientID) (some az.tenantID)
      (some "/var/run/secrets/azure/tokens/identity/token") (az.scope.toList.splitOn ','))

/-! ### From the spec to the provider -/

variable {p : Parsers} {a : AutoIndexer} {x : Access} {secrets : SecretKeyRef → Option String}
  {base env : Environ} {expand : Environ → String → String}

@[simp] lemma Environ.set_self (env : Environ) (name value : String) :
    env.set name value name = some value := if_pos rfl

/-- What the webhook asks of an Azure identity. -/
lemma azure_of_valid (h : Valid p a.spec) {az : AzureWorkloadIdentity} (hx : Grants a.spec (.azure az)) :
    az.clientID ≠ "" ∧ az.tenantID ≠ "" ∧ az.scope ≠ "" := by
  cases hx with
  | @azure c w _ hc ht hw hp haz =>
    have hne : ¬ credentialTypeWorkloadIdentity = credentialTypeSecretRef := by decide
    have hnonempty : ¬ credentialTypeWorkloadIdentity = "" := by decide
    have hprovider : ¬ cloudProviderAzure = "" := by decide
    have hvalid : azureValidate p (some az) = [] := by
      have hvalid := h.credentials c hc
      simpa only [CredentialsSpec.validate, ht, hne, hnonempty, hw, hp, hprovider, haz, if_false,
        if_true] using hvalid
    unfold azureValidate at hvalid
    dsimp only at hvalid
    split_ifs at hvalid with hclient htenant haccount hscope
    all_goals first
      | exact ⟨hclient, htenant, hscope⟩
      | cases hvalid

/-- The variables by which the job knows its AutoIndexer. -/
def named (a : AutoIndexer) (base : Environ) : Environ :=
  (base.set "NAMESPACE" a.namespace_).set "AUTOINDEXER_NAME" a.name

/-- The environment that the manifest gives to the job. -/
def jobEnv (secrets : SecretKeyRef → Option String) (a : AutoIndexer) (base : Environ) :
    Access → Option Environ
  | .anonymous => some (named a base)
  | .secret r => (secrets r).map fun value => (named a base).set "ACCESS_SECRET" value
  | .azure az => some (((((named a base).set "AZURE_CLIENT_ID" az.clientID).set "AZURE_TENANT_ID"
      az.tenantID).set "AZURE_TOKEN_SCOPE" az.scope).set "AZURE_FEDERATED_TOKEN_FILE"
        "/var/run/secrets/azure/tokens/identity/token")

/-- No text of the AutoIndexer that a variable is set to has a `$` in it. -/
structure WithoutDollar (a : AutoIndexer) : Prop where
  namespace_ : '$' ∉ a.namespace_.toList
  name : '$' ∉ a.name.toList
  azure : ∀ az, Grants a.spec (.azure az) →
    '$' ∉ az.clientID.toList ∧ '$' ∉ az.tenantID.toList ∧ '$' ∉ az.scope.toList

/-- What the kubelet is known for: a value without a `$` is left as it is. -/
def LeavesPlain (expand : Environ → String → String) : Prop :=
  ∀ env value, '$' ∉ value.toList → expand env value = value

lemma containerEnv_envVars (hexpand : LeavesPlain expand) (h : Valid p a.spec) (hplain : WithoutDollar a)
    (hx : Grants a.spec x) : containerEnv expand secrets (envVars a x) base = jobEnv secrets a base x := by
  have hns (env : Environ) : expand env a.namespace_ = a.namespace_ := hexpand env _ hplain.namespace_
  have hname (env : Environ) : expand env a.name = a.name := hexpand env _ hplain.name
  cases x with
  | anonymous =>
    simp only [envVars, List.append_nil, containerEnv, hns, hname]
    rfl
  | secret r =>
    simp only [envVars, List.cons_append, List.nil_append, containerEnv, jobEnv, hns, hname]
    cases secrets r <;> rfl
  | azure az =>
    obtain ⟨hclient, htenant, hscope⟩ := azure_of_valid h hx
    obtain ⟨hplainClient, hplainTenant, hplainScope⟩ := hplain.azure az hx
    have hfile (env : Environ) : expand env "/var/run/secrets/azure/tokens/identity/token" =
        "/var/run/secrets/azure/tokens/identity/token" := hexpand env _ (by decide)
    simp only [envVars, optionalVar, if_pos hclient, if_pos htenant, if_pos hscope, List.cons_append,
      List.nil_append, containerEnv, hns, hname, hexpand _ _ hplainClient, hexpand _ _ hplainTenant,
      hexpand _ _ hplainScope, hfile]
    rfl

/-- Every job knows the name of its AutoIndexer. -/
lemma jobEnv_named (h : jobEnv secrets a base x = some env) :
    env "NAMESPACE" = some a.namespace_ ∧ env "AUTOINDEXER_NAME" = some a.name := by
  cases x with
  | anonymous =>
    obtain rfl := Option.some.inj h
    exact ⟨rfl, rfl⟩
  | secret r =>
    obtain ⟨value, -, rfl⟩ := Option.map_eq_some_iff.mp h
    exact ⟨rfl, rfl⟩
  | azure az =>
    obtain rfl := Option.some.inj h
    exact ⟨rfl, rfl⟩

lemma getRequiredEnvVar_eq {name value : String} (h : env name = some value) (hne : value ≠ "") :
    getRequiredEnvVar env name = .ok value := by
  simp [getRequiredEnvVar, h, hne]

lemma config_jobEnv (hns : a.namespace_ ≠ "") (hname : a.name ≠ "")
    (h : jobEnv secrets a base x = some env) :
    config env = .ok ⟨a.namespace_, a.name, env "ACCESS_SECRET"⟩ := by
  obtain ⟨hspace, hindexer⟩ := jobEnv_named h
  unfold config
  rw [getRequiredEnvVar_eq hspace hns, getRequiredEnvVar_eq hindexer hname]
  rfl

lemma credentialsJson_type (c : CredentialsSpec) : (credentialsJson c).text "type" = some c.type := rfl

/-- The job looks for the identity under a name that the object does not have. -/
lemma credentialsJson_workloadIdentityRef (c : CredentialsSpec) :
    (credentialsJson c).get "workloadIdentityRef" = none := by
  simp only [credentialsJson, Json.get, omitempty]
  cases c.secretRef <;> cases c.workloadIdentity <;> rfl

/-- The job gets its provider from the variables of its pod. -/
lemma createCredentialProvider_jobEnv (hx : Grants a.spec x) (henv : jobEnv secrets a base x = some env) :
    createCredentialProvider env (env "ACCESS_SECRET") (a.spec.credentials.map credentialsJson) =
      provider secrets x := by
  cases hx with
  | anonymous h => rw [h]; rfl
  | @secret c r h ht hr =>
    simp only [jobEnv, Option.map_eq_some_iff] at henv
    obtain ⟨value, hvalue, rfl⟩ := henv
    rw [h, Option.map_some]
    simp only [createCredentialProvider, credentialsJson_type, ht, Environ.set_self, provider, hvalue]
    rfl
  | @azure c w az h ht hw hp haz =>
    have hne : ¬ some credentialTypeWorkloadIdentity = some "SecretRef" := by decide
    obtain rfl := Option.some.inj henv
    rw [h, Option.map_some]
    simp only [createCredentialProvider, credentialsJson_type, ht, hne, if_false,
      credentialsJson_workloadIdentityRef]
    rfl

/-- **The credentials arrive**: for every AutoIndexer that the webhook admits and that has no `$` in
the texts that become variables, whatever the image of its container sets. The pod does not start if
its secret is missing. If it starts, the job has the name of the AutoIndexer, and the provider that the
spec asks for. -/
theorem provider_of_valid {conf : JobConfig} {c : Container} (hexpand : LeavesPlain expand)
    (h : Valid p conf.autoIndexer.spec) (hplain : WithoutDollar conf.autoIndexer)
    (hns : conf.autoIndexer.namespace_ ≠ "") (hname : conf.autoIndexer.name ≠ "")
    (hc : generateIndexingContainer conf = .ok c) :
    ∃ x, Grants conf.autoIndexer.spec x ∧
      (containerEnv expand secrets c.env base = none ↔ ∃ r, x = .secret r ∧ secrets r = none) ∧
      ∀ env, containerEnv expand secrets c.env base = some env → ∃ cfg, config env = .ok cfg ∧
        cfg.namespace_ = conf.autoIndexer.namespace_ ∧ cfg.autoindexerName = conf.autoIndexer.name ∧
        createCredentialProvider env cfg.accessSecret
          (conf.autoIndexer.spec.credentials.map credentialsJson) = provider secrets x := by
  obtain ⟨x, hx⟩ := grants_of_valid h
  have hvars : c.env = envVars conf.autoIndexer x := by
    unfold generateIndexingContainer at hc
    rw [generateEnvironmentVariables_eq hx] at hc
    obtain rfl := Except.ok.inj hc
    rfl
  rw [hvars, containerEnv_envVars hexpand h hplain hx]
  refine ⟨x, hx, ?_, fun env henv => ⟨_, config_jobEnv hns hname henv, rfl, rfl, ?_⟩⟩
  · cases x with
    | anonymous => simp [jobEnv]
    | secret r => simp [jobEnv]
    | azure az => simp [jobEnv]
  · exact createCredentialProvider_jobEnv hx henv

lemma withoutDollar_federated : WithoutDollar federated where
  namespace_ := by decide
  name := by decide
  azure az h := by
    cases h with
    | azure hc _ hw _ haz =>
      obtain rfl := Option.some.inj hc
      obtain rfl := Option.some.inj hw
      obtain rfl := Option.some.inj haz
      decide

/-- The image sets no variables, there are no secrets, and there is nothing to expand. -/
theorem provider_of_valid_federated : ∃ c x,
    generateIndexingContainer (jobConfig federated "docs-job" "one-time-indexing" "image" "Always" none) =
      .ok c ∧ Grants federated.spec x ∧
      (containerEnv (fun _ value => value) (fun _ => none) c.env (fun _ => none) = none ↔
        ∃ r : SecretKeyRef, x = .secret r ∧ (none : Option String) = none) ∧
      ∀ env, containerEnv (fun _ value => value) (fun _ => none) c.env (fun _ => none) = some env →
        ∃ cfg, config env = .ok cfg ∧ cfg.namespace_ = "default" ∧ cfg.autoindexerName = "docs" ∧
          createCredentialProvider env cfg.accessSecret
            (federated.spec.credentials.map credentialsJson) = provider (fun _ => none) x := by
  obtain ⟨c, hc⟩ : ∃ c, generateIndexingContainer
      (jobConfig federated "docs-job" "one-time-indexing" "image" "Always" none) = .ok c := ⟨_, rfl⟩
  have hvalid : Valid uuidParsers federated.spec := validateCreate_eq_nil.mp (by decide)
  have hexpand : LeavesPlain fun _ value => value := fun _ _ _ => rfl
  refine ⟨c, ?_⟩
  obtain ⟨x, hx, hstart, hprovider⟩ := provider_of_valid hexpand hvalid
    withoutDollar_federated (by decide) (by decide) hc
  exact ⟨x, hc, hx, hstart, hprovider⟩

/-! ### The URL of a clone -/

/-- `s.replace(old, new)`. -/
def replace (old new s : List Char) : List Char :=
  new.intercalate (cut old s)

/-- The URL that `_setup_repository` clones from. -/
def cloneUrl (repository : List Char) (token : Option (List Char)) : List Char :=
  match token with
  | some token =>
    if httpsScheme <:+: repository then
      replace httpsScheme (httpsScheme ++ token ++ ['@']) repository
    else repository
  | none => repository

/-- The host of a URL, and its port: what stands between the user's name and the path. -/
def server (url : List Char) : Option (List Char) :=
  if httpsScheme <+: url then some ((host (url.drop httpsScheme.length)).rtakeWhile (· ≠ '@')) else none

variable {old new rest repository token : List Char}

lemma length_intercalate (sep : List Char) (pieces : List (List Char)) :
    (sep.intercalate pieces).length =
      (pieces.map List.length).sum + (pieces.length - 1) * sep.length := by
  match pieces with
  | [] => simp
  | [x] => simp
  | x :: y :: pieces =>
    have ih := length_intercalate sep (y :: pieces)
    rw [List.intercalate_cons_cons, List.length_append, List.length_append, ih]
    simp
    ring

lemma replace_append (hold : old ≠ []) :
    replace old new (old ++ rest) = new ++ replace old new rest := by
  rw [replace, cut_append hold, List.intercalate_cons_of_ne_nil (cut_ne_nil hold rest)]
  rfl

/-- A longer text in its place changes every text with the pattern. -/
lemma replace_eq_self_iff (hold : old ≠ []) (hlen : old.length < new.length) :
    replace old new rest = rest ↔ ¬ old <:+: rest := by
  have hrest := intercalate_cut hold rest
  rw [← length_cut_eq_one_iff hold]
  constructor
  · intro h
    have hlength := congrArg List.length (h.trans hrest.symm)
    unfold replace at hlength
    rw [length_intercalate, length_intercalate, Nat.add_left_cancel_iff] at hlength
    have hpos : 0 < (cut old rest).length := List.length_pos_iff.mpr (cut_ne_nil hold rest)
    rcases Nat.eq_zero_or_pos ((cut old rest).length - 1) with hzero | hmore
    · omega
    · exact absurd hlength (Nat.mul_lt_mul_of_pos_left hlen hmore).ne'
  · intro hone
    obtain ⟨x, hx⟩ := List.length_eq_one_iff.mp hone
    rw [hx] at hrest
    rw [replace, hx, List.intercalate_singleton]
    rwa [List.intercalate_singleton] at hrest

lemma rtakeWhile_user (user rest : List Char) :
    (user ++ '@' :: rest).rtakeWhile (· ≠ '@') = rest.rtakeWhile (· ≠ '@') := by
  unfold List.rtakeWhile
  rw [List.reverse_append, List.reverse_cons, List.append_assoc, List.takeWhile_append]
  split
  · rename_i h
    rw [(List.takeWhile_prefix _).eq_of_length h]
    simp
  · rfl

/-- A name in front of the host is not part of it. -/
lemma server_user (ht : ∀ c ∈ token, isHostEnd c = false) :
    server (httpsScheme ++ token ++ '@' :: rest) = server (httpsScheme ++ rest) := by
  have hhost : host (token ++ '@' :: rest) = token ++ '@' :: host rest := by
    unfold host
    rw [List.takeWhile_append_of_pos (by simpa using ht), List.takeWhile_cons_of_pos (by decide)]
  unfold server
  rw [List.append_assoc, if_pos (List.prefix_append ..), if_pos (List.prefix_append ..),
    List.drop_left, List.drop_left, hhost, rtakeWhile_user]

/-- **Where the token of a repository goes.** It stands in front of the host that the repository
names, over TLS, and nowhere else, if and only if the repository begins with `https://` and has it
nowhere else. -/
theorem token_in_place_iff (ht : ∀ c ∈ token, isHostEnd c = false) :
    (∃ rest, repository = httpsScheme ++ rest ∧
      cloneUrl repository (some token) = httpsScheme ++ token ++ '@' :: rest ∧
      server (cloneUrl repository (some token)) = server repository) ↔
    ∃ rest, repository = httpsScheme ++ rest ∧ ¬ httpsScheme <:+: rest := by
  have hscheme : httpsScheme ≠ [] := by decide
  have hlonger : httpsScheme.length < (httpsScheme ++ token ++ ['@']).length := by simp
  refine exists_congr fun rest => and_congr_right ?_
  rintro rfl
  have hclone : cloneUrl (httpsScheme ++ rest) (some token) =
      httpsScheme ++ token ++ ['@'] ++ replace httpsScheme (httpsScheme ++ token ++ ['@']) rest := by
    have hinfix : httpsScheme <:+: httpsScheme ++ rest := (List.prefix_append ..).isInfix
    rw [cloneUrl, if_pos hinfix, replace_append hscheme]
  rw [← replace_eq_self_iff hscheme hlonger, hclone]
  constructor
  · rintro ⟨h, -⟩
    simpa using h
  · intro h
    rw [h, List.append_assoc, List.singleton_append]
    exact ⟨rfl, server_user ht⟩

/-- A repository that is asked over TLS, and one behind a proxy that is not. -/
theorem token_in_place_proxied :
    (∃ rest, "https://host/repo".toList = httpsScheme ++ rest ∧
      cloneUrl "https://host/repo".toList (some "t0ken".toList) =
        httpsScheme ++ "t0ken".toList ++ '@' :: rest ∧
      server (cloneUrl "https://host/repo".toList (some "t0ken".toList)) =
        server "https://host/repo".toList) ∧
    ((∃ rest, "http://proxy/https://host/repo".toList = httpsScheme ++ rest ∧
      cloneUrl "http://proxy/https://host/repo".toList (some "t0ken".toList) =
        httpsScheme ++ "t0ken".toList ++ '@' :: rest ∧
      server (cloneUrl "http://proxy/https://host/repo".toList (some "t0ken".toList)) =
        server "http://proxy/https://host/repo".toList) ↔
    ∃ rest, "http://proxy/https://host/repo".toList = httpsScheme ++ rest ∧
      ¬ httpsScheme <:+: rest) := by
  have htoken : ∀ c ∈ "t0ken".toList, isHostEnd c = false := by simp [isHostEnd]
  refine ⟨(token_in_place_iff htoken).mpr ⟨"host/repo".toList, rfl, by decide⟩, ?_⟩
  exact token_in_place_iff htoken

/-- There the token is sent in the clear. -/
example : cloneUrl "http://proxy/https://host/repo".toList (some "t0ken".toList) =
    "http://proxy/https://t0ken@host/repo".toList := by decide

end KaitoAutoIndexer.Tokens
