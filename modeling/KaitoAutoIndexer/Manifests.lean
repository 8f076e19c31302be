import KaitoAutoIndexer.Admission
import KaitoAutoIndexer.Controller

/-!
The manifests that are generated for an AutoIndexer: the Job and the CronJob with their pod, and
the service account of the pod with its role. The generators go through pointers that may be nil.
-/

namespace KaitoAutoIndexer.Manifests

open KaitoAutoIndexer.Types KaitoAutoIndexer.Admission

/-! ### Objects -/

/-- An AutoIndexer, as far as the generators read it. -/
structure AutoIndexer where
  name : String
  namespace_ : String
  uid : String
  spec : AutoIndexerSpec

abbrev Labels := List (String × String)

structure OwnerReference where
  apiVersion : String
  kind : String
  name : String
  uid : String
  controller : Bool
  blockOwnerDeletion : Bool
  deriving DecidableEq

structure ObjectMeta where
  name : String
  namespace_ : String
  labels : Labels
  annotations : Labels
  ownerReferences : List OwnerReference
  deriving DecidableEq

structure EnvVar where
  name : String
  value : String
  valueFrom : Option SecretKeyRef
  deriving DecidableEq

structure VolumeMount where
  name : String
  mountPath : String
  readOnly : Bool
  deriving DecidableEq

structure ServiceAccountTokenProjection where
  audience : String
  expirationSeconds : ℕ
  path : String
  deriving DecidableEq

/-- A projected volume with its sources. -/
structure Volume where
  name : String
  projected : List ServiceAccountTokenProjection
  deriving DecidableEq

structure ResourceRequirements where
  limits : Labels
  requests : Labels
  deriving DecidableEq

structure Container where
  name : String
  image : String
  imagePullPolicy : String
  resources : ResourceRequirements
  env : List EnvVar
  command : List String
  args : List String
  volumeMounts : List VolumeMount
  deriving DecidableEq

/-- `PodTemplateSpec`. -/
structure Pod where
  labels : Labels
  annotations : Labels
  restartPolicy : String
  containers : List Container
  serviceAccountName : String
  volumes : List Volume
  deriving DecidableEq

structure Job where
  metadata : ObjectMeta
  pod : Pod
  deriving DecidableEq

structure CronJob where
  metadata : ObjectMeta
  schedule : String
  concurrencyPolicy : String
  suspend : Option Bool
  jobTemplate : Job
  successfulJobsHistoryLimit : ℕ
  failedJobsHistoryLimit : ℕ
  deriving DecidableEq

structure ServiceAccount where
  metadata : ObjectMeta
  deriving DecidableEq

structure PolicyRule where
  apiGroups : List String
  resources : List String
  verbs : List String
  resourceNames : List String
  deriving DecidableEq

structure Role where
  metadata : ObjectMeta
  rules : List PolicyRule
  deriving DecidableEq

structure Subject where
  kind : String
  name : String
  namespace_ : String
  deriving DecidableEq

structure RoleRef where
  kind : String
  name : String
  apiGroup : String
  deriving DecidableEq

structure RoleBinding where
  metadata : ObjectMeta
  subjects : List Subject
  roleRef : RoleRef
  deriving DecidableEq

structure JobConfig where
  autoIndexer : AutoIndexer
  jobName : String
  jobType : String
  image : String
  resourceLimits : Option ResourceRequirements
  imagePullPolicy : String
  serviceAccountName : String

/-! ### Credentials -/

/-- The pointer to the Azure part of the credentials, where they are a workload identity of Azure:
the guard that the generators share. -/
def azureIdentity (s : AutoIndexerSpec) : Option (Option AzureWorkloadIdentity) :=
  match s.credentials with
  | some c =>
    if c.type = credentialTypeWorkloadIdentity then
      match c.workloadIdentity with
      | some w => if w.cloudProvider = cloudProviderAzure then some w.azureWorkloadIdentity else none
      | none => none
    else none
  | none => none

/-- A variable that is only set when it has a value. -/
def optionalVar (name value : String) : List EnvVar := if value ≠ "" then [⟨name, value, none⟩] else []

def envFederatedTokenFile : String := "AZURE_FEDERATED_TOKEN_FILE"

def envAccessSecret : String := "ACCESS_SECRET"

def generateEnvironmentVariables (a : AutoIndexer) : Except Panic (List EnvVar) := do
  let envVars : List EnvVar :=
    [⟨"NAMESPACE", a.namespace_, none⟩, ⟨"AUTOINDEXER_NAME", a.name, none⟩]
  match a.spec.credentials with
  | none => return envVars
  | some c =>
    if c.type = credentialTypeSecretRef then
      let r ← deref c.secretRef
      return envVars ++ [⟨envAccessSecret, "", some r⟩]
    else
      match azureIdentity a.spec with
      | none => return envVars
      | some az =>
        let az ← deref az
        return envVars ++ optionalVar "AZURE_CLIENT_ID" az.clientID ++
          optionalVar "AZURE_TENANT_ID" az.tenantID ++ optionalVar "AZURE_TOKEN_SCOPE" az.scope ++
          [⟨envFederatedTokenFile, "/var/run/secrets/azure/tokens/identity/token", none⟩]

def generateVolumeMounts (a : AutoIndexer) : List VolumeMount :=
  if (azureIdentity a.spec).isSome then
    [⟨"azure-identity-token", "/var/run/secrets/azure/tokens", true⟩]
  else []

def generateVolumeDefinitions (a : AutoIndexer) : List Volume :=
  if (azureIdentity a.spec).isSome then
    [⟨"azure-identity-token", [⟨"api://AzureADTokenExchange", 3600, "identity/token"⟩]⟩]
  else []

/-- `GenerateServiceAccountName`. -/
def generateServiceAccountName (a : AutoIndexer) : String :=
  match (azureIdentity a.spec).join with
  | some az => if az.serviceAccountName ≠ "" then az.serviceAccountName else a.name ++ "-job-sa"
  | none => a.name ++ "-job-sa"

def generateRoleName (a : AutoIndexer) : String := a.name ++ "-job-access"

def generateRoleBindingName (a : AutoIndexer) : String := a.name ++ "-job-access-binding"

/-! ### Jobs -/

def labelAutoIndexerName : String := "autoindexer.kaito.sh/name"

def labelAutoIndexerNamespace : String := "autoindexer.kaito.sh/namespace"

def getJobLabels (a : AutoIndexer) : Labels :=
  let jobType := if a.spec.schedule.any (· ≠ "") then "scheduled" else "one-time"
  [(labelAutoIndexerName, a.name), (labelAutoIndexerNamespace, a.namespace_),
    ("autoindexer.kaito.sh/job-type", jobType),
    ("autoindexer.kaito.sh/datasource-type", a.spec.dataSource.type)]

def getJobSpecAnnotations (a : AutoIndexer) : Labels :=
  if (azureIdentity a.spec).isSome then [("azure.workload.identity/use", "true")] else []

def getResourceRequirements (limits : Option ResourceRequirements) : ResourceRequirements :=
  limits.getD ⟨[], [("cpu", "100m"), ("memory", "256Mi")]⟩

/-- `metav1.NewControllerRef` of an AutoIndexer. -/
def controllerRef (a : AutoIndexer) : OwnerReference :=
  ⟨"autoindexer.kaito.sh/v1alpha1", "AutoIndexer", a.name, a.uid, true, true⟩

def generateIndexingContainer (config : JobConfig) : Except Panic Container := do
  let env ← generateEnvironmentVariables config.autoIndexer
  return {
    name := "autoindexer"
    image := if config.image = "" then "mcr.microsoft.com/oss/kaito/autoindexer:latest" else config.image
    imagePullPolicy := config.imagePullPolicy
    resources := getResourceRequirements config.resourceLimits
    env := env
    command := ["python"]
    args := ["main.py", "--mode=index"]
    volumeMounts := generateVolumeMounts config.autoIndexer }

section

-- eight hexadecimal digits of the SHA-256 of the spec as JSON
variable (generateSpecHash : AutoIndexerSpec → String)

/-- The metadata of a Job or a CronJob. -/
def jobMeta (config : JobConfig) : ObjectMeta where
  name := config.jobName
  namespace_ := config.autoIndexer.namespace_
  labels := getJobLabels config.autoIndexer
  annotations := [("autoindexer.kaito.sh/spec-hash", generateSpecHash config.autoIndexer.spec)]
  ownerReferences := [controllerRef config.autoIndexer]

def generateIndexingJobManifest (config : JobConfig) : Except Panic Job := do
  let container ← generateIndexingContainer config
  return {
    metadata := jobMeta generateSpecHash config
    pod :=
      { labels := getJobLabels config.autoIndexer
        annotations := getJobSpecAnnotations config.autoIndexer
        restartPolicy := "OnFailure"
        containers := [container]
        serviceAccountName := config.serviceAccountName
        volumes := generateVolumeDefinitions config.autoIndexer } }

/-- Without a schedule there is none. -/
def generateIndexingCronJobManifest (config : JobConfig) : Except Panic (Option CronJob) :=
  match config.autoIndexer.spec.schedule with
  | none => return none
  | some schedule => do
    let jobTemplate ← generateIndexingJobManifest generateSpecHash
      { config with jobName := "", jobType := "" }
    return some {
      metadata := jobMeta generateSpecHash config
      schedule := schedule
      concurrencyPolicy := "Forbid"
      suspend := config.autoIndexer.spec.suspend
      jobTemplate := jobTemplate
      successfulJobsHistoryLimit := 3
      failedJobsHistoryLimit := 1 }

end

/-! ### Access -/

/-- The metadata of the objects that give the pod its access. -/
def accessMeta (a : AutoIndexer) (name : String) (annotations : Labels) : ObjectMeta where
  name := name
  namespace_ := a.namespace_
  labels := [(labelAutoIndexerName, a.name), (labelAutoIndexerNamespace, a.namespace_)]
  annotations := annotations
  ownerReferences := [controllerRef a]

def generateServiceAccountManifest (a : AutoIndexer) : ServiceAccount where
  metadata := accessMeta a (generateServiceAccountName a) <|
    match (azureIdentity a.spec).join with
    | some az => [("azure.workload.identity/client-id", az.clientID),
        ("azure.workload.identity/tenant-id", az.tenantID)]
    | none => []

def generateRoleManifest (a : AutoIndexer) : Role where
  metadata := accessMeta a (generateRoleName a) []
  rules :=
    [⟨["autoindexer.kaito.sh"], ["autoindexers", "autoindexers/status"],
      ["get", "list", "watch", "update", "patch"], [a.name]⟩,
     ⟨[""], ["events"], ["create"], []⟩]

def generateRoleBindingManifest (a : AutoIndexer) : RoleBinding where
  metadata := accessMeta a (generateRoleBindingName a) []
  subjects := [⟨"ServiceAccount", generateServiceAccountName a, a.namespace_⟩]
  roleRef := ⟨"Role", generateRoleName a, "rbac.authorization.k8s.io"⟩

/-! ### The objects of the controller -/

/-- A stored AutoIndexer, as the generators see it. -/
def apiObject (o : Types.AutoIndexer) : AutoIndexer := ⟨o.name, o.namespace_, o.uid, apiSpec o.spec⟩

variable (o : Types.AutoIndexer)

lemma azureIdentity_apiSpec : (azureIdentity (apiSpec o.spec)).join = Controller.azureIdentity o := by
  unfold azureIdentity Controller.azureIdentity apiSpec
  cases o.spec.credentials with
  | none => rfl
  | some c =>
    obtain ⟨type, secretRef, workloadIdentity⟩ := c
    cases type with
    | secretRef => rfl
    | workloadIdentity => cases workloadIdentity <;> rfl

lemma generateServiceAccountName_apiObject :
    generateServiceAccountName (apiObject o) = Controller.generateServiceAccountName o := by
  have haz : (azureIdentity (apiObject o).spec).join = Controller.azureIdentity o :=
    azureIdentity_apiSpec o
  unfold generateServiceAccountName Controller.generateServiceAccountName
  rw [haz]
  rfl

/-- A generated object, as far as the controller compares it with the stored one. -/
def asChild (kind : Cluster.ChildKind) (m : ObjectMeta) (body : Cluster.Body) : Cluster.Child where
  kind := kind
  name := m.name
  owners := m.ownerReferences.map OwnerReference.uid
  labels := m.labels
  body := body

theorem serviceAccount_asChild :
    asChild .serviceAccount (generateServiceAccountManifest (apiObject o)).metadata
      (.serviceAccount (generateServiceAccountManifest (apiObject o)).metadata.annotations) =
      Controller.generateServiceAccountManifest o := by
  have haz : (azureIdentity (apiObject o).spec).join = Controller.azureIdentity o :=
    azureIdentity_apiSpec o
  simp only [asChild, generateServiceAccountManifest, accessMeta, generateServiceAccountName_apiObject,
    haz, Controller.generateServiceAccountManifest]
  rfl

theorem role_asChild :
    asChild .role (generateRoleManifest (apiObject o)).metadata
      (.role ((generateRoleManifest (apiObject o)).rules.flatMap PolicyRule.resourceNames)) =
      Controller.generateRoleManifest o := rfl

theorem roleBinding_asChild :
    (generateRoleBindingManifest (apiObject o)).subjects.map (fun s =>
      asChild .roleBinding (generateRoleBindingManifest (apiObject o)).metadata
        (.roleBinding s.name (generateRoleBindingManifest (apiObject o)).roleRef.name)) =
      [Controller.generateRoleBindingManifest o] := by
  simp only [generateRoleBindingManifest, generateServiceAccountName_apiObject]
  rfl

/-! ### What the generators rely on -/

/-- How a pod comes to its data source. -/
inductive Access
  | anonymous
  | secret (r : SecretKeyRef)
  | azure (az : AzureWorkloadIdentity)

/-- The spec has credentials of this kind, with all that belongs to it. -/
inductive Grants (s : AutoIndexerSpec) : Access → Prop
  | anonymous (h : s.credentials = none) : Grants s .anonymous
  | secret {c : CredentialsSpec} {r : SecretKeyRef} (h : s.credentials = some c)
      (ht : c.type = credentialTypeSecretRef) (hr : c.secretRef = some r) : Grants s (.secret r)
  | azure {c : CredentialsSpec} {w : WorkloadIdentity} {az : AzureWorkloadIdentity}
      (h : s.credentials = some c) (ht : c.type = credentialTypeWorkloadIdentity)
      (hw : c.workloadIdentity = some w) (hp : w.cloudProvider = cloudProviderAzure)
      (haz : w.azureWorkloadIdentity = some az) : Grants s (.azure az)

variable {p : Parsers} {s : AutoIndexerSpec} {a : AutoIndexer} {x : Access}

/-- The webhook makes sure of it. -/
lemma grants_of_valid (h : Valid p s) : ∃ x, Grants s x := by
  cases hc : s.credentials with
  | none => exact ⟨_, .anonymous hc⟩
  | some c =>
    have hvalid := h.credentials c hc
    unfold CredentialsSpec.validate at hvalid
    split at hvalid
    · cases hvalid
    split at hvalid
    · rename_i ht
      split at hvalid
      · cases hvalid
      · rename_i r hr
        exact ⟨_, .secret hc ht hr⟩
    split at hvalid
    · rename_i ht
      split at hvalid
      · cases hvalid
      · rename_i w hw
        split at hvalid
        · cases hvalid
        split at hvalid
        · rename_i hp
          cases haz : w.azureWorkloadIdentity with
          | none =>
            rw [haz] at hvalid
            cases hvalid
          | some az => exact ⟨_, .azure hc ht hw hp haz⟩
        · cases hvalid
    · cases hvalid

lemma azureIdentity_of_grants (h : Grants s x) : azureIdentity s = match x with
    | .azure az => some (some az)
    | _ => none := by
  cases h with
  | anonymous h => simp [azureIdentity, h]
  | secret h ht =>
    have hne : ¬ credentialTypeSecretRef = credentialTypeWorkloadIdentity := by decide
    simp [azureIdentity, h, ht, hne]
  | azure h ht hw hp haz => simp [azureIdentity, h, ht, hw, hp, haz]

/-- The variables of the container. -/
def envVars (a : AutoIndexer) (x : Access) : List EnvVar :=
  [⟨"NAMESPACE", a.namespace_, none⟩, ⟨"AUTOINDEXER_NAME", a.name, none⟩] ++
    match x with
    | .anonymous => []
    | .secret r => [⟨envAccessSecret, "", some r⟩]
    | .azure az => optionalVar "AZURE_CLIENT_ID" az.clientID ++
        optionalVar "AZURE_TENANT_ID" az.tenantID ++ optionalVar "AZURE_TOKEN_SCOPE" az.scope ++
        [⟨envFederatedTokenFile, "/var/run/secrets/azure/tokens/identity/token", none⟩]

lemma generateEnvironmentVariables_eq (h : Grants a.spec x) :
    generateEnvironmentVariables a = .ok (envVars a x) := by
  have haz := azureIdentity_of_grants h
  unfold generateEnvironmentVariables
  cases h with
  | anonymous h => simp only [h]; rfl
  | secret h ht hr => simp only [h, ht, hr, if_true]; rfl
  | azure h ht hw hp haz' =>
    have hne : ¬ credentialTypeWorkloadIdentity = credentialTypeSecretRef := by decide
    simp only [h, ht, haz, if_neg hne, envVars, ← List.append_assoc]
    rfl

/-! ### How the manifests fit together -/

/-- The namespace and the labels by which `getJobStatus` lists the Jobs of an AutoIndexer. -/
def getJobStatusSelector (a : AutoIndexer) : String × Labels :=
  (a.namespace_, [("autoindexer.kaito.sh/name", a.name)])

def autoIndexerNameLabel : String := "autoindexer.kaito.sh/name"

/-- Those by which `garbageCollectAutoIndexer` does. -/
def garbageCollectSelector (a : AutoIndexer) : String × Labels :=
  (a.namespace_, [(autoIndexerNameLabel, a.name)])

def Selects (selector : String × Labels) (namespace_ : String) (labels : Labels) : Prop :=
  selector.1 = namespace_ ∧ ∀ l ∈ selector.2, labels.lookup l.1 = some l.2

/-- In both listings these labels are those of this AutoIndexer, and of no other. -/
def LabelsFit (a : AutoIndexer) (labels : Labels) : Prop :=
  ∀ b : AutoIndexer,
    (Selects (getJobStatusSelector b) a.namespace_ labels ↔
      b.namespace_ = a.namespace_ ∧ b.name = a.name) ∧
    (Selects (garbageCollectSelector b) a.namespace_ labels ↔
      b.namespace_ = a.namespace_ ∧ b.name = a.name)

/-- The mount shows the token of a service account. -/
def MountsToken (volumes : List Volume) (m : VolumeMount) : Prop :=
  ∃ v ∈ volumes, v.name = m.name ∧ v.projected ≠ []

structure ContainerFits (a : AutoIndexer) (volumes : List Volume) (c : Container) : Prop where
  mounts : ∀ m ∈ c.volumeMounts, ∃ v ∈ volumes, v.name = m.name
  tokenFile : (∃ e ∈ c.env, e.name = envFederatedTokenFile) ↔ ∃ m ∈ c.volumeMounts, MountsToken volumes m
  tokenPath : ∀ e ∈ c.env, e.name = envFederatedTokenFile → ∀ m ∈ c.volumeMounts, ∀ v ∈ volumes,
    v.name = m.name → ∀ t ∈ v.projected, e.value = m.mountPath ++ "/" ++ t.path
  accessSecret : (∃ e ∈ c.env, e.name = envAccessSecret) ↔
    ∃ cred, a.spec.credentials = some cred ∧ cred.type = credentialTypeSecretRef
  secretRef : ∀ e ∈ c.env, e.name = envAccessSecret → e.valueFrom.isSome ∧
    e.valueFrom = a.spec.credentials.bind CredentialsSpec.secretRef

structure JobFits (a : AutoIndexer) (account : ServiceAccount) (job : Job) : Prop where
  namespace_ : job.metadata.namespace_ = a.namespace_
  labels : LabelsFit a job.metadata.labels
  podLabels : LabelsFit a job.pod.labels
  account : job.pod.serviceAccountName = account.metadata.name
  container : ∃ c, job.pod.containers = [c] ∧ ContainerFits a job.pod.volumes c

/-- All that is generated for an AutoIndexer. -/
structure Generated where
  job : Job
  cronJob : Option CronJob
  serviceAccount : ServiceAccount
  role : Role
  roleBinding : RoleBinding

structure Fits (a : AutoIndexer) (g : Generated) : Prop where
  job : JobFits a g.serviceAccount g.job
  cronJob : g.cronJob.map CronJob.schedule = a.spec.schedule
  jobTemplate : ∀ c, g.cronJob = some c → JobFits a g.serviceAccount c.jobTemplate
  subject : g.roleBinding.subjects =
    [⟨"ServiceAccount", g.serviceAccount.metadata.name, g.serviceAccount.metadata.namespace_⟩]
  roleRef : g.roleBinding.roleRef.kind = "Role" ∧ g.roleBinding.roleRef.name = g.role.metadata.name ∧
    g.roleBinding.metadata.namespace_ = g.role.metadata.namespace_
  role : ∀ rule ∈ g.role.rules, "autoindexers" ∈ rule.resources → rule.resourceNames = [a.name]
  rules : ∃ rule ∈ g.role.rules, "autoindexers" ∈ rule.resources ∧ "autoindexers/status" ∈ rule.resources

/-- The configuration that the callers make: the service account is the generated one. -/
def jobConfig (a : AutoIndexer) (jobName jobType image imagePullPolicy : String)
    (resourceLimits : Option ResourceRequirements) : JobConfig :=
  ⟨a, jobName, jobType, image, resourceLimits, imagePullPolicy, generateServiceAccountName a⟩

def generate (generateSpecHash : AutoIndexerSpec → String) (config cronConfig : JobConfig) :
    Except Panic Generated := do
  let job ← generateIndexingJobManifest generateSpecHash config
  let cronJob ← generateIndexingCronJobManifest generateSpecHash cronConfig
  return ⟨job, cronJob, generateServiceAccountManifest config.autoIndexer,
    generateRoleManifest config.autoIndexer, generateRoleBindingManifest config.autoIndexer⟩

lemma selects_jobLabels (a b : AutoIndexer) :
    Selects (b.namespace_, [("autoindexer.kaito.sh/name", b.name)]) a.namespace_ (getJobLabels a) ↔
      b.namespace_ = a.namespace_ ∧ b.name = a.name := by
  have hlookup : (getJobLabels a).lookup "autoindexer.kaito.sh/name" = some a.name := rfl
  unfold Selects
  rw [List.forall_mem_singleton, hlookup, Option.some_inj, eq_comm (a := a.name)]

lemma labelsFit (a : AutoIndexer) : LabelsFit a (getJobLabels a) :=
  fun b => ⟨selects_jobLabels a b, selects_jobLabels a b⟩

lemma name_of_mem_optionalVar {name value : String} {e : EnvVar} (h : e ∈ optionalVar name value) :
    e.name = name := by
  unfold optionalVar at h
  split at h
  · rw [List.mem_singleton.mp h]
  · cases h

/-- The variables of a container that come from its credentials. -/
lemma mem_envVars {e : EnvVar} (h : e ∈ envVars a x) :
    (e.name = envFederatedTokenFile → (∃ az, x = .azure az) ∧
      e.value = "/var/run/secrets/azure/tokens/identity/token") ∧
    (e.name = envAccessSecret → ∃ r, x = .secret r ∧ e.valueFrom = some r) := by
  have hne : ∀ name : String, e.name = name → name ≠ envFederatedTokenFile →
      name ≠ envAccessSecret → (e.name = envFederatedTokenFile → (∃ az, x = .azure az) ∧
        e.value = "/var/run/secrets/azure/tokens/identity/token") ∧
      (e.name = envAccessSecret → ∃ r, x = .secret r ∧ e.valueFrom = some r) := by
    rintro name rfl h1 h2
    exact ⟨fun h => absurd h h1, fun h => absurd h h2⟩
  rcases List.mem_append.mp h with h | h
  · rcases List.mem_cons.mp h with rfl | h
    · exact hne "NAMESPACE" rfl (by decide) (by decide)
    · obtain rfl := List.mem_singleton.mp h
      exact hne "AUTOINDEXER_NAME" rfl (by decide) (by decide)
  · cases x with
    | anonymous => cases h
    | secret r =>
      obtain rfl := List.mem_singleton.mp h
      have hne : envAccessSecret ≠ envFederatedTokenFile := by decide
      exact ⟨fun h => absurd h hne, fun _ => ⟨r, rfl, rfl⟩⟩
    | azure az =>
      simp only [List.mem_append] at h
      rcases h with ((h | h) | h) | h
      · exact hne _ (name_of_mem_optionalVar h) (by decide) (by decide)
      · exact hne _ (name_of_mem_optionalVar h) (by decide) (by decide)
      · exact hne _ (name_of_mem_optionalVar h) (by decide) (by decide)
      · obtain rfl := List.mem_singleton.mp h
        exact ⟨fun _ => ⟨⟨az, rfl⟩, rfl⟩, fun h => absurd h (by decide)⟩

lemma tokenFile_iff : (∃ e ∈ envVars a x, e.name = envFederatedTokenFile) ↔ ∃ az, x = .azure az := by
  constructor
  · rintro ⟨e, he, hname⟩
    exact ((mem_envVars he).1 hname).1
  · rintro ⟨az, rfl⟩
    refine ⟨⟨envFederatedTokenFile, "/var/run/secrets/azure/tokens/identity/token", none⟩, ?_, rfl⟩
    exact List.mem_append_right _ (List.mem_append_right _ (List.mem_singleton_self _))

lemma accessSecret_iff : (∃ e ∈ envVars a x, e.name = envAccessSecret) ↔ ∃ r, x = .secret r := by
  constructor
  · rintro ⟨e, he, hname⟩
    obtain ⟨r, hr, -⟩ := (mem_envVars he).2 hname
    exact ⟨r, hr⟩
  · rintro ⟨r, rfl⟩
    exact ⟨⟨envAccessSecret, "", some r⟩, List.mem_append_right _ (List.mem_singleton_self _), rfl⟩

/-- The credentials name a secret where the container is given one. -/
lemma secret_iff (h : Grants s x) : (∃ r, x = .secret r) ↔
    ∃ c, s.credentials = some c ∧ c.type = credentialTypeSecretRef := by
  cases h with
  | anonymous h =>
    refine iff_of_false (fun ⟨r, hr⟩ => by cases hr) fun ⟨c, hc, _⟩ => ?_
    rw [h] at hc
    cases hc
  | secret h ht hr => exact iff_of_true ⟨_, rfl⟩ ⟨_, h, ht⟩
  | azure h ht =>
    refine iff_of_false (fun ⟨r, hr⟩ => by cases hr) fun ⟨c, hc, hsecret⟩ => ?_
    rw [h] at hc
    obtain rfl := Option.some.inj hc
    rw [ht] at hsecret
    exact absurd hsecret (by decide)

/-- The token is mounted where the credentials are a workload identity. -/
lemma mountsToken_iff (h : Grants a.spec x) :
    (∃ m ∈ generateVolumeMounts a, MountsToken (generateVolumeDefinitions a) m) ↔
      ∃ az, x = .azure az := by
  have haz := azureIdentity_of_grants h
  unfold generateVolumeMounts generateVolumeDefinitions MountsToken
  rw [haz]
  cases x <;> simp

/-- The container that is generated where the credentials are complete. -/
lemma containerFits {config : JobConfig} (h : Grants config.autoIndexer.spec x) :
    ∃ c, generateIndexingContainer config = .ok c ∧
      ContainerFits config.autoIndexer (generateVolumeDefinitions config.autoIndexer) c := by
  unfold generateIndexingContainer
  rw [generateEnvironmentVariables_eq h]
  have haz := azureIdentity_of_grants h
  refine ⟨_, rfl, ?_, ?_, ?_, ?_, ?_⟩
  · intro m hm
    simp only [generateVolumeMounts] at hm
    split at hm
    · rename_i hsome
      obtain rfl := List.mem_singleton.mp hm
      rw [generateVolumeDefinitions, if_pos hsome]
      exact ⟨_, List.mem_singleton_self _, rfl⟩
    · cases hm
  · exact tokenFile_iff.trans (mountsToken_iff h).symm
  · intro e he hname m hm v hv _ t ht
    rw [((mem_envVars he).1 hname).2]
    simp only [generateVolumeMounts] at hm
    split at hm
    · rename_i hsome
      rw [generateVolumeDefinitions, if_pos hsome] at hv
      obtain rfl := List.mem_singleton.mp hm
      obtain rfl := List.mem_singleton.mp hv
      obtain rfl := List.mem_singleton.mp ht
      rfl
    · cases hm
  · exact accessSecret_iff.trans (secret_iff h)
  · intro e he hname
    obtain ⟨r, rfl, hr⟩ := (mem_envVars he).2 hname
    cases h with
    | secret h ht href => simp [hr, h, href]

variable (generateSpecHash : AutoIndexerSpec → String)

/-- The Job of a configuration fits the other manifests, if the service account is the generated
one. -/
lemma jobFits (config : JobConfig) (h : Grants config.autoIndexer.spec x)
    (hname : config.serviceAccountName = generateServiceAccountName config.autoIndexer) :
    ∃ job, generateIndexingJobManifest generateSpecHash config = .ok job ∧
      JobFits config.autoIndexer (generateServiceAccountManifest config.autoIndexer) job := by
  obtain ⟨c, hc, hfits⟩ := containerFits h
  unfold generateIndexingJobManifest
  rw [hc]
  exact ⟨_, rfl, rfl, labelsFit _, labelsFit _, hname, c, rfl, hfits⟩

/-- There is a CronJob if there is a schedule, and the Job in it fits. -/
lemma cronJobFits (config : JobConfig) (h : Grants config.autoIndexer.spec x)
    (hname : config.serviceAccountName = generateServiceAccountName config.autoIndexer) :
    ∃ cronJob, generateIndexingCronJobManifest generateSpecHash config = .ok cronJob ∧
      cronJob.map CronJob.schedule = config.autoIndexer.spec.schedule ∧
      ∀ c, cronJob = some c → JobFits config.autoIndexer
        (generateServiceAccountManifest config.autoIndexer) c.jobTemplate := by
  unfold generateIndexingCronJobManifest
  cases config.autoIndexer.spec.schedule with
  | none => exact ⟨none, rfl, rfl, by simp⟩
  | some schedule =>
    obtain ⟨job, hjob, hfits⟩ := jobFits generateSpecHash
      { config with jobName := "", jobType := "" } h hname
    simp only [hjob]
    refine ⟨_, rfl, rfl, ?_⟩
    rintro c ⟨⟩
    exact hfits

/-- **Whatever the webhook admits, the manifests are generated and fit together.** -/
theorem manifests_fit (h : a.spec.validateCreate p = .ok [])
    (jobName cronJobName jobType cronJobType image imagePullPolicy : String)
    (resourceLimits : Option ResourceRequirements) :
    ∃ g, generate generateSpecHash (jobConfig a jobName jobType image imagePullPolicy resourceLimits)
      (jobConfig a cronJobName cronJobType image imagePullPolicy resourceLimits) = .ok g ∧
      Fits a g := by
  obtain ⟨x, hx⟩ := grants_of_valid (validateCreate_eq_nil.mp h)
  obtain ⟨job, hjob, hfits⟩ := jobFits generateSpecHash
    (jobConfig a jobName jobType image imagePullPolicy resourceLimits) hx rfl
  obtain ⟨cronJob, hcron, hschedule, htemplate⟩ := cronJobFits generateSpecHash
    (jobConfig a cronJobName cronJobType image imagePullPolicy resourceLimits) hx rfl
  unfold generate
  rw [hjob, hcron]
  refine ⟨_, rfl, hfits, hschedule, htemplate, rfl, ⟨rfl, rfl, rfl⟩, ?_, ?_⟩
  · intro rule hrule hres
    rcases List.mem_cons.mp hrule with rfl | hrule
    · rfl
    · obtain rfl := List.mem_singleton.mp hrule
      exact absurd hres (by decide)
  · exact ⟨_, List.mem_cons_self, List.mem_cons_self, List.mem_cons_of_mem _ List.mem_cons_self⟩

/-- An AutoIndexer with the workload identity of Azure. -/
def federated : AutoIndexer where
  name := "docs"
  namespace_ := "default"
  uid := "u1"
  spec :=
    { ragEngine := "rag"
      indexName := "index"
      dataSource := ⟨"Git", some ⟨"https://host/repo", "main", none, [], []⟩, none, none⟩
      credentials := some ⟨"WorkloadIdentity", none, some ⟨"Azure", some ⟨"reader", "scope",
        "00000000-0000-0000-0000-000000000001", "00000000-0000-0000-0000-000000000002"⟩⟩⟩
      schedule := some "@daily"
      suspend := none
      driftRemediationPolicy := some "Manual" }

/-- There are no URLs to parse, and the identifiers have 36 characters. -/
def uuidParsers : Parsers := ⟨fun _ => .error "", fun s => s.length == 36⟩

theorem manifests_fit_federated :
    ∃ g, generate (fun _ => "0") (jobConfig federated "docs-job" "one-time-indexing" "image" "Always" none)
      (jobConfig federated "docs-cronjob" "one-time-indexing" "image" "Always" none) = .ok g ∧
      Fits federated g :=
  manifests_fit _ (p := uuidParsers) (by decide) "docs-job" "docs-cronjob" "one-time-indexing"
    "one-time-indexing" "image" "Always" none

end KaitoAutoIndexer.Manifests
