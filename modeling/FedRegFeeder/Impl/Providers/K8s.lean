import FedRegFeeder.Framework.Dict
import FedRegFeeder.Impl.Providers.Data

/-!
# Kubernetes

`src/providers/k8s.py`. What a cluster answers is a `Cluster`: for each request
the program makes, the answer or the exception. The values of the enumerations
of `fedreg` that occur in endpoints are the parameter `ServiceNames`.
-/

namespace FRF.Impl

open Py (PyError ApiBody)
open Framework (Dict)

/-- The `hard` and `used` maps of the status of a `ResourceQuota`, in order; one
that the status does not have is `None`. -/
structure ResourceQuota where
  hard : Option (List (String × String))
  used : Option (List (String × String))

structure SdkStorageClass where
  name : String
  annotations : Option (List (String × String))
  provisioner : String

/-- What the API of a cluster answers to a token. -/
structure Cluster where
  listNamespacedResourceQuota : (namespace' : String) → Except PyError (List ResourceQuota)
  listStorageClass : Except PyError (List SdkStorageClass)

/-- `BlockStorageServiceName.KUBERNETES.value` and
`ComputeServiceName.KUBERNETES.value`. -/
structure ServiceNames where
  blockStorage : String
  compute : String

namespace KubernetesData

/-- The dictionaries of `get_quotas`, by category. -/
structure QuotaData where
  compute : Dict String Int := .empty
  blockStorage : Dict String Int := .empty
  storageClass : Dict String Int := .empty

/-- The field a resource is recorded under. -/
def fieldOf (key : String) : String :=
  let key := if key = "cpu" ∨ key = "memory" then "requests." ++ key else key
  let key := if key = "persistentvolumeclaims" then "pvcs" else key
  let key := if key = "requests.storage" then "storage" else key
  key.map fun c => if c = '.' ∨ c = '-' then '_' else c

/-- The number a quantity is recorded as. -/
def valueOf (value : String) : Except PyError Int :=
  match Py.int value with
  | .ok n => .ok n
  | .error (.valueError _) =>
    -- Value ends with Gi, Ki, Mi...
    Py.int (String.ofList (value.toList.dropLast.dropLast))
  | .error e => .error e

def splitQuotas (key value : String) (data : QuotaData) : Except PyError QuotaData := do
  let key := fieldOf key
  let value ← valueOf value
  if key ∈ ["limits_cpu", "limits_memory", "requests_cpu", "requests_memory", "pods"] then
    return { data with compute := data.compute.set key value }
  else if key ∈ ["requests_ephemeral_storage", "limits_ephemeral_storage", "storage", "pvcs"] then
    return { data with blockStorage := data.blockStorage.set key value }
  else return data

/-- `for resource, value in items.items()`. -/
def splitItems (items : Option (List (String × String))) (data : QuotaData) :
    Except PyError QuotaData :=
  match items with
  | some items => items.foldlM (fun d e => splitQuotas e.1 e.2 d) data
  | none => .error .attributeError

/-- One turn of the loop over the `ResourceQuota` objects. -/
def addQuota (data : QuotaData × QuotaData) (quota : ResourceQuota) :
    Except PyError (QuotaData × QuotaData) := do
  let quotas ← splitItems quota.hard data.1
  let usage ← splitItems quota.used data.2
  return (quotas, usage)

/-- The figures of a quota. -/
def figures (d : Dict String Int) : List (String × Option Int) := d.entries.map fun e => (e.1, some e.2)

section
variable (cluster : Cluster) (project : String)

/-- The limits and the usage of compute, then those of block storage. -/
def getQuotas : Except PyError ((QuotaCreateExtended × QuotaCreateExtended) ×
    (QuotaCreateExtended × QuotaCreateExtended)) := do
  let resourceQuotas ← cluster.listNamespacedResourceQuota project
  let (quotas, usage) ← resourceQuotas.foldlM addQuota ({}, {})
  return (({ figures := figures quotas.compute, project },
      { figures := figures usage.compute, project, usage := true }),
    ({ figures := figures quotas.blockStorage, project },
      { figures := figures usage.blockStorage, project, usage := true }))

/-- The body of the loop of `get_storage_classes`. -/
def storageClassOf (storageClass : SdkStorageClass) : Except PyError StorageClassCreateExtended :=
  match storageClass.annotations with
  | none => .error .attributeError
  | some annotations => .ok
    { name := storageClass.name
      isDefault := annotations.lookup "storageclass.kubernetes.io/is-default-class"
      provisioner := storageClass.provisioner }

def getStorageClasses : Except PyError (List StorageClassCreateExtended) := do
  let storageClasses ← match cluster.listStorageClass with
    | .error (.valueError _) => .ok []
    | r => r
  storageClasses.mapM storageClassOf

def getServices (names : ServiceNames) (authUrl : String) (limits : Limits) :
    Except PyError (BlockStorageServiceCreateExtended × ComputeServiceCreateExtended) := do
  let (compute, blockStorage) ← getQuotas cluster project
  let storageClasses ← getStorageClasses cluster
  return ({ endpoint := authUrl ++ "/" ++ names.blockStorage, name := .kubernetes
            quotas := withPerUser blockStorage (limits.blockStorage.map (·.on project))
            storageClasses },
    { endpoint := authUrl ++ "/" ++ names.compute, name := .kubernetes
      quotas := withPerUser compute (limits.compute.map (·.on project)) })

end

/-- What logging an API error raises: with status 403 its body is read. -/
def logApiException (status : Nat) (body : ApiBody) : Except PyError Unit :=
  if status = 403 then
    match body with
    | .message _ => .ok ()
    | .noMessage => .error .keyError
    | .notObject => .error .typeError
    | .notJson => .error (.valueError "Expecting value")
    | .absent => .error .typeError
  else .ok ()

/-- An error of the API is recorded, and what was retrieved before it is kept. -/
def retrieveInfo (names : ServiceNames) (cluster : Cluster) (providerConf : Provider)
    (issuer : Issuer) (projectConf : Project) : Retrieve ConnectionData := do
  let data : ConnectionData :=
    { error := ← get, providerConf, issuer
      project := { name := projectConf.id, uuid := projectConf.id }
      identityServices := [{ endpoint := providerConf.authUrl, name := .kubernetes }] }
  match getServices cluster projectConf.id names providerConf.authUrl projectConf.perUserLimits with
  | .ok (blockStorageService, computeService) =>
    return { data with
      blockStorageServices := [blockStorageService], computeServices := [computeService] }
  | .error (.apiException status body) => do
    setError
    StateT.lift (logApiException status body)
    return { data with error := ← get }
  | .error .maxRetryError => do
    setError
    return { data with error := ← get }
  | .error e => throw e

/-- What the constructor translates. -/
def invalidConf : PyError → PyError
  | .assertionError _ => .kubernetesProviderError
  | e => e

/-- `connect` is the API of the cluster at a URL for a token. -/
def init (names : ServiceNames) (agent : OidcAgent)
    (connect : (authUrl token : String) → (caPath : Option String) → Cluster)
    (providerConf : Provider) (caPath : Option String) (issuer : Issuer) :
    Retrieve ConnectionData :=
  Framework.mapError invalidConf do
    let (_, projectConf, authMethod) ← checkConf providerConf
    let token ← StateT.lift (retrieveToken agent issuer.endpoint authMethod.audience)
    let cluster := connect providerConf.authUrl token caPath
    retrieveInfo names cluster providerConf issuer projectConf

end KubernetesData

end FRF.Impl
