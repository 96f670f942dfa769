import FedRegFeeder.Impl.Providers.Data

/-!
# OpenStack

`src/providers/openstack.py`. What the SDK answers is a `Connection`: for each
request the program makes, the answer or the exception. A lazy listing is a
`Generator`: its items, and the exception that ends it, if any.

`get_object_store_service` and `get_object_store_quotas` are not modelled: the
only call to them is commented out.
-/

namespace FRF.Impl

open Py (PyError SdkError)

/-- The items a listing yields, and the exception that ends it. -/
structure Generator (α : Type) where
  items : List α := []
  fails : Option SdkError := none

structure SdkProject where
  id : String
  name : String
  description : Option String := none

structure SdkFlavor where
  id : String
  name : String
  description : Option String := none
  isPublic : Bool
  disk : Int := 0
  ram : Int := 0
  vcpus : Int := 0
  swap : Int := 0
  ephemeral : Int := 0
  extraSpecs : List (String × String) := []

structure SdkImage where
  id : String
  name : String
  visibility : String
  ownerId : String
  osType : Option String := none
  osDistro : Option String := none
  osVersion : Option String := none
  architecture : Option String := none
  kernelId : Option String := none
  tags : List String := []

structure SdkMember where
  id : String
  status : String

structure SdkNetwork where
  id : String
  name : String
  description : Option String := none
  isShared : Bool
  projectId : String
  isRouterExternal : Bool := false
  isDefault : Bool := false
  mtu : Option Int := none
  tags : List String := []

/-- The limits of a quota set and, under `usage`, what is used. -/
structure SdkQuotaSet where
  limits : List (String × Option Int) := []
  usage : List (String × Option Int) := []

structure SdkNetworkQuota where
  limit : Option Int
  used : Option Int

structure CatalogEndpoint where
  interface : String
  region : String
  url : String

structure CatalogService where
  type : String
  name : String
  endpoints : List CatalogEndpoint

/-- What the SDK answers on one connection. -/
structure Connection where
  currentProjectId : Except SdkError String
  getProject : String → Except SdkError SdkProject
  blockStorageEndpoint : Except SdkError (Option String)
  blockStorageQuotaSet : String → Except SdkError SdkQuotaSet
  computeEndpoint : Except SdkError (Option String)
  computeQuotaSet : String → Except SdkError SdkQuotaSet
  flavors : Generator SdkFlavor
  flavorAccess : SdkFlavor → Generator String
  images : Option String → Generator SdkImage
  members : SdkImage → Generator SdkMember
  networkEndpoint : Except SdkError (Option String)
  networks : Option (List String) → Generator SdkNetwork
  networkQuota : String → Except SdkError (List (String × Option SdkNetworkQuota))
  serviceCatalog : Except SdkError (List CatalogService)

/-- The arguments of `connect`. -/
structure ConnectArgs where
  authUrl : String
  identityProvider : Option String
  protocol : Option String
  accessToken : String
  projectId : String
  regionName : String

/-- The exceptions `retrieve_info` handles. -/
def SdkError.aborts : SdkError → Bool
  | .connectFailure | .connectTimeout | .unauthorized | .noMatchingPlugin | .notFound
  | .forbiddenException | .sslError | .gatewayTimeout | .httpException => true
  | .endpointNotFound | .other _ => false

namespace OpenstackData

/-- A request to the SDK. -/
def call {α : Type} (r : Except SdkError α) : Retrieve α := StateT.lift (r.mapError .sdk)

/-- The exception that ends a listing. -/
def raiseEnd (fails : Option SdkError) : Retrieve Unit :=
  match fails with
  | none => pure ()
  | some e => throw (.sdk e)

/-- `for x in generator`, collecting what the body returns. -/
def forEach {α β : Type} (g : Generator α) (body : α → Retrieve β) : Retrieve (List β) := do
  let r ← g.items.mapM body
  raiseEnd g.fails
  return r

/-- `conn.….get_endpoint()` in the three `get_…_service` methods: a missing
endpoint sets the error flag. -/
def getEndpoint (r : Except SdkError (Option String)) : Retrieve (Option String) :=
  match r with
  | .error .endpointNotFound => do
    setError
    return none
  | r => do
    let endpoint ← call r
    -- `if not endpoint`
    return endpoint.filter (· ≠ "")

section
variable (conn : Connection)

/-- The `try` of `get_block_storage_quotas`: a forbidden request sets the error
flag, and the quotas are empty. -/
def getBlockStorageQuotaSet (project : String) : Retrieve SdkQuotaSet :=
  match conn.blockStorageQuotaSet project with
  | .error .forbiddenException => do
    setError
    return {}
  | r => call r

def getBlockStorageQuotas : Retrieve (QuotaCreateExtended × QuotaCreateExtended) := do
  let project ← call conn.currentProjectId
  let data ← getBlockStorageQuotaSet conn project
  return ({ figures := data.limits, project }, { figures := data.usage, project, usage := true })

def getComputeQuotas : Retrieve (QuotaCreateExtended × QuotaCreateExtended) := do
  let project ← call conn.currentProjectId
  let data ← call (conn.computeQuotaSet project)
  return ({ figures := data.limits, project }, { figures := data.usage, project, usage := true })

def getNetworkQuotas : Retrieve (QuotaCreateExtended × QuotaCreateExtended) := do
  let project ← call conn.currentProjectId
  let data ← call (conn.networkQuota project)
  let data := data.filterMap fun (k, v) =>
    v.map fun v => (if k = "floating_ips" then "public_ips" else k, v)
  return ({ figures := data.map fun (k, v) => (k, v.limit), project },
    { figures := data.map fun (k, v) => (k, v.used), project, usage := true })

def getS3Quotas : Retrieve (QuotaCreateExtended × QuotaCreateExtended) := do
  let project ← call conn.currentProjectId
  return ({ description := "placeholder", project },
    { description := "placeholder", project, usage := true })

/-! ## Flavors and images -/

/-- Format flavor extra specs: the attributes of a flavor they set. -/
def getFlavorExtraSpecs (extraSpecs : List (String × String)) (flavor : Flavor) :
    Except PyError Flavor := do
  let gpus ← match extraSpecs.lookup "gpu_number" with
    | some n => Py.int n
    | none => pure 0
  return { flavor with
    gpus
    gpuModel := if gpus > 0 then extraSpecs.lookup "gpu_model" else none
    gpuVendor := if gpus > 0 then extraSpecs.lookup "gpu_vendor" else none
    localStorage := extraSpecs.lookup "aggregate_instance_extra_specs:local_storage"
    infiniband := extraSpecs.lookup "infiniband" }

/-- The projects a private flavor is accessible to, as far as they can be
listed. -/
def getFlavorProjects (flavor : SdkFlavor) : Retrieve (List String) := do
  let access := conn.flavorAccess flavor
  match access.fails with
  | some .forbiddenException => setError
  | fails => raiseEnd fails
  return access.items.dedup

/-- The body of the loop of `get_flavors`: a private flavor that no project has
access to is skipped. -/
def flavorOf (flavor : SdkFlavor) : Retrieve (Option Flavor) := do
  let access ← if flavor.isPublic then pure .shared else Access.priv <$> getFlavorProjects conn flavor
  let data : Flavor :=
    { uuid := flavor.id, name := flavor.name, description := flavor.description.getD ""
      disk := flavor.disk, ram := flavor.ram, vcpus := flavor.vcpus, swap := flavor.swap
      ephemeral := flavor.ephemeral, access }
  let data ← if flavor.extraSpecs = [] then pure data
    else StateT.lift (getFlavorExtraSpecs flavor.extraSpecs data)
  return if access = .priv [] then none else some data

def getFlavors : Retrieve (List Flavor) := do
  let flavors ← forEach conn.flavors (flavorOf conn)
  return flavors.reduceOption

/-- The owner of a shared image and the members that accepted it. -/
def getImageProjects (image : SdkImage) : Retrieve (List String) := do
  let members ← forEach (conn.members image) pure
  return (image.ownerId :: (members.filter (·.status = "accepted")).map (·.id)).dedup

/-- The body of the loop of `get_images`. -/
def imageOf (image : SdkImage) : Retrieve Image := do
  let access ← if image.visibility = "private" then pure (.priv [image.ownerId])
    else if image.visibility = "shared" then Access.priv <$> getImageProjects conn image
    else pure .shared
  return { uuid := image.id, name := image.name, osType := image.osType, osDistro := image.osDistro
           osVersion := image.osVersion, architecture := image.architecture
           kernelId := image.kernelId, tags := image.tags, access }

/-- One turn of the loop over the tags: the images of the tag, but those with
the name of an image found before the turn. -/
def imagesWithTag (osImages : List SdkImage) (tag : String) : Retrieve (List SdkImage) := do
  let names := osImages.map (·.name)
  let newImages ← forEach (conn.images (some tag)) pure
  return osImages ++ newImages.filter (·.name ∉ names)

def getImages (tags : List String) : Retrieve (List Image) :=
  if tags.length > 0 then do
    let osImages ← tags.foldlM (imagesWithTag conn) []
    osImages.mapM (imageOf conn)
  else forEach (conn.images none) (imageOf conn)

/-! ## Networks -/

def isDefaultNetwork (network : Network) (defaultPrivateNet defaultPublicNet : Option String)
    (isUnique : Bool) : Bool :=
  (isUnique && network.isRouterExternal && defaultPublicNet.isNone) ||
  (isUnique && !network.isRouterExternal && defaultPrivateNet.isNone) ||
  (network.isRouterExternal && defaultPublicNet = some network.name) ||
  (!network.isRouterExternal && defaultPrivateNet = some network.name) ||
  network.isDefault

/-- The body of the loop of `get_networks`. -/
def networkOf (proxy : Option PrivateNetProxy) (network : SdkNetwork) : Retrieve Network := do
  let access ← if network.isShared then pure .shared
    else (fun project => Access.priv [project]) <$> call conn.currentProjectId
  return { uuid := network.id, name := network.name, description := network.description.getD ""
           isRouterExternal := network.isRouterExternal, isDefault := network.isDefault
           mtu := network.mtu, proxyHost := proxy.map (·.host), proxyUser := proxy.map (·.user)
           tags := network.tags, access }

def getNetworks (proxy : Option PrivateNetProxy) (tags : List String) : Retrieve (List Network) :=
  forEach (conn.networks (if tags.length = 0 then none else some tags)) (networkOf conn proxy)

/-- The loop of `get_network_service` that marks the default networks. -/
def markDefaults (projectConf : Project) (networks : List Network) : List Network :=
  let totPubNets := (networks.filter (·.isRouterExternal)).length
  let totPrivNets := (networks.filter (!·.isRouterExternal)).length
  networks.map fun network =>
    let isUnique := (network.isRouterExternal && totPubNets = 1) ||
      (!network.isRouterExternal && totPrivNets = 1)
    let isDefault := isDefaultNetwork network projectConf.defaultPrivateNet
      projectConf.defaultPublicNet isUnique
    { network with isDefault }

/-! ## Services -/

def getProject : Retrieve ProjectCreate := do
  let project ← call (conn.getProject (← call conn.currentProjectId))
  return { uuid := project.id, name := project.name, description := project.description.getD "" }

/-- The list of the quotas of a service: its limits, its usage, and the
per-user quota the project is configured with. -/
def serviceQuotas (quotas : Retrieve (QuotaCreateExtended × QuotaCreateExtended))
    (limits : Option PerUserQuota) : Retrieve (List QuotaCreateExtended) := do
  let quotas ← quotas
  match limits with
  | none => return withPerUser quotas none
  | some limits => return withPerUser quotas (some (limits.on (← call conn.currentProjectId)))

variable (projectConf : Project)

def getBlockStorageService : Retrieve (Option BlockStorageServiceCreateExtended) := do
  let some endpoint ← getEndpoint conn.blockStorageEndpoint | return none
  let quotas ← serviceQuotas conn (getBlockStorageQuotas conn) projectConf.perUserLimits.blockStorage
  return some { endpoint := Py.dirname endpoint, name := .openstackCinder, quotas }

def getComputeService (imageTags : List String) :
    Retrieve (Option ComputeServiceCreateExtended) := do
  let some endpoint ← getEndpoint conn.computeEndpoint | return none
  let flavors ← getFlavors conn
  let images ← getImages conn imageTags
  let quotas ← serviceQuotas conn (getComputeQuotas conn) projectConf.perUserLimits.compute
  return some { endpoint, name := .openstackNova, flavors, images, quotas }

def getNetworkService (networkTags : List String) :
    Retrieve (Option NetworkServiceCreateExtended) := do
  let some endpoint ← getEndpoint conn.networkEndpoint | return none
  let networks ← getNetworks conn projectConf.privateNetProxy networkTags
  let networks := markDefaults projectConf networks
  let quotas ← serviceQuotas conn (getNetworkQuotas conn) projectConf.perUserLimits.network
  return some { endpoint, name := .openstackNeutron, networks, quotas }

/-- One service for each public S3 endpoint of the region in the catalog. -/
def getS3Services (regionName : String) : Retrieve (List ObjectStoreServiceCreateExtended) := do
  let catalog ← call conn.serviceCatalog
  let endpoints := (catalog.filter fun x => x.type = "s3" && x.name = "swift_s3").flatMap
    fun service => service.endpoints.filter fun x =>
      x.interface = "public" && x.region = regionName
  endpoints.mapM fun endpoint => do
    let quotas ← serviceQuotas conn (getS3Quotas conn) projectConf.perUserLimits.objectStore
    return { endpoint := endpoint.url, name := .openstackSwiftS3, quotas }

end

/-- What `retrieve_info` translates. -/
def abort : PyError → PyError
  | .sdk e => if SdkError.aborts e then .openstackProviderError else .sdk e
  | e => e

/-- Connect to the provider and retrieve information. -/
def retrieveInfo (conn : Connection) (providerConf : Provider) (imageTags networkTags : List String)
    (issuer : Issuer) (region : Region) (projectConf : Project) : Retrieve ConnectionData :=
  Framework.mapError abort do
    let identityServices := [{ endpoint := providerConf.authUrl, name := .openstackKeystone }]
    let project ← getProject conn
    let blockStorageService ← getBlockStorageService conn projectConf
    let computeService ← getComputeService conn projectConf imageTags
    let networkService ← getNetworkService conn projectConf networkTags
    let objectStoreServices ← getS3Services conn projectConf region.name
    return {
      error := ← get
      providerConf, issuer, project, identityServices, objectStoreServices
      blockStorageServices := blockStorageService.toList
      computeServices := computeService.toList
      networkServices := networkService.toList }

/-- What the constructor translates. -/
def invalidConf : PyError → PyError
  | .assertionError _ => .openstackProviderError
  | e => e

/-- The arguments of `connect` in `create_connection`. -/
def connectArgs (providerConf : Provider) (issuer : Issuer) (region : Region)
    (projectConf : Project) (authMethod : AuthMethod) : ConnectArgs where
  authUrl := providerConf.authUrl
  identityProvider := authMethod.idpName
  protocol := authMethod.protocol
  accessToken := issuer.token
  projectId := projectConf.id
  regionName := region.name

/-- `connect` is outside the `try` of `retrieve_info`. -/
def init (connect : ConnectArgs → Except PyError Connection) (providerConf : Provider)
    (imageTags networkTags : List String) (issuer : Issuer) : Retrieve ConnectionData :=
  Framework.mapError invalidConf do
    let (region, projectConf, authMethod) ← checkConf providerConf
    let conn ← StateT.lift (connect (connectArgs providerConf issuer region projectConf authMethod))
    retrieveInfo conn providerConf imageTags networkTags issuer region projectConf

end OpenstackData

end FRF.Impl
