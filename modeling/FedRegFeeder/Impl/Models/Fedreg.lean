import Mathlib.Data.Rat.Init
import Mathlib.Algebra.Field.Rat
import FedRegFeeder.Impl.Python

/-!
# The Federation-Registry schemas

The classes of the `fedreg` package that the feeder builds, with the
attributes its code reads or sets. A pair of classes `Shared…`/`Private…` is
one structure with an `Access`; the attributes a class takes over unread from
a cloud's answer are kept as they are. Values are those the models accept:
validation by `fedreg` is not modelled, except that `createProvider` runs the
validators of `ProviderCreateExtended` as a parameter.
-/

namespace FRF.Impl

/-- The registry's kinds of provider. -/
inductive ProviderType where
  | openstack | kubernetes
deriving DecidableEq, Repr

inductive ProviderStatus where
  | active | maintenance | deprecated | limited
deriving DecidableEq, Repr

/-! ## Quotas -/

/-- `…QuotaBase`: the flags of a quota and its figures, by field name. -/
structure QuotaBase where
  description : String := ""
  perUser : Bool := false
  usage : Bool := false
  figures : List (String × Option Int) := []
deriving DecidableEq, Repr

/-- `…QuotaCreateExtended`: a quota on a project. -/
structure QuotaCreateExtended extends QuotaBase where
  project : String
deriving DecidableEq, Repr

/-! ## Resources -/

/-- Who may use a resource: everyone (`Shared…`) or the listed projects
(`Private…`). -/
inductive Access where
  | shared
  | priv (projects : List String)
deriving DecidableEq, Repr

def Access.isShared : Access → Bool
  | .shared => true
  | .priv _ => false

/-- The listed projects of a private resource. -/
def Access.projects : Access → List String
  | .shared => []
  | .priv projects => projects

/-- `PrivateFlavorCreateExtended | SharedFlavorCreate`. -/
structure Flavor where
  uuid : String
  name : String
  description : String := ""
  disk : Int := 0
  ram : Int := 0
  vcpus : Int := 0
  swap : Int := 0
  ephemeral : Int := 0
  gpus : Int := 0
  gpuModel : Option String := none
  gpuVendor : Option String := none
  localStorage : Option String := none
  infiniband : Option String := none
  access : Access
deriving DecidableEq, Repr

/-- `PrivateImageCreateExtended | SharedImageCreate`. -/
structure Image where
  uuid : String
  name : String
  description : String := ""
  osType : Option String := none
  osDistro : Option String := none
  osVersion : Option String := none
  architecture : Option String := none
  kernelId : Option String := none
  tags : List String := []
  access : Access
deriving DecidableEq, Repr

/-- `PrivateNetworkCreateExtended | SharedNetworkCreate`. -/
structure Network where
  uuid : String
  name : String
  description : String := ""
  isRouterExternal : Bool := false
  isDefault : Bool := false
  mtu : Option Int := none
  proxyHost : Option String := none
  proxyUser : Option String := none
  tags : List String := []
  access : Access
deriving DecidableEq, Repr

structure StorageClassCreateExtended where
  name : String
  isDefault : Option String := none
  provisioner : String
deriving DecidableEq, Repr

/-! ## Services -/

inductive BlockStorageServiceName where
  | openstackCinder | kubernetes
deriving DecidableEq, Repr

inductive ComputeServiceName where
  | openstackNova | kubernetes
deriving DecidableEq, Repr

inductive IdentityServiceName where
  | openstackKeystone | kubernetes
deriving DecidableEq, Repr

inductive NetworkServiceName where
  | openstackNeutron
deriving DecidableEq, Repr

inductive ObjectStoreServiceName where
  | openstackSwift | openstackSwiftS3
deriving DecidableEq, Repr

structure BlockStorageServiceCreateExtended where
  endpoint : String
  name : BlockStorageServiceName
  quotas : List QuotaCreateExtended := []
  storageClasses : List StorageClassCreateExtended := []
deriving DecidableEq, Repr

structure ComputeServiceCreateExtended where
  endpoint : String
  name : ComputeServiceName
  flavors : List Flavor := []
  images : List Image := []
  quotas : List QuotaCreateExtended := []
deriving DecidableEq, Repr

structure IdentityServiceCreate where
  endpoint : String
  name : IdentityServiceName
deriving DecidableEq, Repr

structure NetworkServiceCreateExtended where
  endpoint : String
  name : NetworkServiceName
  networks : List Network := []
  quotas : List QuotaCreateExtended := []
deriving DecidableEq, Repr

structure ObjectStoreServiceCreateExtended where
  endpoint : String
  name : ObjectStoreServiceName
  quotas : List QuotaCreateExtended := []
deriving DecidableEq, Repr

/-! ## Regions, projects, identity providers -/

structure LocationBase where
  site : String
  country : String
deriving DecidableEq, Repr

/-- `RegionBase` with its location, as a configuration gives it. -/
structure Region where
  name : String
  description : String := ""
  overbookingCpu : ℚ
  overbookingRam : ℚ
  bandwidthIn : ℚ
  bandwidthOut : ℚ
  location : Option LocationBase := none
deriving DecidableEq, Repr

structure RegionCreateExtended extends Region where
  blockStorageServices : List BlockStorageServiceCreateExtended := []
  computeServices : List ComputeServiceCreateExtended := []
  identityServices : List IdentityServiceCreate := []
  networkServices : List NetworkServiceCreateExtended := []
  objectStoreServices : List ObjectStoreServiceCreateExtended := []
deriving DecidableEq, Repr

structure ProjectCreate where
  uuid : String
  name : String
  description : String := ""
deriving DecidableEq, Repr

structure SLABase where
  docUuid : String
  startDate : String
  endDate : String
  description : String := ""
deriving DecidableEq, Repr

structure SLACreateExtended extends SLABase where
  project : String
deriving DecidableEq, Repr

structure UserGroupCreateExtended where
  name : String
  description : String := ""
  sla : SLACreateExtended
deriving DecidableEq, Repr

/-- How a provider names an identity provider it trusts. -/
structure AuthMethod where
  endpoint : String
  idpName : Option String := none
  protocol : Option String := none
  audience : Option String := none
deriving DecidableEq, Repr

structure IdentityProviderCreateExtended where
  endpoint : String
  groupClaim : String
  description : String := ""
  relationship : AuthMethod
  userGroups : List UserGroupCreateExtended
deriving DecidableEq, Repr

structure ProviderCreateExtended where
  name : String
  type : ProviderType
  isPublic : Bool := false
  supportEmails : List String := []
  status : ProviderStatus
  identityProviders : List IdentityProviderCreateExtended
  projects : List ProjectCreate
  regions : List RegionCreateExtended
deriving DecidableEq, Repr

/-- A provider as the registry returns it. -/
structure ProviderRead where
  uid : String
  name : String
  type : ProviderType
deriving DecidableEq, Repr

end FRF.Impl
