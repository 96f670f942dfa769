import FedRegFeeder.Framework.Yields
import FedRegFeeder.Impl.Models.Provider

/-!
# Retrieved data

What `OpenstackData` and `KubernetesData` have in common: the attributes the
rest of the program reads (`ConnectionData`), and the monad of their methods
(`Retrieve`), which carries their `error` attribute and may raise. An object
whose constructor raises is never seen, so its other attributes are results
of the methods that set them.
-/

namespace FRF.Impl

open Py (PyError)

/-- An `OpenstackData` or a `KubernetesData` whose constructor returned. -/
structure ConnectionData where
  error : Bool
  providerConf : Provider
  issuer : Issuer
  project : ProjectCreate
  blockStorageServices : List BlockStorageServiceCreateExtended := []
  computeServices : List ComputeServiceCreateExtended := []
  identityServices : List IdentityServiceCreate := []
  networkServices : List NetworkServiceCreateExtended := []
  objectStoreServices : List ObjectStoreServiceCreateExtended := []
deriving DecidableEq, Repr

/-- A method of an object with an `error` attribute. -/
abbrev Retrieve (α : Type) := StateT Bool (Except PyError) α

/-- `self.error = True`. -/
def setError : Retrieve Unit := set true

/-- `assert c, msg`. -/
def assert (c : Bool) (msg : String) : Retrieve Unit :=
  if c then pure () else throw (.assertionError msg)

/-- The assertions with which both constructors start, and the only project
and authentication method of a configuration that meets them. -/
def checkConf (providerConf : Provider) : Retrieve (Region × Project × AuthMethod) := do
  assert (providerConf.regions.length = 1)
    s!"Invalid number or regions: {providerConf.regions.length}"
  assert (providerConf.projects.length = 1)
    s!"Invalid number or projects: {providerConf.projects.length}"
  assert (providerConf.identityProviders.length = 1)
    s!"Invalid number or trusted identity providers: {providerConf.identityProviders.length}"
  return (← StateT.lift (Py.index0 providerConf.regions),
    ← StateT.lift (Py.index0 providerConf.projects),
    ← StateT.lift (Py.index0 providerConf.identityProviders))

/-- `…QuotaCreateExtended(**limits.dict(exclude_none=True), project=project)`. -/
def PerUserQuota.on (limits : PerUserQuota) (project : String) : QuotaCreateExtended :=
  { limits.val with figures := limits.val.figures.filter (·.2.isSome), project }

/-- The quotas of a service: the limits and the usage of the project, and a
per-user quota if there is one. -/
def withPerUser (quotas : QuotaCreateExtended × QuotaCreateExtended)
    (perUser : Option QuotaCreateExtended) : List QuotaCreateExtended :=
  [quotas.1, quotas.2] ++ perUser.toList

end FRF.Impl
